import Warden.Diagnostics.Reader

/-!
The items of a stream, one after another.

Every item takes at least one byte or one read off the stream (`size_lt_of_next`), so the items
of a stream are a list. The list ends where the reader ends, where it would wait, or where it
crashes.
-/

namespace Warden.Diagnostics

open Warden.Log

/-- The bytes and reads still to come when a buffer is followed by reads. -/
def ahead (buffer : List UInt8) (reads : List Read) : Nat :=
  buffer.length + Reader.weights reads

/-- The bytes and reads that an attempt left over, if it succeeded or failed. -/
def Got.Leaves {α : Type} (g : Got α) (n : Nat) : Prop :=
  match g with
  | .ok _ rest | .fault _ rest => rest.size ≤ n
  | .waiting | .crashed => True

theorem take_stop {room : Nat} {line buffer line' rest : List UInt8}
    (h : take room line buffer = .stop line' rest) :
    rest.length + line'.length = buffer.length + line.length := by
  induction buffer generalizing room line with
  | nil => cases room <;> simp_all [take]
  | cons b bs ih =>
    cases room with
    | zero => simp_all [take]
    | succ room =>
      rw [take] at h
      split at h
      · simp only [Taken.stop.injEq] at h
        obtain ⟨rfl, rfl⟩ := h
        simp; omega
      · have := ih h
        simp at this ⊢; omega

theorem take_more {room room' : Nat} {line buffer line' : List UInt8}
    (h : take room line buffer = .more room' line') :
    line'.length = buffer.length + line.length := by
  induction buffer generalizing room line with
  | nil => cases room <;> simp_all [take]
  | cons b bs ih =>
    cases room with
    | zero => simp_all [take]
    | succ room =>
      rw [take] at h
      split at h
      · simp at h
      · have := ih h
        simp at this ⊢; omega

/-- A collected line is no longer than what was taken off the stream for it. -/
theorem collect_ok {closed : Bool} {room : Nat} {line buffer : List UInt8} {reads : List Read}
    {out : List UInt8} {rest : Reader}
    (h : collect closed room line buffer reads = .ok out rest) :
    rest.size + out.length ≤ ahead buffer reads + line.length := by
  induction reads generalizing room line buffer with
  | nil =>
    rw [collect] at h
    split at h
    · rename_i hs
      have := take_stop hs
      simp only [Got.ok.injEq] at h
      obtain ⟨rfl, rfl⟩ := h
      simp [Reader.size, ahead]; omega
    · rename_i hs
      have := take_more hs
      split at h
      · simp only [Got.ok.injEq] at h
        obtain ⟨rfl, rfl⟩ := h
        simp [Reader.size, ahead]; omega
      · simp at h
  | cons r reads ih =>
    rw [collect] at h
    split at h
    · rename_i hs
      have := take_stop hs
      simp only [Got.ok.injEq] at h
      obtain ⟨rfl, rfl⟩ := h
      simp [Reader.size, ahead]; omega
    · rename_i hs
      have hm := take_more hs
      cases r with
      | data bytes =>
        have := ih h
        simp [ahead, Reader.weights, Reader.weight] at this ⊢; omega
      | fault f =>
        simp only at h
        split at h
        · have := ih h
          simp [ahead, Reader.weights, Reader.weight] at this ⊢; omega
        · simp at h
      | nothing =>
        simp only [Got.ok.injEq] at h
        obtain ⟨rfl, rfl⟩ := h
        simp [Reader.size, ahead, Reader.weights, Reader.weight]; omega
      | crash => simp at h

theorem collect_fault {closed : Bool} {room : Nat} {line buffer : List UInt8}
    {reads : List Read} {f : Fault} {rest : Reader}
    (h : collect closed room line buffer reads = .fault f rest) :
    rest.size < ahead buffer reads := by
  induction reads generalizing room line buffer with
  | nil =>
    rw [collect] at h
    split at h
    · simp at h
    · split at h <;> simp at h
  | cons r reads ih =>
    rw [collect] at h
    split at h
    · simp at h
    · cases r with
      | data bytes =>
        have := ih h
        simp [ahead, Reader.weights, Reader.weight] at this ⊢; omega
      | fault f =>
        simp only at h
        split at h
        · have := ih h
          simp [ahead, Reader.weights, Reader.weight] at this ⊢; omega
        · simp only [Got.fault.injEq] at h
          obtain ⟨rfl, rfl⟩ := h
          simp [Reader.size, ahead, Reader.weights, Reader.weight]; omega
      | nothing => simp at h
      | crash => simp at h

theorem length_dropWhile_le (buffer : List UInt8) :
    (buffer.dropWhile (· != lineFeed)).length ≤ buffer.length :=
  (List.dropWhile_sublist _).length_le

theorem skip_leaves (closed : Bool) (buffer : List UInt8) (reads : List Read) :
    (skip closed buffer reads).Leaves (ahead buffer reads) := by
  induction reads generalizing buffer with
  | nil =>
    have hw := length_dropWhile_le buffer
    rw [skip]
    split
    · rename_i hd
      rw [hd] at hw
      simp [Got.Leaves, Reader.size, ahead] at hw ⊢; omega
    · split <;> simp [Got.Leaves, Reader.size, ahead]
  | cons r reads ih =>
    have hw := length_dropWhile_le buffer
    cases hd : buffer.dropWhile (· != lineFeed) with
    | cons b rest =>
      rw [hd] at hw
      simp [skip, hd, Got.Leaves, Reader.size, ahead] at hw ⊢; omega
    | nil =>
      simp only [skip, hd]
      cases r with
      | data bytes =>
        have := ih bytes
        simp only [Got.Leaves] at this ⊢
        split <;> simp_all [ahead, Reader.weights, Reader.weight] <;> omega
      | fault f => simp [Got.Leaves, Reader.size, ahead, Reader.weights, Reader.weight]; omega
      | nothing => simp [Got.Leaves, Reader.size, ahead, Reader.weights, Reader.weight]; omega
      | crash => simp [Got.Leaves]

theorem finishLine_size {line : List UInt8} {rest rest' : Reader} {i : Item}
    (h : rest.finishLine line = .item i rest') : rest'.size ≤ rest.size := by
  unfold Reader.finishLine at h
  simp only at h
  split at h
  · simp only [Next.item.injEq] at h; simp [h.2]
  · split at h
    · simp only [Next.item.injEq] at h; simp [h.2]
    · have := skip_leaves rest.closed rest.buffer rest.reads
      unfold Got.Leaves at this
      split at h <;> simp_all [ahead, Reader.size]

theorem size_lt_of_next {r rest : Reader} {i : Item} (h : r.next = .item i rest) :
    rest.size < r.size := by
  unfold Reader.next at h
  split at h
  · simp at h
  · rename_i hne hc
    have h1 := collect_ok hc
    have h2 := finishLine_size h
    have := List.length_pos_iff.mpr hne
    simp [ahead, Reader.size] at h1 h2 ⊢; omega
  · rename_i hc
    have := collect_fault hc
    simp only [Next.item.injEq] at h
    obtain ⟨_, rfl⟩ := h
    simpa [ahead, Reader.size] using this
  · simp at h
  · simp at h

/-- How the items of a stream come to an end. -/
inductive Ending where
  | ended
  /-- The reader would wait; the stream may deliver more. -/
  | waiting (rest : Reader)
  | crashed

/-- The items behind those in `acc`, which come last first, up to the reader's first end. -/
def Reader.itemsFrom (acc : List Item) (r : Reader) : List Item × Ending :=
  match h : r.next with
  | .item i rest =>
    have := size_lt_of_next h
    rest.itemsFrom (i :: acc)
  | .ended => (acc.reverse, .ended)
  | .waiting => (acc.reverse, .waiting r)
  | .crashed => (acc.reverse, .crashed)
termination_by r.size

/-- The items up to the reader's first end, and what that end is. -/
def Reader.items (r : Reader) : List Item × Ending := r.itemsFrom []

end Warden.Diagnostics
