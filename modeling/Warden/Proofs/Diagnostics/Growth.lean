import Mathlib.Tactic.Common
import Warden.Diagnostics.Relay
import Warden.Proofs.Diagnostics.Faults

/-!
A stream that goes on.

What an attempt makes of the reads that have come it makes of them whatever comes behind, unless
it would wait. So the items that a forwarder relays while its stream arrives bit by bit are, in
order, those of the whole stream (`Forwarder.turn_owed`).
-/

namespace Warden.Diagnostics

/-- The stream with `more` behind its reads, closed behind these. -/
def Reader.extend (r : Reader) (more : List Read) : Reader := ⟨r.buffer, r.reads ++ more, true⟩

section
variable (more : List Read) (closed : Bool)

/-- What an attempt makes of a stream it makes of the stream with `more` behind it, too. -/
inductive Got.Grows {α : Type} : Got α → Got α → Prop where
  | ok {a : α} {r : Reader} (h : r.closed = closed) : Grows (.ok a r) (.ok a (r.extend more))
  | fault {f : Fault} {r : Reader} (h : r.closed = closed) :
    Grows (.fault f r) (.fault f (r.extend more))
  | waiting {g : Got α} : Grows .waiting g
  | crashed : Grows .crashed .crashed

inductive Next.Grows : Next → Next → Prop where
  | item {i : Item} {r : Reader} (h : r.closed = closed) :
    Grows (.item i r) (.item i (r.extend more))
  | ended : Grows .ended .ended
  | waiting {n : Next} : Grows .waiting n
  | crashed : Grows .crashed .crashed

variable {more closed}
-- behind the end of a closed stream nothing comes
variable (hend : closed = true → more = [])
include hend

lemma collect_grows (room : Nat) (line buffer : List UInt8) (reads : List Read) :
    (collect closed room line buffer reads).Grows more closed
      (collect true room line buffer (reads ++ more)) := by
  induction reads generalizing room line buffer with
  | nil =>
    rcases ht : take room line buffer with ⟨out, rest⟩ | ⟨n, out⟩
    · rw [collect_of_stop ht, collect_of_stop ht]
      exact .ok rfl
    · cases closed with
      | false =>
        simp only [collect, ht]
        exact .waiting
      | true =>
        rw [hend rfl]
        simp only [collect, ht, List.append_nil]
        exact .ok (r := ⟨[], [], true⟩) rfl
  | cons r rs ih =>
    rcases ht : take room line buffer with ⟨out, rest⟩ | ⟨n, out⟩
    · rw [collect_of_stop ht, collect_of_stop ht]
      exact .ok rfl
    · simp only [List.cons_append, collect, ht]
      cases r with
      | data bs => exact ih n out bs
      | fault f =>
        by_cases hf : f.isInterrupted = true
        · simp only [hf, if_true]
          exact ih n out []
        · simp only [hf]
          exact .fault rfl
      | nothing => exact .ok rfl
      | crash => exact .crashed

lemma skip_grows (buffer : List UInt8) (reads : List Read) :
    (skip closed buffer reads).Grows more closed (skip true buffer (reads ++ more)) := by
  induction reads generalizing buffer with
  | nil =>
    rcases hd : buffer.dropWhile (· != lineFeed) with _ | ⟨b, rest⟩
    · cases closed with
      | false =>
        simp only [skip, hd]
        exact .waiting
      | true =>
        rw [hend rfl]
        simp only [skip, hd, List.append_nil]
        exact .ok (r := ⟨[], [], true⟩) rfl
    · rw [skip_of_cons hd, skip_of_cons hd]
      exact .ok rfl
  | cons r rs ih =>
    rcases hd : buffer.dropWhile (· != lineFeed) with _ | ⟨b, rest⟩
    · simp only [List.cons_append, skip, hd]
      cases r with
      | data bs => exact ih bs
      | fault f => exact .fault rfl
      | nothing => exact .ok rfl
      | crash => exact .crashed
    · rw [skip_of_cons hd, skip_of_cons hd]
      exact .ok rfl

lemma finishLine_grows {r : Reader} (hr : r.closed = closed) (line : List UInt8) :
    (r.finishLine line).Grows more closed ((r.extend more).finishLine line) := by
  unfold Reader.finishLine
  simp only
  split
  · exact .item hr
  · split
    · exact .item hr
    · have hskip := skip_grows hend r.buffer r.reads
      simp only [Reader.extend, hr]
      generalize skip closed r.buffer r.reads = g at hskip ⊢
      generalize skip true r.buffer (r.reads ++ more) = g' at hskip ⊢
      cases hskip with
      | ok h => exact .item h
      | fault h => exact .item h
      | waiting => exact .waiting
      | crashed => exact .crashed

/-- **An attempt that does not wait is decided by what has come.** -/
theorem Reader.next_grows {r : Reader} (hr : r.closed = closed) :
    r.next.Grows more closed (r.extend more).next := by
  have hcollect := collect_grows hend (maxLine + 2) [] r.buffer r.reads
  unfold Reader.next
  simp only [Reader.extend, hr]
  generalize collect closed (maxLine + 2) [] r.buffer r.reads = g at hcollect ⊢
  generalize collect true (maxLine + 2) [] r.buffer (r.reads ++ more) = g' at hcollect ⊢
  cases hcollect with
  | @ok line rest h =>
    rcases line with _ | ⟨b, line⟩
    · exact .ended
    · exact finishLine_grows hend h (b :: line)
  | fault h => exact .item h
  | waiting => exact .waiting
  | crashed => exact .crashed

end

/-! ### Turns of the forwarder -/

lemma upToFinal_cons (i : Item) (is : List Item) :
    upToFinal (i :: is) = i :: if i.isFinal then [] else upToFinal is := by
  rcases hi : i.isFinal with _ | _ <;> simp [upToFinal, hi]

namespace Forwarder

/-- The items that are still to be relayed if `ds` is delivered before the stream is closed. -/
def owed (f : Forwarder) (ds : List Read) : List Item := ((f.feed ds).close).settle.1

lemma owed_reading (r : Reader) (ds : List Read) :
    (reading r).owed ds = upToFinal (r.extend (ds.flatMap Read.fills)).items.1 :=
  settle_items _

lemma owed_of_not_reading {f : Forwarder} (h : f.isReading = false) (ds : List Read) :
    f.owed ds = [] := by
  cases f with
  | reading r => cases h
  | ended | crashed => rfl

/-- What is delivered first is owed first. -/
lemma owed_feed (f : Forwarder) (d : Read) (ds : List Read) :
    (f.feed [d]).owed ds = f.owed (d :: ds) := by
  cases f with
  | reading r =>
    have hmore : ((r.feed [d]).extend (ds.flatMap Read.fills)) =
        r.extend ((d :: ds).flatMap Read.fills) := by
      simp [Reader.feed, Reader.extend]
    exact (owed_reading _ _).trans ((congrArg (upToFinal ·.items.1) hmore).trans
      (owed_reading _ _).symm)
  | ended | crashed => rfl

lemma owed_close (f : Forwarder) (ds : List Read) : f.close.owed ds = f.owed ds := by
  cases f <;> rfl

/-- **A turn relays the next of the items that are owed.** -/
theorem turn_owed {f : Forwarder} {ds : List Read}
    (hend : ∀ r, f = .reading r → r.closed = true → ds = []) :
    f.owed ds = f.turn.1.toList ++ f.turn.2.owed ds ∧
      ∀ r', f.turn.2 = .reading r' → ∃ r, f = .reading r ∧ r'.closed = r.closed := by
  cases f with
  | reading r =>
    have hmore : r.closed = true → ds.flatMap Read.fills = [] := fun hc => by
      rw [hend r rfl hc, List.flatMap_nil]
    have hgrows := Reader.next_grows hmore (rfl : r.closed = r.closed)
    rw [owed_reading]
    generalize hn' : (r.extend (ds.flatMap Read.fills)).next = n' at hgrows
    rcases hn : r.next with ⟨i, rest⟩ | _ | _ | _ <;> rw [hn] at hgrows
    · cases hgrows with
      | item hrest =>
        have hturn : (reading r).turn = (some i, if i.isFinal then ended else reading rest) := by
          simp only [turn, hn]
        rw [hturn, Reader.items_of_item hn', upToFinal_cons]
        rcases hi : i.isFinal with _ | _
        · refine ⟨congrArg (i :: ·) (owed_reading rest ds).symm, fun r' hr' => ⟨r, rfl, ?_⟩⟩
          obtain rfl : rest = r' := by injection hr'
          exact hrest
        · exact ⟨rfl, fun r' hr' => by cases hr'⟩
    · cases hgrows
      have hturn : (reading r).turn = (none, ended) := by simp only [turn, hn]
      rw [hturn, Reader.items_of_ended hn']
      exact ⟨rfl, fun r' hr' => by cases hr'⟩
    · have hturn : (reading r).turn = (none, reading r) := by simp only [turn, hn]
      rw [hturn, ← owed_reading]
      exact ⟨rfl, fun r' hr' => ⟨r, rfl, by injection hr' with h; rw [h]⟩⟩
    · cases hgrows
      have hturn : (reading r).turn = (none, crashed) := by simp only [turn, hn]
      rw [hturn, Reader.items_of_crashed hn']
      exact ⟨rfl, fun r' hr' => by cases hr'⟩
  | ended | crashed => exact ⟨rfl, fun r' h => by cases h⟩

end Forwarder

end Warden.Diagnostics
