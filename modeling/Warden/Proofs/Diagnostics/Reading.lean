import Mathlib.Data.List.TakeWhile
import Mathlib.Tactic.Common
import Warden.Diagnostics.Items
import Warden.Proofs.Diagnostics.Cut

/-!
What the reader makes of bytes.

The bytes that come before the next event of a stream may stand in the buffer or in reads, cut at
any place. Collecting and skipping see through the cuts (`collect_stop`, `collect_more`,
`skip_line`, `skip_tail`), so one attempt of the reader is described by the bytes alone: it takes
a whole line, or comes to the event behind the bytes. The items of a stream that delivers nothing
but bytes follow by induction on its lines.
-/

namespace Warden.Diagnostics

/-- `bs` are the bytes that come before the reads in `after`, wherever they stand. -/
def Reader.Holds (r : Reader) (bs : List UInt8) (after : List Read) (closed : Bool) : Prop :=
  ∃ buffer chunks, r = ⟨buffer, List.map .data chunks ++ after, closed⟩ ∧
    buffer ++ chunks.flatten = bs

lemma Reader.holds_mk (buffer : List UInt8) (chunks : List (List UInt8)) (after : List Read)
    (closed : Bool) : (Reader.mk buffer (chunks.map .data ++ after) closed).Holds
      (buffer ++ chunks.flatten) after closed :=
  ⟨buffer, chunks, rfl, rfl⟩

lemma Reader.Holds.nil (after : List Read) (closed : Bool) :
    (Reader.mk [] after closed).Holds [] after closed :=
  ⟨[], [], rfl, rfl⟩

lemma flatten_pieces (bytes : List UInt8) : (pieces bytes).flatten = bytes := by
  induction bytes using pieces.induct with
  | case1 bytes h => rw [pieces, if_pos h]; simpa using h
  | case2 bytes h ih => rw [pieces, if_neg h, List.flatten_cons, ih, List.take_append_drop]

lemma flatMap_fills (chunks : List (List UInt8)) :
    (chunks.map Read.data).flatMap Read.fills = (chunks.flatMap pieces).map .data := by
  induction chunks with
  | nil => rfl
  | cons c cs ih => simp only [List.map_cons, List.flatMap_cons, ih, List.map_append, Read.fills]

lemma flatten_flatMap_pieces (chunks : List (List UInt8)) :
    (chunks.flatMap pieces).flatten = chunks.flatten := by
  induction chunks with
  | nil => rfl
  | cons c cs ih => simp only [List.flatMap_cons, List.flatten_append, flatten_pieces, ih,
      List.flatten_cons]

/-- A stream that begins with chunks of data holds their bytes. -/
lemma Reader.ofReads_holds (chunks : List (List UInt8)) (after : List Read) (closed : Bool) :
    (Reader.ofReads (chunks.map .data ++ after) closed).Holds chunks.flatten
      (after.flatMap Read.fills) closed := by
  refine ⟨[], chunks.flatMap pieces, ?_, flatten_flatMap_pieces chunks⟩
  rw [Reader.ofReads, List.flatMap_append, flatMap_fills]

/-! ### Taking -/

lemma take_append (room : Nat) (line xs ys : List UInt8) :
    take room line (xs ++ ys) =
      match take room line xs with
      | .stop line rest => .stop line (rest ++ ys)
      | .more room line => take room line ys := by
  induction xs generalizing room line with
  | nil => cases room <;> simp [take]
  | cons b bs ih =>
    cases room with
    | zero => simp [take]
    | succ room =>
      rw [List.cons_append, take, take]
      split
      · rfl
      · exact ih room (b :: line)

/-- Bytes without a line feed are taken as they are. -/
lemma take_plain {l : List UInt8} (hl : lineFeed ∉ l) {room : Nat} (h : l.length ≤ room)
    (line bs : List UInt8) :
    take room line (l ++ bs) = take (room - l.length) (l.reverse ++ line) bs := by
  induction l generalizing room line with
  | nil => simp
  | cons b l ih =>
    rw [List.mem_cons, not_or] at hl
    cases room with
    | zero => simp at h
    | succ room =>
      rw [List.length_cons] at h
      rw [List.cons_append, take, if_neg (Ne.symm hl.1), ih hl.2 (by omega)]
      simp

lemma take_line {l : List UInt8} (hl : lineFeed ∉ l) {room : Nat} (h : l.length < room)
    (bs : List UInt8) :
    take room [] (l ++ lineFeed :: bs) = .stop (lineFeed :: l.reverse) bs := by
  obtain ⟨n, hn⟩ := Nat.exists_eq_add_of_lt h
  rw [take_plain hl (by omega), show room - l.length = n + 1 by omega, take, if_pos rfl]
  simp

lemma take_full {l : List UInt8} (hl : lineFeed ∉ l) (bs : List UInt8) :
    take l.length [] (l ++ bs) = .stop l.reverse bs := by
  rw [take_plain hl (Nat.le_refl _), Nat.sub_self]
  simp [take]

lemma take_tail {l : List UInt8} (hl : lineFeed ∉ l) {room : Nat} (h : l.length < room) :
    ∃ n, take room [] l = .more (n + 1) l.reverse := by
  obtain ⟨n, hn⟩ := Nat.exists_eq_add_of_lt h
  have ht := take_plain hl (Nat.le_of_lt h) [] []
  rw [show room - l.length = n + 1 by omega, List.append_nil, List.append_nil, take] at ht
  exact ⟨n, ht⟩

/-! ### Collecting -/

lemma collect_of_stop {room : Nat} {line buffer out rest : List UInt8}
    (h : take room line buffer = .stop out rest) (closed : Bool) (reads : List Read) :
    collect closed room line buffer reads = .ok out.reverse ⟨rest, reads, closed⟩ := by
  cases reads <;> simp [collect, h]

/-- What is taken from the bytes is collected from the reads, when it comes to a stop. -/
lemma collect_stop {room : Nat} {line buffer : List UInt8} {chunks : List (List UInt8)}
    {out rest : List UInt8} (after : List Read) (closed : Bool)
    (h : take room line (buffer ++ chunks.flatten) = .stop out rest) :
    ∃ r, collect closed room line buffer (chunks.map .data ++ after) = .ok out.reverse r ∧
      r.Holds rest after closed := by
  induction chunks generalizing room line buffer with
  | nil =>
    rw [List.flatten_nil, List.append_nil] at h
    exact ⟨⟨rest, after, closed⟩, collect_of_stop h closed after, ⟨rest, [], rfl, by simp⟩⟩
  | cons c cs ih =>
    rw [List.flatten_cons, take_append] at h
    rw [List.map_cons, List.cons_append, collect]
    cases ht : take room line buffer with
    | stop line' rest' =>
      simp only [ht, Taken.stop.injEq] at h
      obtain ⟨rfl, rfl⟩ := h
      exact ⟨_, rfl, ⟨rest', c :: cs, rfl, rfl⟩⟩
    | more room' line' =>
      simp only [ht] at h
      exact ih h

/-- Otherwise collecting goes on behind the bytes. -/
lemma collect_more {room : Nat} {line buffer : List UInt8} {chunks : List (List UInt8)}
    {n : Nat} {out : List UInt8} (after : List Read) (closed : Bool)
    (h : take room line (buffer ++ chunks.flatten) = .more (n + 1) out) :
    collect closed room line buffer (chunks.map .data ++ after) =
      collect closed (n + 1) out [] after := by
  induction chunks generalizing room line buffer with
  | nil =>
    rw [List.flatten_nil, List.append_nil] at h
    cases after <;> simp [collect, h, take]
  | cons c cs ih =>
    rw [List.flatten_cons, take_append] at h
    rw [List.map_cons, List.cons_append, collect]
    cases ht : take room line buffer with
    | stop line' rest' => simp [ht] at h
    | more room' line' =>
      simp only [ht] at h
      exact ih h

lemma collect_of_more {room n : Nat} {line buffer out : List UInt8}
    (h : take room line buffer = .more (n + 1) out) (closed : Bool) (reads : List Read) :
    collect closed room line buffer reads = collect closed (n + 1) out [] reads := by
  have h' : take room line (buffer ++ ([] : List (List UInt8)).flatten) = .more (n + 1) out := by
    rwa [List.flatten_nil, List.append_nil]
  exact collect_more reads closed h'

/-! ### Skipping -/

lemma dropWhile_line {l : List UInt8} (hl : lineFeed ∉ l) (bs : List UInt8) :
    (l ++ lineFeed :: bs).dropWhile (· != lineFeed) = lineFeed :: bs := by
  have hne : ∀ b ∈ l, (b != lineFeed) = true :=
    fun b hb => bne_iff_ne.mpr fun h => hl (h ▸ hb)
  rw [List.dropWhile_append_of_pos hne]
  simp

lemma dropWhile_tail {l : List UInt8} (hl : lineFeed ∉ l) :
    l.dropWhile (· != lineFeed) = [] :=
  List.dropWhile_eq_nil_iff.mpr fun _ hb => bne_iff_ne.mpr fun h => hl (h ▸ hb)

lemma skip_of_cons {buffer rest : List UInt8} {b : UInt8}
    (h : buffer.dropWhile (· != lineFeed) = b :: rest) (closed : Bool) (reads : List Read) :
    skip closed buffer reads = .ok () ⟨rest, reads, closed⟩ := by
  cases reads <;> simp [skip, h]

/-- Skipping a line comes to the byte behind it. -/
lemma skip_line {buffer : List UInt8} {chunks : List (List UInt8)} {b : UInt8}
    {bs : List UInt8} (after : List Read) (closed : Bool)
    (h : (buffer ++ chunks.flatten).dropWhile (· != lineFeed) = b :: bs) :
    ∃ r, skip closed buffer (chunks.map .data ++ after) = .ok () r ∧ r.Holds bs after closed := by
  induction chunks generalizing buffer with
  | nil =>
    rw [List.flatten_nil, List.append_nil] at h
    exact ⟨⟨bs, after, closed⟩, skip_of_cons h closed after, ⟨bs, [], rfl, by simp⟩⟩
  | cons c cs ih =>
    rw [List.flatten_cons, List.dropWhile_append] at h
    rw [List.map_cons, List.cons_append, skip]
    cases hd : buffer.dropWhile (· != lineFeed) with
    | nil =>
      rw [hd] at h
      exact ih h
    | cons b' rest =>
      rw [hd] at h
      obtain ⟨rfl, rfl⟩ := List.cons.inj h
      exact ⟨_, rfl, ⟨rest, c :: cs, rfl, rfl⟩⟩

/-- Skipping bytes without a line feed goes on behind them. -/
lemma skip_tail {buffer : List UInt8} {chunks : List (List UInt8)} (after : List Read)
    (closed : Bool) (h : lineFeed ∉ buffer ++ chunks.flatten) :
    skip closed buffer (chunks.map .data ++ after) = skip closed [] after := by
  induction chunks generalizing buffer with
  | nil =>
    rw [List.flatten_nil, List.append_nil] at h
    cases after <;> simp [skip, dropWhile_tail h]
  | cons c cs ih =>
    rw [List.flatten_cons, List.mem_append, not_or] at h
    rw [← ih h.2]
    simp [skip, dropWhile_tail h.1]

/-! ### One attempt of the reader -/

lemma next_of_collect {r rest : Reader} {line : List UInt8} (hne : line ≠ [])
    (h : collect r.closed (maxLine + 2) [] r.buffer r.reads = .ok line rest) :
    r.next = rest.finishLine line := by
  unfold Reader.next
  rw [h]
  cases line with
  | nil => exact absurd rfl hne
  | cons b bs => rfl

lemma finishLine_fits {line : List UInt8} (h : (bare line).length ≤ maxLine) (rest : Reader) :
    rest.finishLine line = .item (.ofPiece line) rest := by
  simp [Reader.finishLine, chomp_eq, Item.ofPiece, Item.ofBytes, h]

lemma finishLine_terminated {line : List UInt8} (h : isTerminated line = true) (rest : Reader) :
    rest.finishLine line = .item (.ofPiece line) rest := by
  by_cases hfit : (bare line).length ≤ maxLine
  · exact finishLine_fits hfit rest
  · simp [Reader.finishLine, chomp_eq, Item.ofPiece, Item.tooLong, h, hfit]

/-- A line that is too long and has no line feed is skipped to its end. -/
lemma finishLine_long {line : List UInt8} (h : isTerminated line = false)
    (hlong : ¬(bare line).length ≤ maxLine) (rest : Reader) :
    rest.finishLine line =
      match skip rest.closed rest.buffer rest.reads with
      | .ok () rest => .item .tooLong rest
      | .fault f rest => .item (.failure (.read f)) rest
      | .waiting => .waiting
      | .crashed => .crashed := by
  simp only [Reader.finishLine, chomp_eq, h, if_neg hlong]
  rfl

/-- A line that was cut off at the limit is skipped to its end. -/
lemma finishLine_cut {line : List UInt8} (hl : lineFeed ∉ line)
    (h : maxLine + 2 ≤ line.length) (rest : Reader) :
    rest.finishLine line =
      match skip rest.closed rest.buffer rest.reads with
      | .ok () rest => .item .tooLong rest
      | .fault f rest => .item (.failure (.read f)) rest
      | .waiting => .waiting
      | .crashed => .crashed := by
  have hb := length_withoutLast carriageReturn line
  rw [← bare_tail hl] at hb
  exact finishLine_long (isTerminated_tail hl) (by omega) rest

/-- A line that fills the limit without a line feed is collected up to the limit. -/
lemma collect_full {buffer : List UInt8} {chunks : List (List UInt8)} {l bs : List UInt8}
    (after : List Read) (closed : Bool) (hl : lineFeed ∉ l) (hlen : maxLine + 2 ≤ l.length)
    (h : buffer ++ chunks.flatten = l ++ bs) :
    ∃ r, collect closed (maxLine + 2) [] buffer (chunks.map .data ++ after) =
      .ok (l.take (maxLine + 2)) r ∧ r.Holds (l.drop (maxLine + 2) ++ bs) after closed := by
  have hfull := take_full (fun hm => hl (List.mem_of_mem_take hm) : lineFeed ∉ l.take (maxLine + 2))
    (l.drop (maxLine + 2) ++ bs)
  rw [List.length_take_of_le hlen, ← List.append_assoc, List.take_append_drop, ← h] at hfull
  simpa using collect_stop after closed hfull

/-- A line that fills the limit is cut off there, and the skipping of its end decides. -/
lemma Reader.Holds.next_cut {r : Reader} {l bs : List UInt8} {after : List Read} {closed : Bool}
    (h : r.Holds (l ++ bs) after closed) (hl : lineFeed ∉ l) (hlen : maxLine + 2 ≤ l.length) :
    ∃ r' : Reader, r'.Holds (l.drop (maxLine + 2) ++ bs) after closed ∧
      r.next = match skip r'.closed r'.buffer r'.reads with
        | .ok () rest => .item .tooLong rest
        | .fault f rest => .item (.failure (.read f)) rest
        | .waiting => .waiting
        | .crashed => .crashed := by
  obtain ⟨buffer, chunks, rfl, hb⟩ := h
  obtain ⟨r', hc, hr'⟩ := collect_full after closed hl hlen hb
  have htake : (l.take (maxLine + 2)).length = maxLine + 2 := List.length_take_of_le hlen
  refine ⟨r', hr', ?_⟩
  rw [next_of_collect (List.length_pos_iff.mp (by omega)) hc,
    finishLine_cut (fun hm => hl (List.mem_of_mem_take hm)) htake.ge]

/-- **A whole line is taken off the stream, and nothing else.** -/
theorem Reader.Holds.next_line {r : Reader} {l bs : List UInt8} {after : List Read}
    {closed : Bool} (h : r.Holds (l ++ lineFeed :: bs) after closed) (hl : lineFeed ∉ l) :
    ∃ r', r.next = .item (.ofPiece (l ++ [lineFeed])) r' ∧ r'.Holds bs after closed := by
  rcases Nat.lt_or_ge l.length (maxLine + 2) with hlen | hlen
  · -- the line is collected with its line feed
    obtain ⟨buffer, chunks, rfl, hb⟩ := h
    have ht := take_line hl hlen bs
    rw [← hb] at ht
    obtain ⟨r', hc, hr'⟩ := collect_stop after closed ht
    rw [List.reverse_cons, List.reverse_reverse] at hc
    refine ⟨r', ?_, hr'⟩
    rw [next_of_collect (by simp) hc, finishLine_terminated (isTerminated_line l)]
  · -- the line is cut off, and its end is skipped with the line feed
    obtain ⟨r', ⟨buffer, chunks, rfl, hb⟩, hn⟩ := h.next_cut hl hlen
    have hdrop : lineFeed ∉ l.drop (maxLine + 2) := fun hm => hl (List.mem_of_mem_drop hm)
    have hd := dropWhile_line hdrop bs
    rw [← hb] at hd
    obtain ⟨r'', hs, hr''⟩ := skip_line after closed hd
    refine ⟨r'', ?_, hr''⟩
    rw [hn, hs, ofPiece_long (by rwa [withoutLast_line])]

/-- A tail within the limit is collected, and collecting goes on with the reads behind it. -/
lemma Reader.Holds.collect_tail {r : Reader} {l : List UInt8} {after : List Read} {closed : Bool}
    (h : r.Holds l after closed) (hl : lineFeed ∉ l) (hlen : l.length < maxLine + 2) :
    ∃ n, collect r.closed (maxLine + 2) [] r.buffer r.reads =
      collect closed (n + 1) l.reverse [] after := by
  obtain ⟨buffer, chunks, rfl, hb⟩ := h
  obtain ⟨n, ht⟩ := take_tail hl hlen
  rw [← hb] at ht ⊢
  exact ⟨n, collect_more after closed ht⟩

/-- A tail beyond the limit is cut off, and skipping goes on with the reads behind it. -/
lemma Reader.Holds.next_tail_cut {r : Reader} {l : List UInt8} {after : List Read}
    {closed : Bool} (h : r.Holds l after closed) (hl : lineFeed ∉ l)
    (hlen : maxLine + 2 ≤ l.length) :
    r.next = match skip closed [] after with
      | .ok () rest => .item .tooLong rest
      | .fault f rest => .item (.failure (.read f)) rest
      | .waiting => .waiting
      | .crashed => .crashed := by
  rw [← List.append_nil l] at h
  obtain ⟨r', ⟨buffer, chunks, rfl, hb⟩, hn⟩ := h.next_cut hl hlen
  have hd : lineFeed ∉ buffer ++ chunks.flatten := by
    rw [hb, List.append_nil]
    exact fun hm => hl (List.mem_of_mem_drop hm)
  rw [hn, skip_tail after closed hd]

/-! ### The end of a closed stream -/

lemma finishLine_end {l : List UInt8} (hl : lineFeed ∉ l) :
    (Reader.mk [] [] true).finishLine l = .item (.ofPiece l) ⟨[], [], true⟩ := by
  by_cases hfit : (bare l).length ≤ maxLine
  · exact finishLine_fits hfit _
  · simp [Reader.finishLine, chomp_eq, isTerminated_tail hl, Item.ofPiece, Item.tooLong, skip, hfit]

/-- The bytes behind the last line feed are an item of their own, if there are any. -/
lemma Reader.Holds.next_end {r : Reader} {l : List UInt8} (h : r.Holds l [] true)
    (hl : lineFeed ∉ l) :
    r.next = if l = [] then .ended else .item (.ofPiece l) ⟨[], [], true⟩ := by
  rcases Nat.lt_or_ge l.length (maxLine + 2) with hlen | hlen
  · obtain ⟨n, hc⟩ := h.collect_tail hl hlen
    have hend : collect true (n + 1) l.reverse [] [] = .ok l ⟨[], [], true⟩ := by
      simp [collect, take]
    rw [hend] at hc
    split
    · rename_i hnil
      rw [hnil] at hc
      rw [Reader.next, hc]
    · rename_i hne
      rw [next_of_collect hne hc, finishLine_end hl]
  · have hne : l ≠ [] := List.length_pos_iff.mp (by omega)
    rw [h.next_tail_cut hl hlen, if_neg hne, ofPiece_long (by rwa [withoutLast_tail hl])]
    simp [skip]

/-! ### Items -/

lemma Reader.itemsFrom_next (acc : List Item) (r : Reader) :
    r.itemsFrom acc = match r.next with
      | .item i rest => rest.itemsFrom (i :: acc)
      | .ended => (acc.reverse, .ended)
      | .waiting => (acc.reverse, .waiting r)
      | .crashed => (acc.reverse, .crashed) := by
  rw [Reader.itemsFrom]
  split <;> simp only [*]

/-- The items in the accumulator come first, and decide nothing. -/
lemma Reader.itemsFrom_eq (acc : List Item) (r : Reader) :
    r.itemsFrom acc = (acc.reverse ++ r.items.1, r.items.2) := by
  induction h : r.size using Nat.strongRecOn generalizing r acc with
  | ind n ih =>
    rw [Reader.items, Reader.itemsFrom_next acc, Reader.itemsFrom_next []]
    cases hn : r.next with
    | item i rest =>
      have hlt := size_lt_of_next hn
      have hacc := ih rest.size (by omega) (i :: acc) rest rfl
      have hnil := ih rest.size (by omega) [i] rest rfl
      simp [hacc, hnil]
    | ended => simp
    | waiting => simp
    | crashed => simp

/-- An attempt that yields an item yields the first one. -/
lemma Reader.items_of_item {r rest : Reader} {i : Item} (h : r.next = .item i rest) :
    r.items = (i :: rest.items.1, rest.items.2) := by
  rw [Reader.items, Reader.itemsFrom_next, h]
  exact rest.itemsFrom_eq [i]

lemma Reader.items_of_ended {r : Reader} (h : r.next = .ended) : r.items = ([], .ended) := by
  rw [Reader.items, Reader.itemsFrom_next, h]
  rfl

lemma Reader.items_of_waiting {r : Reader} (h : r.next = .waiting) :
    r.items = ([], .waiting r) := by
  rw [Reader.items, Reader.itemsFrom_next, h]
  rfl

lemma Reader.items_of_crashed {r : Reader} (h : r.next = .crashed) :
    r.items = ([], .crashed) := by
  rw [Reader.items, Reader.itemsFrom_next, h]
  rfl

/-- The items of a closed stream of bytes are those of its pieces. -/
theorem Reader.Holds.items_eq {r : Reader} {bs : List UInt8} (h : r.Holds bs [] true) :
    r.items = ((cut bs).map .ofPiece, .ended) := by
  induction bs using lineInduction generalizing r with
  | tail l hl =>
    have hn := h.next_end hl
    have hnil := (Reader.Holds.nil [] true).next_end List.not_mem_nil
    rw [cut_tail hl]
    split at hn
    · rename_i he
      rw [Reader.items_of_ended hn, if_pos he, List.map_nil]
    · rename_i hne
      rw [Reader.items_of_item hn, Reader.items_of_ended hnil, if_neg hne]
      rfl
  | line l bs hl ih =>
    obtain ⟨r', hn, hr'⟩ := h.next_line hl
    rw [Reader.items_of_item hn, cut_line hl, List.map_cons, ih hr']

/-- **The items of a closed stream depend on its bytes alone.** They are those of the pieces of
the bytes, whatever the chunks in which the bytes arrive, and whatever part of them stands in the
buffer. The pieces are the bytes in their order, and a line feed stands only at the end of one. -/
theorem items_chunks (chunks : List (List UInt8)) :
    (Reader.ofReads (chunks.map .data) true).items =
        ((cut chunks.flatten).map .ofPiece, .ended) ∧
      (∀ (buffer : List UInt8) (fills : List (List UInt8)),
        buffer ++ fills.flatten = chunks.flatten →
        (Reader.mk buffer (fills.map .data) true).items =
          ((cut chunks.flatten).map .ofPiece, .ended)) ∧
      (cut chunks.flatten).flatten = chunks.flatten ∧
      ∀ p ∈ cut chunks.flatten, p ≠ [] ∧ lineFeed ∉ p.dropLast := by
  refine ⟨?_, fun buffer fills h => ?_, flatten_cut _, fun p hp => mem_cut hp⟩
  · have h := Reader.ofReads_holds chunks [] true
    rw [List.append_nil] at h
    exact h.items_eq
  · have h' := Reader.holds_mk buffer fills [] true
    rw [List.append_nil, h] at h'
    exact h'.items_eq

end Warden.Diagnostics
