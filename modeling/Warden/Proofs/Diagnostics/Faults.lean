import Warden.Diagnostics.Relay
import Warden.Proofs.Diagnostics.Reading

/-!
A read that fails.

The fault ends the line that is being read, whether it is still collected or already skipped: its
bytes are dropped, the fault is the next item, and the reader goes on as a fresh one over the
reads behind it. The relay ends with that item.
-/

namespace Warden.Diagnostics

open Warden.Log

/-- Where a line is skipped, any fault ends it. -/
lemma Reader.Holds.next_fault_skipped {r : Reader} {l : List UInt8} {f : Fault}
    {after : List Read} {closed : Bool} (h : r.Holds l (.fault f :: after) closed)
    (hl : lineFeed ∉ l) (hlen : maxLine + 2 ≤ l.length) :
    r.next = .item (.failure (.read f)) ⟨[], after, closed⟩ := by
  rw [h.next_tail_cut hl hlen]
  simp [skip]

/-- Bytes without a line feed are lost in a fault behind them. -/
lemma Reader.Holds.next_fault {r : Reader} {l : List UInt8} {f : Fault} {after : List Read}
    {closed : Bool} (h : r.Holds l (.fault f :: after) closed) (hl : lineFeed ∉ l)
    (hf : f.isInterrupted = false) :
    r.next = .item (.failure (.read f)) ⟨[], after, closed⟩ := by
  rcases Nat.lt_or_ge l.length (maxLine + 2) with hlen | hlen
  · obtain ⟨n, hc⟩ := h.collect_tail hl hlen
    have hfault : collect closed (n + 1) l.reverse [] (.fault f :: after) =
        .fault f ⟨[], after, closed⟩ := by
      simp [collect, take, hf]
    rw [hfault] at hc
    rw [Reader.next, hc]
  · exact h.next_fault_skipped hl hlen

/-- The items are those of the whole lines, the fault, and those of a fresh reader behind it. -/
theorem Reader.Holds.items_fault {r : Reader} {bs : List UInt8} {f : Fault} {after : List Read}
    {closed : Bool} (h : r.Holds bs (.fault f :: after) closed) (hf : f.isInterrupted = false) :
    r.items = ((wholeLines bs).map .ofPiece ++
        .failure (.read f) :: (Reader.mk [] after closed).items.1,
      (Reader.mk [] after closed).items.2) := by
  induction bs using lineInduction generalizing r with
  | tail l hl =>
    rw [Reader.items_of_item (h.next_fault hl hf), wholeLines_tail hl]
    rfl
  | line l bs hl ih =>
    obtain ⟨r', hn, hr'⟩ := h.next_line hl
    rw [Reader.items_of_item hn, wholeLines_line hl, ih hr']
    rfl

/-! ### The relay -/

lemma isFinal_ofPiece (p : List UInt8) : (Item.ofPiece p).isFinal = false := by
  unfold Item.ofPiece
  split <;> rfl

lemma upToFinal_final {is : List Item} {i : Item} (his : ∀ j ∈ is, j.isFinal = false)
    (hi : i.isFinal = true) (js : List Item) : upToFinal (is ++ i :: js) = is ++ [i] := by
  have hkeep : ∀ j ∈ is, (!j.isFinal) = true := fun j hj => by rw [his j hj]; rfl
  rw [upToFinal, List.takeWhile_append_of_pos hkeep, List.dropWhile_append_of_pos hkeep]
  simp [hi]

lemma upToFinal_nonfinal {is : List Item} (h : is.any Item.isFinal = false) :
    upToFinal is = is := by
  have hkeep : ∀ j ∈ is, (!j.isFinal) = true := by simpa using h
  rw [upToFinal, List.takeWhile_eq_self_iff.mpr hkeep, List.dropWhile_eq_nil_iff.mpr hkeep]
  exact List.append_nil is

/-- What the relay takes is decided by the items alone. -/
lemma settle_items (r : Reader) : (Forwarder.reading r).settle.1 = upToFinal r.items.1 := by
  rcases h : r.items.1.any Item.isFinal with _ | _
  · rw [upToFinal_nonfinal h]
    simp [Forwarder.settle, h]
  · simp [Forwarder.settle, h]

/-- The sink sees the items as appends, one after another. -/
lemma relayItems_sink {σ : Type} (k : Sink σ) (s : σ) (records : Array Record)
    (is : List Item) :
    (relayItems k (s, records) is).1 = (k.appendAll s (is.map Item.entry)).1 := by
  induction is generalizing s records with
  | nil => rfl
  | cons i is ih =>
    rw [relayItems_cons, List.map_cons, Sink.appendAll]
    exact ih _ _

/-- The relay takes the items up to the first final one, and ends. -/
lemma relay_final {r : Reader} {is js : List Item} {i : Item}
    (h : r.items.1 = is ++ i :: js) (his : ∀ j ∈ is, j.isFinal = false)
    (hi : i.isFinal = true) {σ : Type} (k : Sink σ) (s : σ) :
    relay k s r = ⟨(is ++ [i]).countP Item.isLine, (relayItems k (s, #[]) (is ++ [i])).1,
      (relayItems k (s, #[]) (is ++ [i])).2, .ended⟩ := by
  have hany : (is ++ i :: js).any Item.isFinal = true := by simp [hi]
  have hsettle : (Forwarder.reading r).settle = (is ++ [i], .ended) := by
    simp only [Forwarder.settle, h, hany, if_true, upToFinal_final his hi]
  simp only [relay, hsettle]

/-- **A read that fails ends the relay, and loses the line it strikes.** -/
theorem items_around_fault (chunks : List (List UInt8)) (f : Fault) (after : List Read) (closed : Bool)
    (hf : f.isInterrupted = false) :
    let r := Reader.ofReads (chunks.map .data ++ .fault f :: after) closed
    let fresh := Reader.ofReads after closed
    let lines := (wholeLines chunks.flatten).map Item.ofPiece
    r.items = (lines ++ .failure (.read f) :: fresh.items.1, fresh.items.2) ∧
      ∀ {σ : Type} (k : Sink σ) (s : σ),
        (relay k s r).sink = (k.appendAll s
          (lines.map Item.entry ++ [⟨.forwarder, .error, (StreamError.read f).message⟩])).1 ∧
        (relay k s r).lines = lines.countP Item.isLine ∧
        (relay k s r).task = .ended ∧
        ∀ after' closed',
          relay k s (Reader.ofReads (chunks.map .data ++ .fault f :: after') closed') =
            relay k s r := by
  intro r fresh lines
  have holds (after' : List Read) (closed' : Bool) :
      (Reader.ofReads (chunks.map .data ++ .fault f :: after') closed').items =
        (lines ++ .failure (.read f) :: (Reader.ofReads after' closed').items.1,
          (Reader.ofReads after' closed').items.2) :=
    (Reader.ofReads_holds chunks (.fault f :: after') closed').items_fault hf
  have hlines : ∀ i ∈ lines, i.isFinal = false := by
    intro i hi
    obtain ⟨p, -, rfl⟩ := List.mem_map.mp hi
    exact isFinal_ofPiece p
  refine ⟨holds after closed, fun k s => ?_⟩
  have hrelay (after' : List Read) (closed' : Bool) :=
    relay_final (congrArg Prod.fst (holds after' closed')) hlines rfl k s
  refine ⟨?_, ?_, ?_, fun after' closed' => ?_⟩
  · rw [hrelay after closed]
    simp [relayItems_sink, Item.entry]
  · rw [hrelay after closed]
    simp [List.countP_append, Item.isLine]
  · rw [hrelay after closed]
  · rw [hrelay after' closed', hrelay after closed]

/-- A whole line, half a line that is lost, and a line behind the fault. -/
theorem items_around_broken_pipe :
    let f : Fault := .kind .brokenPipe none
    let r := Reader.ofReads ([[97, 10], [98]].map .data ++ .fault f :: [.data [99, 10]]) true
    f.isInterrupted = false ∧
      r.items = ([.ofPiece [97, 10], .failure (.read f), .ofPiece [99, 10]], .ended) ∧
      (relay Memory.sink (.empty none) r).lines = 1 ∧
      (relay Memory.sink (.empty none) r).task = .ended := by
  intro f r
  have hf : f.isInterrupted = false := rfl
  have hwhole : wholeLines ([[97, 10], [98]] : List (List UInt8)).flatten = [[97, 10]] := by
    decide
  have hcut : cut ([[99, 10]] : List (List UInt8)).flatten = [[99, 10]] := by decide
  have hfresh : (Reader.ofReads [.data [99, 10]] true).items =
      ([[99, 10]].map .ofPiece, .ended) := by
    have h := (Reader.ofReads_holds [[99, 10]] [] true).items_eq
    rwa [hcut] at h
  obtain ⟨hitems, hrelay⟩ :=
    items_around_fault [[97, 10], [98]] f [.data [99, 10]] true hf
  obtain ⟨-, hlines, htask, -⟩ := hrelay Memory.sink (.empty none)
  refine ⟨hf, ?_, ?_, htask⟩
  · rw [hwhole, hfresh] at hitems
    exact hitems
  · rw [hwhole] at hlines
    exact hlines.trans (by decide)

end Warden.Diagnostics
