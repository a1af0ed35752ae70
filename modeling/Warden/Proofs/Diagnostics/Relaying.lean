import Warden.Proofs.Diagnostics.Growth
import Warden.Proofs.Log.Attempts

/-!
The relay, item by item.

`Relays` is the loop of a relay: it takes the next item of the reader, tries to append its entry,
and goes on unless the item is a read that failed. Whatever the sink answers, the loop makes the
same attempts and counts the same lines; on a closed stream it comes to its end, and does what the
relay does (`Reader.Whole.relays_iff`).
-/

namespace Warden.Diagnostics

open Log

/-! ### Streams that end -/

/-- The stream is closed, and none of its reads kills the reading thread. -/
structure Reader.Whole (r : Reader) : Prop where
  closed : r.closed = true
  alive : .crash ∉ r.reads

/-- The attempt has come to a result, and left a stream that ends. -/
def Got.Settles {α : Type} : Got α → Prop
  | .ok _ rest | .fault _ rest => rest.Whole
  | .waiting | .crashed => False

lemma collect_settles {reads : List Read} (h : .crash ∉ reads) (room : Nat)
    (line buffer : List UInt8) : (collect true room line buffer reads).Settles := by
  induction reads generalizing room line buffer with
  | nil =>
    rcases ht : take room line buffer with ⟨out, rest⟩ | ⟨n, out⟩
    · rw [collect_of_stop ht]
      exact ⟨rfl, h⟩
    · simp only [collect, ht]
      exact ⟨rfl, h⟩
  | cons r rs ih =>
    rcases ht : take room line buffer with ⟨out, rest⟩ | ⟨n, out⟩
    · rw [collect_of_stop ht]
      exact ⟨rfl, h⟩
    · rw [List.mem_cons, not_or] at h
      obtain ⟨hr, hrs⟩ := h
      simp only [collect, ht]
      cases r with
      | data bs => exact ih hrs n out bs
      | fault f =>
        simp only
        split
        · exact ih hrs n out []
        · exact ⟨rfl, hrs⟩
      | nothing => exact ⟨rfl, hrs⟩
      | crash => exact absurd rfl hr

lemma skip_settles {reads : List Read} (h : .crash ∉ reads) (buffer : List UInt8) :
    (skip true buffer reads).Settles := by
  induction reads generalizing buffer with
  | nil =>
    rcases hd : buffer.dropWhile (· != lineFeed) with _ | ⟨b, rest⟩
    · simp only [skip, hd]
      exact ⟨rfl, h⟩
    · rw [skip_of_cons hd]
      exact ⟨rfl, h⟩
  | cons r rs ih =>
    rcases hd : buffer.dropWhile (· != lineFeed) with _ | ⟨b, rest⟩
    · rw [List.mem_cons, not_or] at h
      obtain ⟨hr, hrs⟩ := h
      simp only [skip, hd]
      cases r with
      | data bs => exact ih hrs bs
      | fault f => exact ⟨rfl, hrs⟩
      | nothing => exact ⟨rfl, hrs⟩
      | crash => exact absurd rfl hr
    · rw [skip_of_cons hd]
      exact ⟨rfl, h⟩

/-- The reader of a stream that ends neither waits nor crashes. -/
def Next.Settles : Next → Prop
  | .item _ rest => rest.Whole
  | .ended => True
  | .waiting | .crashed => False

lemma Reader.Whole.finishLine {r : Reader} (h : r.Whole) (line : List UInt8) :
    (r.finishLine line).Settles := by
  unfold Reader.finishLine
  simp only
  split
  · exact h
  · split
    · exact h
    · have hskip := skip_settles h.alive r.buffer
      rw [h.closed]
      generalize skip true r.buffer r.reads = g at hskip ⊢
      cases g with
      | ok | fault => exact hskip
      | waiting | crashed => exact hskip.elim

lemma Reader.Whole.next {r : Reader} (h : r.Whole) : r.next.Settles := by
  have hcollect := collect_settles h.alive (maxLine + 2) [] r.buffer
  unfold Reader.next
  rw [h.closed]
  generalize collect true (maxLine + 2) [] r.buffer r.reads = g at hcollect ⊢
  cases g with
  | ok line rest =>
    rcases line with _ | ⟨b, line⟩
    · trivial
    · exact Reader.Whole.finishLine hcollect (b :: line)
  | fault f rest => exact hcollect
  | waiting | crashed => exact hcollect.elim

/-- A stream that ends is at its end, or yields an item in front of another one that ends. -/
theorem Reader.Whole.induction {motive : (r : Reader) → r.Whole → Prop}
    (ended : ∀ r h, r.next = .ended → motive r h)
    (item : ∀ r h i rest hrest, r.next = .item i rest → motive rest hrest → motive r h)
    {r : Reader} (h : r.Whole) : motive r h := by
  induction hn : r.size using Nat.strongRecOn generalizing r with
  | ind n ih =>
    have hnext := h.next
    rcases hr : r.next with ⟨i, rest⟩ | _ | _ | _ <;> rw [hr] at hnext
    · have hlt := size_lt_of_next hr
      exact item r h i rest hnext hr (ih rest.size (by omega) hnext rfl)
    · exact ended r h hr
    · exact hnext.elim
    · exact hnext.elim

lemma Reader.Whole.items_ended {r : Reader} (h : r.Whole) : r.items.2 = .ended := by
  induction h using Reader.Whole.induction with
  | ended r _ hr => rw [Reader.items_of_ended hr]
  | item r _ i rest _ hr ih => rw [Reader.items_of_item hr, ih]

lemma Reader.ofReads_whole {reads : List Read} (h : .crash ∉ reads) :
    (Reader.ofReads reads true).Whole := by
  refine ⟨rfl, fun hcrash => ?_⟩
  obtain ⟨r, hr, hfill⟩ := List.mem_flatMap.mp hcrash
  cases r with
  | data bs =>
    obtain ⟨c, -, hc⟩ := List.mem_map.mp hfill
    cases hc
  | fault | nothing => cases List.mem_singleton.mp hfill
  | crash => exact h hr

/-! ### The loop -/

section
variable {σ : Type} (k : Sink σ)

/-- The loop of a relay that reads `r` and starts with a sink in state `s`: it tries the entries
`es`, sees `n` lines and leaves the sink in state `t`. -/
inductive Relays : Reader → σ → List Entry → Nat → σ → Prop where
  | ended {r : Reader} {s : σ} (h : r.next = .ended) : Relays r s [] 0 s
  | line {r rest : Reader} {l : Line} {s t : σ} {e : Entry} {es : List Entry} {n : Nat}
    (h : r.next = .item (.line l) rest) (he : e = ⟨.relayed, l.level, l.raw⟩)
    (hrest : Relays rest (k.append s e).1 es n t) : Relays r s (e :: es) (n + 1) t
  | tooLong {r rest : Reader} {m : Nat} {s t : σ} {e : Entry} {es : List Entry} {n : Nat}
    (h : r.next = .item (.failure (.lineTooLong m)) rest)
    (he : e = ⟨.forwarder, .error, (StreamError.lineTooLong m).message⟩)
    (hrest : Relays rest (k.append s e).1 es n t) : Relays r s (e :: es) n t
  | broken {r rest : Reader} {f : Fault} {s : σ} {e : Entry}
    (h : r.next = .item (.failure (.read f)) rest)
    (he : e = ⟨.forwarder, .error, (StreamError.read f).message⟩) :
    Relays r s [e] 0 (k.append s e).1

variable {k}

/-- The loop leaves nothing open. -/
lemma Relays.unique {r : Reader} {s t t' : σ} {es es' : List Entry} {n n' : Nat}
    (h : Relays k r s es n t) (h' : Relays k r s es' n' t') : es = es' ∧ n = n' ∧ t = t' := by
  induction h generalizing es' n' t' with
  | ended hr => cases h' <;> simp_all
  | line hr he hrest ih =>
    cases h' with
    | line hr' he' hrest' =>
      obtain ⟨rfl, rfl⟩ : _ = _ ∧ _ = _ := by simpa using hr.symm.trans hr'
      subst he he'
      obtain ⟨rfl, rfl, rfl⟩ := ih hrest'
      exact ⟨rfl, rfl, rfl⟩
    | _ => simp_all
  | tooLong hr he hrest ih =>
    cases h' with
    | tooLong hr' he' hrest' =>
      obtain ⟨rfl, rfl⟩ : _ = _ ∧ _ = _ := by simpa using hr.symm.trans hr'
      subst he he'
      obtain ⟨rfl, rfl, rfl⟩ := ih hrest'
      exact ⟨rfl, rfl, rfl⟩
    | _ => simp_all
  | broken hr he =>
    cases h' with
    | broken hr' he' =>
      obtain ⟨rfl, -⟩ : _ = _ ∧ _ = _ := by simpa using hr.symm.trans hr'
      subst he he'
      exact ⟨rfl, rfl, rfl⟩
    | _ => simp_all

/-- On a stream that ends the loop comes to its end, behind the first read that fails. -/
lemma Reader.Whole.relays {r : Reader} (h : r.Whole) (s : σ) :
    Relays k r s ((upToFinal r.items.1).map Item.entry) ((upToFinal r.items.1).countP Item.isLine)
      (k.appendAll s ((upToFinal r.items.1).map Item.entry)).1 := by
  induction h using Reader.Whole.induction generalizing s with
  | ended r _ hr =>
    rw [Reader.items_of_ended hr]
    exact .ended hr
  | item r _ i rest _ hr ih =>
    rw [Reader.items_of_item hr, upToFinal_cons]
    rcases i with l | m | f
    · rw [List.map_cons, List.countP_cons_of_pos rfl]
      exact .line hr rfl (ih _)
    · rw [List.map_cons, List.countP_cons_of_neg (by simp [Item.isLine])]
      exact .tooLong hr rfl (ih _)
    · exact .broken hr rfl

/-- The relay appends the items up to the first final one. -/
lemma relay_sink (r : Reader) (s : σ) :
    (relay k s r).sink = (k.appendAll s ((upToFinal r.items.1).map Item.entry)).1 := by
  rw [← settle_items, ← relayItems_sink k s #[]]
  rfl

lemma relay_lines (r : Reader) (s : σ) :
    (relay k s r).lines = (upToFinal r.items.1).countP Item.isLine := by
  rw [← settle_items]
  rfl

/-- The relay does what its loop does. -/
lemma Reader.Whole.relays_iff {r : Reader} (h : r.Whole) {s t : σ} {es : List Entry} {n : Nat} :
    Relays k r s es n t ↔ es = (upToFinal r.items.1).map Item.entry ∧ n = (relay k s r).lines ∧
      t = (relay k s r).sink := by
  have hrelay : Relays k r s ((upToFinal r.items.1).map Item.entry) (relay k s r).lines
      (relay k s r).sink := by
    rw [relay_lines, relay_sink]
    exact h.relays s
  refine ⟨fun hes => hes.unique hrelay, ?_⟩
  rintro ⟨rfl, rfl, rfl⟩
  exact hrelay

lemma Reader.Whole.relay_ended {r : Reader} (h : r.Whole) (s : σ) :
    (relay k s r).task = .ended := by
  have htask : (relay k s r).task = (Forwarder.reading r).settle.2 := rfl
  rw [htask]
  simp only [Forwarder.settle, h.items_ended]
  split <;> rfl

end

/-- **A relay tries to append every item, whatever its sink answers.** On a closed stream without
a crash it ends. It tries one entry for each item, in order, up to and including the first read
that failed, and counts the lines among these items, as its loop does; a sink that watches sees the
same attempts, and so do any two sinks. A memory keeps as many of the attempts as it has room
for, the first ones. -/
theorem relay_attempts (reads : List Read) (h : .crash ∉ reads) :
    let r := Reader.ofReads reads true
    let taken := upToFinal r.items.1
    let attempts := taken.map Item.entry
    r.items.2 = .ended ∧
    (∀ {σ : Type} (k : Sink σ) (s : σ),
      (relay k s r).task = .ended ∧ (relay k s r).lines = taken.countP Item.isLine ∧
      (relay k.watched (s, []) r).sink = ((relay k s r).sink, attempts) ∧
      ∀ es n t, Relays k r s es n t ↔
        es = attempts ∧ n = (relay k s r).lines ∧ t = (relay k s r).sink) ∧
    (∀ {σ τ : Type} (k : Sink σ) (k' : Sink τ) (s : σ) (s' : τ),
      (relay k.watched (s, []) r).sink.2 = (relay k'.watched (s', []) r).sink.2 ∧
        (relay k s r).lines = (relay k' s' r).lines) ∧
    ∀ n, (relay Memory.sink (.empty (some n)) r).sink.entries.toList = attempts.take n := by
  intro r taken attempts
  have hr : r.Whole := Reader.ofReads_whole h
  have hwatched {σ : Type} (k : Sink σ) (s : σ) :
      (relay k.watched (s, []) r).sink = ((relay k s r).sink, attempts) := by
    rw [relay_sink, relay_sink, Sink.watched_appendAll]
    rfl
  refine ⟨hr.items_ended, fun k s => ?_, fun k k' s s' => ⟨?_, ?_⟩, fun n => ?_⟩
  · exact ⟨hr.relay_ended s, relay_lines r s, hwatched k s, fun es n t => hr.relays_iff⟩
  · rw [hwatched, hwatched]
  · rw [relay_lines, relay_lines]
  · rw [relay_sink, Memory.appendAll_entries]
    rfl

/-- A line, a read that fails, and a line that is never read. A memory with room for one entry
keeps the line. -/
theorem relay_attempts_full_memory :
    let f : Fault := .kind .brokenPipe none
    let reads : List Read := [.data [97, 10], .fault f, .data [98, 10]]
    let r := Reader.ofReads reads true
    let line := (Item.ofPiece [97, 10]).entry
    .crash ∉ reads ∧ (relay Memory.sink (.empty (some 1)) r).lines = 1 ∧
      (relay Memory.sink (.empty (some 1)) r).sink.entries.toList = [line] ∧
      (relay Memory.sink.watched (.empty (some 1), []) r).sink.2 =
        [line, ⟨.forwarder, .error, (StreamError.read f).message⟩] := by
  intro f reads r line
  have halive : .crash ∉ reads := by decide
  have hwhole : wholeLines ([[97, 10]] : List (List UInt8)).flatten = [[97, 10]] := by decide
  have hholds : r.Holds ([[97, 10]] : List (List UInt8)).flatten _ true :=
    Reader.ofReads_holds [[97, 10]] [.fault f, .data [98, 10]] true
  have hnonfinal : ∀ i ∈ [[97, 10]].map Item.ofPiece, i.isFinal = false :=
    List.forall_mem_singleton.mpr (isFinal_ofPiece _)
  have htaken : upToFinal r.items.1 = [.ofPiece [97, 10], .failure (.read f)] := by
    rw [hholds.items_fault rfl, hwhole]
    exact upToFinal_final hnonfinal rfl _
  obtain ⟨-, hany, -, hmemory⟩ := relay_attempts reads halive
  obtain ⟨-, hlines, hwatched, -⟩ := hany Memory.sink (.empty (some 1))
  refine ⟨halive, ?_, ?_, ?_⟩
  · rw [hlines, htaken]
    decide
  · rw [hmemory 1, htaken]
    rfl
  · rw [hwatched, htaken]
    rfl

end Warden.Diagnostics
