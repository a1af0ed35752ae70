import Warden.Proofs.Diagnostics.Faults
import Warden.Proofs.Diagnostics.Stages

/-!
Reads that are interrupted.

An interrupted read is tried again while a line is collected, and is a fault like any other while
the rest of a line is skipped. Two streams that differ in interruptions of collected lines have the
same items (`Reader.Hushed.items_eq`); where a skipped line is interrupted an item tells of it
(`Reader.calm_of_items`).
-/

namespace Warden.Diagnostics

open Warden.Log

def Read.isInterruption : Read → Bool
  | .fault f => f.isInterrupted
  | _ => false

/-! ### Streams that differ in interruptions -/

/-- `rs'` is `rs` without some of its interruptions. -/
inductive Thinned : List Read → List Read → Prop where
  | nil : Thinned [] []
  | keep (r : Read) {rs rs' : List Read} (h : Thinned rs rs') : Thinned (r :: rs) (r :: rs')
  | drop {r : Read} {rs rs' : List Read} (hr : r.isInterruption = true) (h : Thinned rs rs') :
    Thinned (r :: rs) rs'

/-- `rs'` is `rs` without some of its interruptions, of which none strikes a line that is skipped.
`p` is the stage before the first read. -/
inductive Hushed : Stage → List Read → List Read → Prop where
  | nil {p : Stage} : Hushed p [] []
  | keep {p : Stage} (r : Read) {rs rs' : List Read} (h : Hushed (p.read r) rs rs') :
    Hushed p (r :: rs) (r :: rs')
  | drop {p : Stage} {f : Fault} {rs rs' : List Read} (hf : f.isInterrupted = true)
    (hp : p ≠ .skipping) (h : Hushed p rs rs') : Hushed p (.fault f :: rs) rs'

/-- No interruption strikes a line that is skipped. -/
def Calm : Stage → List Read → Prop
  | _, [] => True
  | p, r :: rs => (p = .skipping → r.isInterruption = false) ∧ Calm (p.read r) rs

lemma read_interruption {p : Stage} (hp : p ≠ .skipping) {r : Read}
    (hr : r.isInterruption = true) : p.read r = p := by
  cases r with
  | fault f =>
    cases p with
    | line l => exact if_pos hr
    | skipping => exact absurd rfl hp
    | ended => rfl
  | _ => cases hr

/-- In a calm stream every interruption may be left out. -/
lemma Thinned.hushed {p : Stage} {rs rs' : List Read} (h : Thinned rs rs') (hp : Calm p rs) :
    Hushed p rs rs' := by
  induction h generalizing p with
  | nil => exact .nil
  | keep r h ih => exact .keep r (ih hp.2)
  | @drop r rs rs' hr h ih =>
    have hne : p ≠ .skipping := by
      intro hs
      rw [hp.1 hs] at hr
      cases hr
    have hrest := hp.2
    rw [read_interruption hne hr] at hrest
    cases r with
    | fault f => exact .drop hr hne (ih hrest)
    | _ => cases hr

lemma calm_ended (rs : List Read) : Calm .ended rs := by
  induction rs with
  | nil => trivial
  | cons r rs ih =>
    refine ⟨fun h => (by cases h), ?_⟩
    rw [Stage.ended_read]
    exact ih

/-- `r'` is `r` without some interruptions of lines that are not skipped; `p` is the stage before
the bytes in the buffer. -/
structure Reader.Hushed (p : Stage) (r r' : Reader) : Prop where
  buffer : r'.buffer = r.buffer
  closed : r'.closed = r.closed
  reads : Diagnostics.Hushed (p.bytes r.buffer) r.reads r'.reads

/-- The reads of `r` are calm, when `p` is the stage before the bytes in the buffer. -/
def Reader.Calm (p : Stage) (r : Reader) : Prop := Diagnostics.Calm (p.bytes r.buffer) r.reads

lemma Reader.calm_ended (r : Reader) : r.Calm .ended := by
  rw [Reader.Calm, Stage.ended_bytes]
  exact Diagnostics.calm_ended r.reads

/-! ### Collecting -/

/-- Two attempts with the same result; what they leave differs in interruptions. -/
inductive Got.Alike {α : Type} (R : α → Reader → Reader → Prop) : Got α → Got α → Prop where
  | ok {a : α} {r r' : Reader} (h : R a r r') : Alike R (.ok a r) (.ok a r')
  | fault {f : Fault} {r r' : Reader} (h : r.Hushed (.line []) r') :
    Alike R (.fault f r) (.fault f r')
  | waiting : Alike R .waiting .waiting
  | crashed : Alike R .crashed .crashed

section
variable (closed : Bool) {reads reads' : List Read}

abbrev CollectAlike : Got (List UInt8) → Got (List UInt8) → Prop :=
  Got.Alike fun l r r' => r.Hushed (.behind l) r'

/-- The bytes in the buffer decide nothing but the line at which the reads go on. -/
lemma collect_alike_of_nil {n : Nat} {line buffer : List UInt8} (hline : HasRoom n line)
    (h : Hushed ((Stage.line line.reverse).bytes buffer) reads reads')
    (hnil : ∀ m out, HasRoom m out → (Stage.line line.reverse).bytes buffer = .line out.reverse →
      CollectAlike (collect closed (m + 1) out [] reads) (collect closed (m + 1) out [] reads')) :
    CollectAlike (collect closed (n + 1) line buffer reads)
      (collect closed (n + 1) line buffer reads') := by
  have hstage := take_stage hline buffer
  rcases ht : take (n + 1) line buffer with ⟨out, rest⟩ | ⟨room, out⟩
  · rw [ht] at hstage
    rw [collect_of_stop ht, collect_of_stop ht]
    exact .ok ⟨rfl, rfl, hstage ▸ h⟩
  · rw [ht] at hstage
    obtain ⟨m, rfl, hout, hbytes⟩ := hstage
    rw [collect_of_more ht, collect_of_more ht]
    exact hnil m out hout hbytes

lemma collect_alike_nil {n : Nat} {line : List UInt8} (hline : HasRoom n line)
    (h : Hushed (.line line.reverse) reads reads') :
    CollectAlike (collect closed (n + 1) line [] reads)
      (collect closed (n + 1) line [] reads') := by
  generalize hp : Stage.line line.reverse = p at h
  induction h generalizing n line with
  | nil =>
    simp only [collect, take]
    split
    · exact .ok ⟨rfl, rfl, .nil⟩
    · exact .waiting
  | @keep p r rs rs' h ih =>
    subst hp
    cases r with
    | data bs =>
      change CollectAlike (collect closed (n + 1) line bs rs) (collect closed (n + 1) line bs rs')
      exact collect_alike_of_nil closed hline h fun m out hout hbytes => ih hout hbytes.symm
    | fault f =>
      simp only [collect, take]
      rcases hf : f.isInterrupted with _ | _
      · rw [Stage.read, hf] at h
        exact .fault ⟨rfl, rfl, h⟩
      · rw [Stage.read, hf] at ih
        exact ih hline rfl
    | nothing => exact .ok ⟨rfl, rfl, h⟩
    | crash => exact .crashed
  | @drop p f rs rs' hf hne h ih =>
    have hfault : collect closed (n + 1) line [] (.fault f :: rs) =
        collect closed (n + 1) line [] rs := by
      simp only [collect, take, hf, if_true]
    rw [hfault]
    exact ih hline hp

lemma collect_alike {n : Nat} {line buffer : List UInt8} (hline : HasRoom n line)
    (h : Hushed ((Stage.line line.reverse).bytes buffer) reads reads') :
    CollectAlike (collect closed (n + 1) line buffer reads)
      (collect closed (n + 1) line buffer reads') :=
  collect_alike_of_nil closed hline h fun _ _ hout hbytes =>
    collect_alike_nil closed hout (hbytes ▸ h)

/-! ### Skipping -/

abbrev SkipAlike : Got Unit → Got Unit → Prop := Got.Alike fun _ r r' => r.Hushed (.line []) r'

lemma skip_alike {buffer : List UInt8} (h : Hushed (Stage.skipping.bytes buffer) reads reads') :
    SkipAlike (skip closed buffer reads) (skip closed buffer reads') := by
  generalize hp : Stage.skipping.bytes buffer = p at h
  rw [skipping_bytes] at hp
  induction h generalizing buffer with
  | nil =>
    rcases hd : buffer.dropWhile (· != lineFeed) with _ | ⟨b, rest⟩
    · simp only [skip, hd]
      split
      · exact .ok ⟨rfl, rfl, .nil⟩
      · exact .waiting
    · rw [skip_of_cons hd]
      exact .ok ⟨rfl, rfl, .nil⟩
  | @keep p r rs rs' h ih =>
    rcases hd : buffer.dropWhile (· != lineFeed) with _ | ⟨b, rest⟩
    · rw [hd] at hp
      subst hp
      simp only [skip, hd]
      cases r with
      | data bs => exact ih (skipping_bytes bs).symm
      | fault f => exact .fault ⟨rfl, rfl, h⟩
      | nothing => exact .ok ⟨rfl, rfl, h⟩
      | crash => exact .crashed
    · rw [hd] at hp
      subst hp
      rw [skip_of_cons hd, skip_of_cons hd]
      exact .ok ⟨rfl, rfl, .keep r h⟩
  | @drop p f rs rs' hf hne h ih =>
    rcases hd : buffer.dropWhile (· != lineFeed) with _ | ⟨b, rest⟩
    · rw [hd] at hp
      exact absurd hp.symm hne
    · rw [hd] at hp
      subst hp
      rw [skip_of_cons hd, skip_of_cons hd]
      exact .ok ⟨rfl, rfl, .drop hf hne h⟩

end

/-! ### One attempt of the reader -/

inductive Next.Alike : Next → Next → Prop where
  | item {i : Item} {r r' : Reader} (h : r.Hushed (.line []) r') : Alike (.item i r) (.item i r')
  | ended : Alike .ended .ended
  | waiting : Alike .waiting .waiting
  | crashed : Alike .crashed .crashed

lemma finishLine_alike {line : List UInt8} (hne : line ≠ []) {r r' : Reader}
    (h : r.Hushed (.behind line) r') : (r.finishLine line).Alike (r'.finishLine line) := by
  rcases behind_cases hne with ⟨hshort, hp⟩ | ⟨hterm, hlong, hp⟩
  · rw [finishLine_short hshort, finishLine_short hshort]
    exact .item (hp ▸ h)
  · rw [finishLine_long hterm hlong, finishLine_long hterm hlong, h.buffer, h.closed]
    have hreads := h.reads
    rw [hp] at hreads
    have hskip := skip_alike r.closed hreads
    generalize skip r.closed r.buffer r.reads = g at hskip ⊢
    generalize skip r.closed r.buffer r'.reads = g' at hskip ⊢
    cases hskip with
    | ok h => exact .item h
    | fault h => exact .item h
    | waiting => exact .waiting
    | crashed => exact .crashed

lemma Reader.Hushed.next_alike {r r' : Reader} (h : r.Hushed (.line []) r') :
    r.next.Alike r'.next := by
  have hcollect := collect_alike r.closed hasRoom_nil h.reads
  unfold Reader.next
  rw [h.buffer, h.closed]
  generalize collect r.closed (maxLine + 1 + 1) [] r.buffer r.reads = g at hcollect ⊢
  generalize collect r.closed (maxLine + 1 + 1) [] r.buffer r'.reads = g' at hcollect ⊢
  cases hcollect with
  | @ok line _ _ h =>
    rcases line with _ | ⟨b, line⟩
    · exact .ended
    · exact finishLine_alike (List.cons_ne_nil b line) h
  | fault h => exact .item h
  | waiting => exact .waiting
  | crashed => exact .crashed

/-- Readers that differ in interruptions of collected lines have the same items and come to the
same end. -/
theorem Reader.Hushed.items_eq {r r' : Reader} (h : r.Hushed (.line []) r') :
    r'.items.1 = r.items.1 ∧ (r'.items.2 = .ended ↔ r.items.2 = .ended) ∧
      (r'.items.2 = .crashed ↔ r.items.2 = .crashed) := by
  induction hn : r.size using Nat.strongRecOn generalizing r r' with
  | ind n ih =>
    have halike := h.next_alike
    rcases hr : r.next with ⟨i, rest⟩ | _ | _ | _ <;>
      rcases hr' : r'.next with ⟨i', rest'⟩ | _ | _ | _ <;>
      rw [hr, hr'] at halike <;>
      cases halike
    · rename_i h
      have hlt := size_lt_of_next hr
      obtain ⟨hitems, hend⟩ := ih rest.size (by omega) h rfl
      rw [items_of_item hr, items_of_item hr', hitems]
      exact ⟨rfl, hend⟩
    · simp [items_of_ended hr, items_of_ended hr']
    · simp [items_of_waiting hr, items_of_waiting hr']
    · simp [items_of_crashed hr, items_of_crashed hr']

/-! ### Lines that are skipped -/

/-- `r'` stands at `q` behind some of the reads of a stream that stands at `p`, and the reads
before it are calm. -/
structure Left (p : Stage) (reads : List Read) (q : Stage) (r' : Reader) : Prop where
  suffix : r'.reads <:+ reads
  calm : r'.Calm q → Calm p reads

lemma Left.refl {p q : Stage} {r : Reader} (h : p = q.bytes r.buffer) : Left p r.reads q r :=
  ⟨List.suffix_rfl, fun hq => h ▸ hq⟩

lemma Left.trans {p q q' : Stage} {reads : List Read} {r r' : Reader} (h : Left p reads q r)
    (h' : Left (q.bytes r.buffer) r.reads q' r') : Left p reads q' r' :=
  ⟨h'.suffix.trans h.suffix, fun hq => h.calm (h'.calm hq)⟩

lemma Left.cons {p q : Stage} {r : Read} {reads : List Read} {r' : Reader}
    (hr : p = .skipping → r.isInterruption = false) (h : Left (p.read r) reads q r') :
    Left p (r :: reads) q r' :=
  ⟨h.suffix.trans (List.suffix_cons r reads), fun hq => ⟨hr, h.calm hq⟩⟩

/-- What an attempt has left of the reads, if no interruption has struck. -/
def Got.Leads {α : Type} (p : Stage) (reads : List Read) (behind : α → Stage) : Got α → Prop
  | .ok a r => Left p reads (behind a) r
  | .fault f r => .fault f ∈ reads ∧ r.reads <:+ reads ∧
      (f.isInterrupted = false → r.Calm (.line []) → Calm p reads)
  | .waiting | .crashed => Calm p reads

lemma Got.Leads.cons {α : Type} {p : Stage} {r : Read} {reads : List Read} {behind : α → Stage}
    {g : Got α} (hr : p = .skipping → r.isInterruption = false)
    (h : g.Leads (p.read r) reads behind) : g.Leads p (r :: reads) behind := by
  cases g with
  | ok a r' => exact Left.cons hr h
  | fault f r' =>
    obtain ⟨hmem, hsuffix, hcalm⟩ := h
    exact ⟨List.mem_cons_of_mem r hmem, hsuffix.trans (List.suffix_cons r reads),
      fun hf hq => ⟨hr, hcalm hf hq⟩⟩
  | waiting | crashed => exact ⟨hr, h⟩

lemma collect_leads (closed : Bool) {n : Nat} {line : List UInt8} (hline : HasRoom n line)
    (buffer : List UInt8) (reads : List Read) :
    (collect closed (n + 1) line buffer reads).Leads
      ((Stage.line line.reverse).bytes buffer) reads Stage.behind := by
  have hne (l : List UInt8) {r : Read} : Stage.line l = .skipping → r.isInterruption = false :=
    fun h => by cases h
  induction reads generalizing n line buffer with
  | nil =>
    have hstage := take_stage hline buffer
    rcases ht : take (n + 1) line buffer with ⟨out, rest⟩ | ⟨room, out⟩
    · rw [ht] at hstage
      rw [collect_of_stop ht]
      exact Left.refl (r := ⟨rest, [], closed⟩) hstage
    · simp only [collect, ht]
      split
      · exact ⟨List.suffix_rfl, fun _ => trivial⟩
      · trivial
  | cons r rs ih =>
    have hstage := take_stage hline buffer
    rcases ht : take (n + 1) line buffer with ⟨out, rest⟩ | ⟨room, out⟩
    · rw [ht] at hstage
      rw [collect_of_stop ht]
      exact Left.refl (r := ⟨rest, r :: rs, closed⟩) hstage
    · rw [ht] at hstage
      obtain ⟨m, rfl, hout, hbytes⟩ := hstage
      rw [collect_of_more ht, hbytes]
      cases r with
      | data bs => exact (ih hout bs).cons (hne _)
      | fault f =>
        simp only [collect, take]
        rcases hf : f.isInterrupted with _ | _
        · refine ⟨List.mem_cons_self .., List.suffix_cons .., fun _ hq => ⟨hne _, ?_⟩⟩
          rw [Stage.read, hf]
          exact hq
        · refine Got.Leads.cons (hne _) ?_
          rw [Stage.read, hf]
          exact ih hout []
      | nothing => exact Left.cons (hne _) (Left.refl (r := ⟨[], rs, closed⟩) rfl)
      | crash => exact ⟨hne _, calm_ended rs⟩

lemma skip_leads (closed : Bool) (buffer : List UInt8) (reads : List Read) :
    (skip closed buffer reads).Leads (Stage.skipping.bytes buffer) reads fun _ => .line [] := by
  have hstage := skipping_bytes buffer
  induction reads generalizing buffer with
  | nil =>
    rcases hd : buffer.dropWhile (· != lineFeed) with _ | ⟨b, rest⟩
    · simp only [skip, hd]
      split
      · exact ⟨List.suffix_rfl, fun _ => trivial⟩
      · trivial
    · rw [hd] at hstage
      rw [skip_of_cons hd]
      exact Left.refl (r := ⟨rest, [], closed⟩) hstage
  | cons r rs ih =>
    rcases hd : buffer.dropWhile (· != lineFeed) with _ | ⟨b, rest⟩
    · rw [hd] at hstage
      rw [hstage]
      simp only [skip, hd]
      cases r with
      | data bs => exact (ih bs (skipping_bytes bs)).cons fun _ => rfl
      | fault f =>
        exact ⟨List.mem_cons_self .., List.suffix_cons .., fun hf hq => ⟨fun _ => hf, hq⟩⟩
      | nothing => exact Left.cons (fun _ => rfl) (Left.refl (r := ⟨[], rs, closed⟩) rfl)
      | crash => exact ⟨fun _ => rfl, calm_ended rs⟩
    · rw [hd] at hstage
      rw [skip_of_cons hd]
      exact Left.refl (r := ⟨rest, r :: rs, closed⟩) hstage

/-- The item tells of an interruption. -/
def Item.isInterruption : Item → Bool
  | .failure (.read f) => f.isInterrupted
  | _ => false

/-- What an attempt of the reader has left of the reads, if its item tells of no interruption. -/
def Next.Leads (p : Stage) (reads : List Read) : Next → Prop
  | .item i r => r.reads <:+ reads ∧ (∀ f, i = .failure (.read f) → .fault f ∈ reads) ∧
      (i.isInterruption = false → r.Calm (.line []) → Calm p reads)
  | .ended | .waiting | .crashed => Calm p reads

lemma ofPiece_ne_read (p : List UInt8) (f : Fault) : Item.ofPiece p ≠ .failure (.read f) := by
  unfold Item.ofPiece
  split <;> simp

lemma finishLine_leads {line : List UInt8} (hne : line ≠ []) {p : Stage} {reads : List Read}
    {r : Reader} (h : Left p reads (.behind line) r) : (r.finishLine line).Leads p reads := by
  rcases behind_cases hne with ⟨hshort, hp⟩ | ⟨hterm, hlong, hp⟩
  · rw [finishLine_short hshort]
    exact ⟨h.suffix, fun f hf => absurd hf (ofPiece_ne_read line f), fun _ hq => h.calm (hp ▸ hq)⟩
  · rw [finishLine_long hterm hlong]
    have hskip := skip_leads r.closed r.buffer r.reads
    rw [hp] at h
    generalize skip r.closed r.buffer r.reads = g at hskip ⊢
    cases g with
    | ok _ r' =>
      have hleft := h.trans hskip
      exact ⟨hleft.suffix, fun f hf => (by cases hf), fun _ hq => hleft.calm hq⟩
    | fault f r' =>
      obtain ⟨hmem, hsuffix, hcalm⟩ := hskip
      refine ⟨hsuffix.trans h.suffix, fun f' hf => ?_, fun hf hq => h.calm (hcalm hf hq)⟩
      cases hf
      exact h.suffix.subset hmem
    | waiting | crashed => exact h.calm hskip

lemma Reader.next_leads (r : Reader) : r.next.Leads ((Stage.line []).bytes r.buffer) r.reads := by
  have hcollect := collect_leads r.closed hasRoom_nil r.buffer r.reads
  unfold Reader.next
  generalize collect r.closed (maxLine + 1 + 1) [] r.buffer r.reads = g at hcollect ⊢
  cases g with
  | ok line r' =>
    rcases line with _ | ⟨b, line⟩
    · exact Left.calm hcollect r'.calm_ended
    · exact finishLine_leads (List.cons_ne_nil b line) hcollect
  | fault f r' =>
    obtain ⟨hmem, hsuffix, hcalm⟩ := hcollect
    refine ⟨hsuffix, fun f' hf => ?_, hcalm⟩
    cases hf
    exact hmem
  | waiting | crashed => exact hcollect

/-- If no item tells of an interruption, then none has struck a line that is skipped. -/
theorem Reader.calm_of_items {r : Reader} (h : ∀ i ∈ r.items.1, i.isInterruption = false) :
    r.Calm (.line []) := by
  induction hn : r.size using Nat.strongRecOn generalizing r with
  | ind n ih =>
    have hleads := r.next_leads
    rcases hr : r.next with ⟨i, rest⟩ | _ | _ | _ <;> rw [hr] at hleads
    · obtain ⟨-, -, hcalm⟩ := hleads
      have hlt := size_lt_of_next hr
      rw [items_of_item hr] at h
      exact hcalm (h i List.mem_cons_self)
        (ih rest.size (by omega) (fun j hj => h j (List.mem_cons_of_mem i hj)) rfl)
    · exact hleads
    · exact hleads
    · exact hleads

/-- Items tell of interruptions only if there are some. -/
lemma Reader.items_uninterrupted {r : Reader} (h : ∀ x ∈ r.reads, x.isInterruption = false) :
    ∀ i ∈ r.items.1, i.isInterruption = false := by
  induction hn : r.size using Nat.strongRecOn generalizing r with
  | ind n ih =>
    have hleads := r.next_leads
    rcases hr : r.next with ⟨i, rest⟩ | _ | _ | _
    · rw [hr] at hleads
      obtain ⟨hsuffix, hfault, -⟩ := hleads
      have hlt := size_lt_of_next hr
      have hrest := ih rest.size (by omega) (fun x hx => h x (hsuffix.subset hx)) rfl
      have hi : i.isInterruption = false := by
        unfold Item.isInterruption
        split
        · exact h _ (hfault _ rfl)
        · rfl
      rw [items_of_item hr]
      exact List.forall_mem_cons.mpr ⟨hi, hrest⟩
    · simp [items_of_ended hr]
    · simp [items_of_waiting hr]
    · simp [items_of_crashed hr]

/-! ### Reads that fill the buffer -/

/-- A stage sees through the pieces in which bytes arrive. -/
lemma Hushed.data {p : Stage} (chunks : List (List UInt8)) {rs rs' : List Read}
    (h : Hushed (p.bytes chunks.flatten) rs rs') :
    Hushed p (chunks.map .data ++ rs) (chunks.map .data ++ rs') := by
  induction chunks generalizing p with
  | nil => exact h
  | cons c cs ih =>
    rw [List.flatten_cons, Stage.bytes_append] at h
    exact .keep (.data c) (ih h)

lemma Hushed.fills {p : Stage} {rs rs' : List Read} (h : Hushed p rs rs') :
    Hushed p (rs.flatMap Read.fills) (rs'.flatMap Read.fills) := by
  induction h with
  | nil => exact .nil
  | keep r h ih =>
    cases r with
    | data bs => exact Hushed.data (pieces bs) (by rwa [flatten_pieces])
    | _ => exact .keep _ ih
  | drop hf hp h ih => exact .drop hf hp ih

lemma calm_data {p : Stage} (chunks : List (List UInt8)) {rs : List Read} :
    Calm p (chunks.map .data ++ rs) ↔ Calm (p.bytes chunks.flatten) rs := by
  induction chunks generalizing p with
  | nil => rfl
  | cons c cs ih =>
    rw [List.flatten_cons, Stage.bytes_append, ← ih]
    exact and_iff_right fun _ => rfl

lemma calm_fills {p : Stage} {rs : List Read} : Calm p (rs.flatMap Read.fills) ↔ Calm p rs := by
  induction rs generalizing p with
  | nil => rfl
  | cons r rs ih =>
    cases r with
    | data bs =>
      rw [List.flatMap_cons, Read.fills, calm_data, flatten_pieces, ih]
      exact (and_iff_right fun _ => rfl).symm
    | _ => exact and_congr_right' ih

lemma Read.fills_uninterrupted {r : Read} (h : r.isInterruption = false) :
    ∀ x ∈ r.fills, x.isInterruption = false := by
  cases r with
  | data bs =>
    intro x hx
    obtain ⟨c, -, rfl⟩ := List.mem_map.mp hx
    rfl
  | _ => exact List.forall_mem_singleton.mpr h

/-- All interruptions may be left out at once. -/
lemma thinned_filter (rs : List Read) : Thinned rs (rs.filter (!·.isInterruption)) := by
  induction rs with
  | nil => exact .nil
  | cons r rs ih =>
    rcases h : r.isInterruption with _ | _
    · rw [List.filter_cons_of_pos (by simp [h])]
      exact .keep r ih
    · rw [List.filter_cons_of_neg (by simp [h])]
      exact .drop h ih

lemma relay_congr {r r' : Reader} (h : r'.items.1 = r.items.1) {σ : Type} (k : Sink σ) (s : σ) :
    (relay k s r').lines = (relay k s r).lines ∧ (relay k s r').sink = (relay k s r).sink ∧
      (relay k s r').records = (relay k s r).records := by
  simp only [relay, settle_items, h, and_self]

/-- **Interrupted reads go unseen exactly where no line is skipped.** Every choice of interruptions
may be left out of a stream without a change to its items if and only if none of them strikes the
rest of a line that is too long. An interruption that strikes elsewhere may always be left out:
neither the items nor what the relay counts, appends and tells can show it. -/
theorem interruptions_unseen_iff (reads : List Read) (closed : Bool) :
    ((∀ reads', Thinned reads reads' →
        (Reader.ofReads reads' closed).items.1 = (Reader.ofReads reads closed).items.1) ↔
      Calm (.line []) reads) ∧
    ∀ reads', Hushed (.line []) reads reads' →
      let r := Reader.ofReads reads closed
      let r' := Reader.ofReads reads' closed
      (r'.items.1 = r.items.1 ∧ (r'.items.2 = .ended ↔ r.items.2 = .ended) ∧
        (r'.items.2 = .crashed ↔ r.items.2 = .crashed)) ∧
      ∀ {σ : Type} (k : Sink σ) (s : σ),
        (relay k s r').lines = (relay k s r).lines ∧ (relay k s r').sink = (relay k s r).sink ∧
          (relay k s r').records = (relay k s r).records := by
  have hushed {reads' : List Read} (h : Hushed (.line []) reads reads') :
      (Reader.ofReads reads closed).Hushed (.line []) (Reader.ofReads reads' closed) :=
    ⟨rfl, rfl, h.fills⟩
  refine ⟨⟨fun h => ?_, fun hcalm reads' h => (hushed (h.hushed hcalm)).items_eq.1⟩,
    fun reads' h => ?_⟩
  · -- without any interruption no item tells of one
    have hitems := h _ (thinned_filter reads)
    have hreads : ∀ x ∈ (Reader.ofReads (reads.filter (!·.isInterruption)) closed).reads,
        x.isInterruption = false := by
      intro x hx
      obtain ⟨r, hr, hx⟩ := List.mem_flatMap.mp hx
      exact Read.fills_uninterrupted (by simpa using (List.mem_filter.mp hr).2) x hx
    have hnone := Reader.items_uninterrupted hreads
    rw [hitems] at hnone
    exact calm_fills.mp (Reader.calm_of_items hnone)
  · have heq := (hushed h).items_eq
    exact ⟨heq, fun k s => relay_congr heq.1 k s⟩

/-- An interruption between a line that fills the limit and its line feed is an item of its own.
Without it the line is too long, and the line feed belongs to it. -/
theorem interruption_seen_in_skipped_line :
    let f : Fault := .kind .interrupted none
    let long : Read := .data (List.replicate (maxLine + 2) 120)
    Thinned [long, .fault f, .data [lineFeed]] [long, .data [lineFeed]] ∧
      (Reader.ofReads [long, .data [lineFeed]] true).items = ([.tooLong], .ended) ∧
      (Reader.ofReads [long, .fault f, .data [lineFeed]] true).items =
        ([.failure (.read f), .ofPiece [lineFeed]], .ended) := by
  intro f long
  have hl : lineFeed ∉ List.replicate (maxLine + 2) (120 : UInt8) := fun h =>
    absurd (List.eq_of_mem_replicate h) (by decide)
  have hlen : (List.replicate (maxLine + 2) (120 : UInt8)).length = maxLine + 2 :=
    List.length_replicate
  refine ⟨.keep _ (.drop rfl (.keep _ .nil)), ?_, ?_⟩
  · obtain ⟨rest, hnext, hrest⟩ := (Reader.ofReads_holds
      [List.replicate (maxLine + 2) 120, [lineFeed]] [] true).next_line hl
    have hend := hrest.items_eq
    rw [ofPiece_long (by rw [withoutLast_line, hlen])] at hnext
    refine (Reader.items_of_item hnext).trans ?_
    rw [hend]
    rfl
  · have hnext := (Reader.ofReads_holds [List.replicate (maxLine + 2) 120]
      [.fault f, .data [lineFeed]] true).next_fault_skipped (by simpa using hl) (by simp)
    have hfresh := (Reader.ofReads_holds [[lineFeed]] [] true).items_eq
    refine (Reader.items_of_item hnext).trans ?_
    exact congrArg (fun x : List Item × Ending => (.failure (.read f) :: x.1, x.2)) hfresh

end Warden.Diagnostics
