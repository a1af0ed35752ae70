import Mathlib.Data.List.Forall2
import Warden.Host.EventLog
import Warden.Proofs.Log.Attempts
import Warden.Proofs.Text.Wide

/-!
What the event log of a host holds.

A text that holds NUL has no wide form, and the host never hears of it; for the other entries it is
asked in turn, and answers by number. An append records the entry, with all that it says, or leaves
the reports alone (`append_cases`). So the reports grow with the entries by those that the host was
asked for and did not refuse (`Grown`, `appendAll_grown`), and an entry with NUL might as well not
have been there (`appendAll_nul`).
-/

namespace Warden.Host.EventLog

open Log

/-- The refusal of a text that holds NUL. -/
def interiorNul (s : String) : SinkError :=
  .encoding ("interior NUL in '" ++ Text.escaped s ++ "'")

/-- The entry can be put to the host. -/
def plain (e : Entry) : Bool := !e.message.toList.contains '\x00'

/-- How many of the entries the host is asked for. -/
def count (es : List Entry) : Nat := (es.filter plain).length

/-- The entries that the host is asked for, from its n-th question on, and does not refuse. -/
def kept (refusal : Nat → Option Fault) (n : Nat) (es : List Entry) : List Entry :=
  (((es.filter plain).zipIdx n).filter fun q => (refusal q.2).isNone).map Prod.fst

/-- The answer to an entry that is the n-th for the host, if it is one. -/
def answer (refusal : Nat → Option Fault) (n : Nat) (e : Entry) : Option SinkError :=
  if plain e then (refusal n).map .write else some (interiorNul e.message)

/-- The units end in the only zero among them, and before it stands the text. -/
def Carries (us : List Nat) (s : String) : Prop :=
  ∃ body, us = body ++ [0] ∧ 0 ∉ body ∧ Text.ofUnits? body = some s.toList

/-- The report of an entry of the source `handle`: it has the type of the entry's level, the
event code of its category, and its whole text. -/
structure Shows (handle : Nat) (r : Report) (e : Entry) : Prop where
  source : r.source = handle
  kind : (e.level, r.kind) ∈ [(.info, 4), (.warning, 2), (.error, 1)]
  category : r.category = 0
  event : (e.category, r.event) ∈
    [(.relayed, 1), (.startFailure, 2), (.stopFailure, 3), (.forwarder, 4)]
  text : ∃ us, r.strings = [us] ∧ Carries us e.message

/-! ### Texts -/

lemma wide_eq_ok_iff (s : String) (us : List Nat) : wide s = .ok us ↔ Carries us s := by
  rw [Carries, ← Text.wide?_eq_some_iff, wide]
  split <;> simp_all

lemma wide_of_nul {s : String} (h : '\x00' ∈ s.toList) : wide s = .error (interiorNul s) := by
  rw [wide, (Text.wide?_eq_none_iff _).mpr h, interiorNul]

lemma exists_wide_iff (s : String) : (∃ us, wide s = .ok us) ↔ '\x00' ∉ s.toList := by
  constructor
  · rintro ⟨us, hus⟩ hnul
    rw [wide_of_nul hnul] at hus
    cases hus
  · intro hplain
    have hsome : Text.wide? s.toList ≠ none := fun h => hplain ((Text.wide?_eq_none_iff _).mp h)
    obtain ⟨us, hus⟩ := Option.ne_none_iff_exists'.mp hsome
    exact ⟨us, by rw [wide, hus]⟩

lemma plain_eq_true_iff (e : Entry) : plain e = true ↔ '\x00' ∉ e.message.toList := by
  simp [plain]

/-! ### One entry -/

/-- The report with which the host is asked for an entry. -/
lemma exists_report {e : Entry} (h : plain e = true) (l : EventLog) :
    ∃ r, Shows l.handle r e ∧ l.append e = l.ask r := by
  obtain ⟨us, hus⟩ := (exists_wide_iff e.message).mpr ((plain_eq_true_iff e).mp h)
  obtain ⟨category, level, message⟩ := e
  refine ⟨⟨l.handle, kind level, 0, category.code, [us]⟩,
    ⟨rfl, ?_, rfl, ?_, us, rfl, (wide_eq_ok_iff _ _).mp hus⟩, by rw [append, hus]⟩
  · cases level <;> simp [kind]
  · cases category <;> simp [Category.code]

/-- An entry is kept from the host, refused by it, or recorded with all that it says. -/
lemma append_cases (l : EventLog) (e : Entry) :
    plain e = false ∧ l.append e = (l, some (interiorNul e.message)) ∨
      (∃ f, plain e = true ∧ l.refusal l.asked = some f ∧
        l.append e = ({ l with asked := l.asked + 1 }, some (.write f))) ∨
      ∃ r, plain e = true ∧ l.refusal l.asked = none ∧ Shows l.handle r e ∧
        l.append e = ({ l with asked := l.asked + 1, reports := l.reports.push r }, none) := by
  rcases hplain : plain e with _ | _
  · have hnul : '\x00' ∈ e.message.toList := by simpa [plain] using hplain
    exact .inl ⟨rfl, by rw [append, wide_of_nul hnul]⟩
  · obtain ⟨r, hr, happend⟩ := exists_report hplain l
    rw [ask] at happend
    rcases hanswer : l.refusal l.asked with _ | f
    · exact .inr (.inr ⟨r, rfl, rfl, hr, by rw [happend, hanswer]⟩)
    · exact .inr (.inl ⟨f, rfl, rfl, by rw [happend, hanswer]⟩)

lemma append_answer (l : EventLog) (e : Entry) : (l.append e).2 = answer l.refusal l.asked e := by
  obtain ⟨hplain, hl⟩ | ⟨f, hplain, hanswer, hl⟩ | ⟨r, hplain, hanswer, -, hl⟩ := append_cases l e
  · rw [hl, answer, hplain, if_neg Bool.false_ne_true]
  · rw [hl, answer, if_pos hplain, hanswer, Option.map_some]
  · rw [hl, answer, if_pos hplain, hanswer, Option.map_none]

/-- An entry that is answered with an error is not recorded. -/
lemma append_reports {l : EventLog} {e : Entry} (h : (l.append e).2 ≠ none) :
    (l.append e).1.reports = l.reports := by
  obtain ⟨-, hl⟩ | ⟨f, -, -, hl⟩ | ⟨r, -, -, -, hl⟩ := append_cases l e
  · rw [hl]
  · rw [hl]
  · exact absurd (congrArg Prod.snd hl) h

/-- `m` is the log `l` after the entries. -/
structure Grown (l m : EventLog) (es : List Entry) : Prop where
  handle : m.handle = l.handle
  refusal : m.refusal = l.refusal
  asked : m.asked = l.asked + count es
  reports : ∃ rs : List Report, m.reports.toList = l.reports.toList ++ rs ∧
    List.Forall₂ (Shows l.handle) rs (kept l.refusal l.asked es)

lemma append_grown (l : EventLog) (e : Entry) : Grown l (l.append e).1 [e] := by
  obtain ⟨hplain, hl⟩ | ⟨f, hplain, hanswer, hl⟩ | ⟨r, hplain, hanswer, hr, hl⟩ := append_cases l e
  · rw [hl]
    exact ⟨rfl, rfl, by simp [count, hplain], [], by simp, by simp [kept, hplain]⟩
  · rw [hl]
    exact ⟨rfl, rfl, by simp [count, hplain], [], by simp, by simp [kept, hplain, hanswer]⟩
  · rw [hl]
    exact ⟨rfl, rfl, by simp [count, hplain], [r], by simp,
      by simpa [kept, hplain, hanswer] using hr⟩

/-! ### Many entries -/

lemma count_append (es fs : List Entry) : count (es ++ fs) = count es + count fs := by
  simp [count]

lemma kept_append (refusal : Nat → Option Fault) (n : Nat) (es fs : List Entry) :
    kept refusal n (es ++ fs) = kept refusal n es ++ kept refusal (n + count es) fs := by
  simp [kept, count, List.zipIdx_append]

lemma Grown.trans {l m n : EventLog} {es fs : List Entry} (hes : Grown l m es)
    (hfs : Grown m n fs) : Grown l n (es ++ fs) := by
  obtain ⟨rs, hrs, hshow⟩ := hes.reports
  obtain ⟨ts, hts, hshow'⟩ := hfs.reports
  rw [hes.handle, hes.refusal, hes.asked] at hshow'
  refine ⟨hfs.handle.trans hes.handle, hfs.refusal.trans hes.refusal, ?_, rs ++ ts, ?_, ?_⟩
  · rw [hfs.asked, hes.asked, count_append, Nat.add_assoc]
  · rw [hts, hrs, List.append_assoc]
  · rw [kept_append]
    exact List.rel_append hshow hshow'

lemma appendAll_grown (l : EventLog) (es : List Entry) : Grown l (sink.appendAll l es).1 es := by
  induction es generalizing l with
  | nil => exact ⟨rfl, rfl, rfl, [], by simp [Sink.appendAll], by simp [kept]⟩
  | cons e es ih => exact (append_grown l e).trans (ih (l.append e).1)

/-- The answer to an entry is the host's at the number that the entries before it lead to. -/
lemma appendAll_answer (l : EventLog) (before after : List Entry) (e : Entry) :
    (sink.appendAll l (before ++ e :: after)).2[before.length]? =
      some (answer l.refusal (l.asked + count before) e) := by
  have hgrown := appendAll_grown l before
  have hanswer := append_answer (sink.appendAll l before).1 e
  rw [hgrown.refusal, hgrown.asked] at hanswer
  have hlength := Sink.length_answers sink l before
  have hle := Nat.le_of_eq hlength
  rw [Sink.answers_append, List.getElem?_append_right hle, hlength, Nat.sub_self, ← hanswer]
  rfl

/-- An entry with NUL might as well not be there. -/
lemma appendAll_nul (l : EventLog) (before after : List Entry) (h : plain e = false) :
    (sink.appendAll l (before ++ e :: after)).1 = (sink.appendAll l (before ++ after)).1 := by
  have hstep : ((sink.appendAll l before).1.append e).1 = (sink.appendAll l before).1 := by
    obtain ⟨-, hl⟩ | ⟨f, hplain, -⟩ | ⟨r, hplain, -⟩ := append_cases (sink.appendAll l before).1 e
    · rw [hl]
    · exact absurd h (by simp [hplain])
    · exact absurd h (by simp [hplain])
  rw [Sink.appendAll_append, Sink.appendAll_append]
  exact congrArg (fun m => (sink.appendAll m after).1) hstep

lemma register_eq_ok {l : EventLog} {name : String} {opened : Except Fault Nat}
    {refusal : Nat → Option Fault} (h : register name opened refusal = .ok l) :
    opened = .ok l.handle ∧ l = ⟨l.handle, refusal, 0, #[]⟩ := by
  unfold register at h
  split at h
  · cases h
  · split at h
    · cases h
    · cases h
      exact ⟨rfl, rfl⟩

/-- **The log holds the entries that could be written, in order and in full, and nothing else.**
A text has a wide form unless it holds NUL, and the form carries the text. The host of an open
source is asked for the entries without NUL; the reports show those of them that it does not
refuse, each with the type of its level and the code of its category. Every other append is
answered with an error and leaves the reports alone, and one with NUL changes nothing. -/
theorem recorded_as_appended (name : String) (opened : Except Fault Nat)
    (refusal : Nat → Option Fault) (l : EventLog) (h : register name opened refusal = .ok l) :
    (∀ s us, wide s = .ok us ↔ Carries us s) ∧
      (∀ s, (∃ us, wide s = .ok us) ↔ '\x00' ∉ s.toList) ∧
      opened = .ok l.handle ∧
      (∀ es, (sink.appendAll l es).1.asked = count es ∧
        List.Forall₂ (Shows l.handle) (sink.appendAll l es).1.reports.toList
          (kept refusal 0 es)) ∧
      ∀ before e after,
        (sink.appendAll l (before ++ e :: after)).2[before.length]? =
            some (answer refusal (count before) e) ∧
          (answer refusal (count before) e ≠ none →
            (sink.appendAll l (before ++ [e])).1.reports = (sink.appendAll l before).1.reports) ∧
          ('\x00' ∈ e.message.toList →
            (sink.appendAll l (before ++ e :: after)).1 =
              (sink.appendAll l (before ++ after)).1) := by
  obtain ⟨hopened, hl⟩ := register_eq_ok h
  refine ⟨wide_eq_ok_iff, exists_wide_iff, hopened, ?_⟩
  generalize l.handle = handle at hl ⊢
  subst hl
  refine ⟨fun es => ?_, fun before e after => ⟨?_, ?_, ?_⟩⟩
  · obtain ⟨-, -, hasked, rs, hrs, hshow⟩ := appendAll_grown ⟨handle, refusal, 0, #[]⟩ es
    rw [List.nil_append] at hrs
    rw [Nat.zero_add] at hasked
    exact ⟨hasked, hrs ▸ hshow⟩
  · simpa using appendAll_answer ⟨handle, refusal, 0, #[]⟩ before after e
  · intro herror
    have hgrown := appendAll_grown ⟨handle, refusal, 0, #[]⟩ before
    rw [Sink.appendAll_append]
    refine append_reports (e := e) ?_
    rwa [append_answer, hgrown.refusal, hgrown.asked, Nat.zero_add]
  · intro hnul
    exact appendAll_nul _ before after (by simpa [plain] using hnul)

/-- The first text has a character of two units, the second holds NUL, and the third is the
second that the host is asked for, and the one that it refuses. -/
theorem recorded_as_appended_refused :
    let refusal (n : Nat) : Option Fault := if n = 1 then some accessDenied else none
    let l : EventLog := ⟨7, refusal, 0, #[]⟩
    let m := (sink.appendAll l [⟨.relayed, .info, "a𝄞"⟩, ⟨.relayed, .warning, "b\x00"⟩,
      ⟨.stopFailure, .error, "c"⟩, ⟨.startFailure, .warning, "d"⟩, ⟨.forwarder, .error, "e"⟩]).1
    register "svc" (.ok 7) refusal = .ok l ∧ m.asked = 4 ∧
      List.Forall₂ (Shows 7) m.reports.toList [⟨.relayed, .info, "a𝄞"⟩,
        ⟨.startFailure, .warning, "d"⟩, ⟨.forwarder, .error, "e"⟩] ∧
      m.reports.toList = [⟨7, 4, 0, 1, [[97, 0xD834, 0xDD1E, 0]]⟩, ⟨7, 2, 0, 2, [[100, 0]]⟩,
        ⟨7, 1, 0, 4, [[101, 0]]⟩] := by
  intro refusal l m
  have hopen : register "svc" (.ok 7) refusal = .ok l := by rfl
  obtain ⟨-, -, -, hrecorded, -⟩ := recorded_as_appended "svc" (.ok 7) refusal l hopen
  exact ⟨hopen, (hrecorded _).1, (hrecorded _).2, rfl⟩

end Warden.Host.EventLog
