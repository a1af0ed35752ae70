import Mathlib.Data.List.TakeWhile
import Mathlib.Tactic.Common
import Warden.Log.Line

/-!
Lines with a heading.

A heading is a stamp of digits and a word, each followed by one space. The texts of headings are the
language of the prefix: a line has a word exactly if it opens with a heading, and it opens with one
at most (`prefixWord?_eq_some_iff`, `Heading.unique`). So the heading alone decides the severity of
a line, whatever stands behind it.
-/

namespace Warden.Log

/-! ### Headings -/

/-- A number of decimal digits. -/
abbrev Digits (n : Nat) : Type :=
  { ds : List Char // ds.length = n ∧ ∀ d ∈ ds, '0' ≤ d ∧ d ≤ '9' }

/-- A date and a time; any digits will do. -/
@[ext]
structure Stamp where
  year : Digits 4
  month : Digits 2
  day : Digits 2
  hour : Digits 2
  minute : Digits 2
  second : Digits 2

def Stamp.chars (s : Stamp) : List Char :=
  s.year ++ '/' :: (s.month ++ '/' :: (s.day ++ ' ' ::
    (s.hour ++ ':' :: (s.minute ++ ':' :: (s.second ++ [' '])))))

/-- The letters and digits of ASCII, and the underscore. -/
def InWord (c : Char) : Prop :=
  ('A' ≤ c ∧ c ≤ 'Z') ∨ ('a' ≤ c ∧ c ≤ 'z') ∨ ('0' ≤ c ∧ c ≤ '9') ∨ c = '_'

instance (c : Char) : Decidable (InWord c) := inferInstanceAs (Decidable (_ ∨ _ ∨ _ ∨ _))

/-- What a line may open with. -/
@[ext]
structure Heading where
  stamp : Stamp
  word : String
  word_ne : word.toList ≠ []
  word_chars : ∀ c ∈ word.toList, InWord c

def Heading.chars (h : Heading) : List Char := h.stamp.chars ++ (h.word.toList ++ [' '])

def Heading.text (h : Heading) : String := String.ofList h.chars

/-- The name of a severity, in capitals. -/
def Severity.name? : Severity → Option String
  | trace => some "TRACE"
  | debug => some "DEBUG"
  | info => some "INFO"
  | warning => some "WARNING"
  | error => some "ERROR"
  | critical => some "CRITICAL"
  | unknown => none

/-- What a word stands for: the severity of that name, and an unknown one if there is none. -/
def Severity.Named (s : Severity) (w : String) : Prop :=
  s.name? = some w ∨ s = unknown ∧ ∀ t : Severity, t.name? ≠ some w

/-! ### Characters -/

lemma isWordChar_iff (c : Char) : isWordChar c = true ↔ InWord c := by
  have hupper : c.isUpper = true ↔ 'A' ≤ c ∧ c ≤ 'Z' := decide_eq_true_iff
  have hlower : c.isLower = true ↔ 'a' ≤ c ∧ c ≤ 'z' :=
    Bool.and_eq_true_iff.trans (and_congr decide_eq_true_iff decide_eq_true_iff)
  have hdigit : c.isDigit = true ↔ '0' ≤ c ∧ c ≤ '9' := Char.isDigit_iff_toNat
  calc isWordChar c = true
      ↔ (c.isUpper || c.isLower || c.isDigit || c == '_') = true := Iff.rfl
    _ ↔ InWord c := by
      simp only [InWord, Bool.or_eq_true, beq_iff_eq, hupper, hlower, hdigit, or_assoc]

/-! ### Stamps -/

lemma Digits.append_inj {n : Nat} {ds ds' : Digits n} {cs cs' : List Char}
    (h : (ds : List Char) ++ cs = ds' ++ cs') : ds = ds' ∧ cs = cs' := by
  obtain ⟨hds, hcs⟩ := List.append_inj h (ds.2.1.trans ds'.2.1.symm)
  exact ⟨Subtype.ext hds, hcs⟩

lemma Stamp.append_inj {s s' : Stamp} {cs cs' : List Char}
    (h : s.chars ++ cs = s'.chars ++ cs') : s = s' ∧ cs = cs' := by
  simp only [Stamp.chars, List.append_assoc, List.cons_append] at h
  obtain ⟨hyear, h⟩ := Digits.append_inj h
  obtain ⟨hmonth, h⟩ := Digits.append_inj (List.cons.inj h).2
  obtain ⟨hday, h⟩ := Digits.append_inj (List.cons.inj h).2
  obtain ⟨hhour, h⟩ := Digits.append_inj (List.cons.inj h).2
  obtain ⟨hminute, h⟩ := Digits.append_inj (List.cons.inj h).2
  obtain ⟨hsecond, h⟩ := Digits.append_inj (List.cons.inj h).2
  exact ⟨Stamp.ext hyear hmonth hday hhour hminute hsecond, (List.cons.inj h).2⟩

lemma afterShape_nil (cs rest : List Char) : afterShape [] cs = some rest ↔ cs = rest := by
  rw [afterShape, Option.some.injEq]

lemma afterShape_literal {p : Char} (hp : p ≠ 'd') (ps cs rest : List Char) :
    afterShape (p :: ps) cs = some rest ↔
      ∃ cs', cs = p :: cs' ∧ afterShape ps cs' = some rest := by
  cases cs with
  | nil => simp [afterShape]
  | cons c cs =>
    rw [afterShape, if_neg hp]
    by_cases hc : c = p
    · simp [hc]
    · simp [hc]

/-- A row of `d`s takes as many digits. -/
lemma afterShape_digits (n : Nat) (ps cs rest : List Char) :
    afterShape (List.replicate n 'd' ++ ps) cs = some rest ↔
      ∃ (ds : Digits n) (cs' : List Char), cs = ds ++ cs' ∧ afterShape ps cs' = some rest := by
  induction n generalizing cs with
  | zero =>
    constructor
    · intro h
      exact ⟨⟨[], rfl, by simp⟩, cs, rfl, h⟩
    · rintro ⟨⟨ds, hlen, -⟩, cs', rfl, h⟩
      obtain rfl := List.length_eq_zero_iff.mp hlen
      exact h
  | succ n ih =>
    cases cs with
    | nil =>
      refine ⟨fun h => by simp [List.replicate_succ, afterShape] at h, ?_⟩
      rintro ⟨⟨ds, hlen, _⟩, cs', hnil, _⟩
      obtain rfl : ds = [] := (List.append_eq_nil_iff.mp hnil.symm).1
      cases hlen
    | cons c cs =>
      rw [List.replicate_succ, List.cons_append, afterShape, if_pos rfl]
      constructor
      · intro h
        split at h
        · rename_i hc
          obtain ⟨⟨ds, hlen, hds⟩, cs', rfl, hrest⟩ := (ih cs).mp h
          refine ⟨⟨c :: ds, by simp [hlen], ?_⟩, cs', rfl, hrest⟩
          exact List.forall_mem_cons.mpr ⟨Char.isDigit_iff_toNat.mp hc, hds⟩
        · cases h
      · rintro ⟨⟨ds, hlen, hds⟩, cs', hcs, hrest⟩
        cases ds with
        | nil => cases hlen
        | cons d ds =>
          obtain ⟨rfl, rfl⟩ := List.cons.inj hcs
          obtain ⟨hc, hds⟩ := List.forall_mem_cons.mp hds
          rw [if_pos (Char.isDigit_iff_toNat.mpr hc)]
          exact (ih _).mpr ⟨⟨ds, by simpa using hlen, hds⟩, cs', rfl, hrest⟩

/-- The shape of a stamp is that of its text. -/
lemma afterShape_stampShape (cs rest : List Char) :
    afterShape stampShape cs = some rest ↔ ∃ s : Stamp, cs = s.chars ++ rest := by
  have hshape : stampShape = List.replicate 4 'd' ++ '/' :: (List.replicate 2 'd' ++ '/' ::
      (List.replicate 2 'd' ++ ' ' :: (List.replicate 2 'd' ++ ':' ::
        (List.replicate 2 'd' ++ ':' :: (List.replicate 2 'd' ++ [' ']))))) := rfl
  have hslash : '/' ≠ 'd' := by decide
  have hspace : ' ' ≠ 'd' := by decide
  have hcolon : ':' ≠ 'd' := by decide
  simp only [hshape, afterShape_digits, afterShape_literal hslash, afterShape_literal hspace,
    afterShape_literal hcolon, afterShape_nil]
  constructor
  · rintro ⟨year, _, rfl, _, rfl, month, _, rfl, _, rfl, day, _, rfl, _, rfl, hour, _, rfl, _, rfl,
      minute, _, rfl, _, rfl, second, _, rfl, _, rfl, rfl⟩
    exact ⟨⟨year, month, day, hour, minute, second⟩, by simp [Stamp.chars]⟩
  · rintro ⟨s, rfl⟩
    refine ⟨s.year, _, ?_, _, rfl, s.month, _, rfl, _, rfl, s.day, _, rfl, _, rfl, s.hour, _, rfl, _,
      rfl, s.minute, _, rfl, _, rfl, s.second, _, rfl, _, rfl, rfl⟩
    simp [Stamp.chars]

/-! ### Words -/

/-- A word goes on up to the first character that cannot be in it. -/
lemma span_word {w : List Char} (hw : ∀ c ∈ w, InWord c) (rest : List Char) :
    (w ++ ' ' :: rest).takeWhile isWordChar = w ∧
      (w ++ ' ' :: rest).dropWhile isWordChar = ' ' :: rest := by
  have hchars : ∀ c ∈ w, isWordChar c = true := fun c hc => (isWordChar_iff c).mpr (hw c hc)
  have hspace : isWordChar ' ' = false := by decide
  rw [List.takeWhile_append_of_pos hchars, List.dropWhile_append_of_pos hchars]
  simp [hspace]

/-- The word of a line is the word of its heading. -/
theorem prefixWord?_eq_some_iff (raw : String) (w : List Char) :
    prefixWord? raw.toList = some w ↔
      ∃ (h : Heading) (rest : String), raw = h.text ++ rest ∧ h.word.toList = w := by
  constructor
  · intro hword
    unfold prefixWord? at hword
    cases hstamp : afterShape stampShape raw.toList with
    | none => simp [hstamp] at hword
    | some cs =>
      obtain ⟨s, hraw⟩ := (afterShape_stampShape _ _).mp hstamp
      simp only [hstamp] at hword
      split at hword
      · rename_i c ws rest htake hdrop
        obtain rfl : c :: ws = w := Option.some.inj hword
        have hcs : cs = (c :: ws) ++ ' ' :: rest := by
          rw [← htake, ← hdrop, List.takeWhile_append_dropWhile]
        have hchars : ∀ d ∈ c :: ws, InWord d := by
          intro d hd
          rw [← htake] at hd
          exact (isWordChar_iff d).mp (List.mem_takeWhile_imp hd)
        refine ⟨⟨s, String.ofList (c :: ws), by simp, by simpa using hchars⟩, String.ofList rest, ?_,
          String.toList_ofList⟩
        rw [← String.toList_inj, hraw, hcs]
        simp [Heading.text, Heading.chars]
      · cases hword
  · rintro ⟨h, rest, rfl, rfl⟩
    have htext : (h.text ++ rest).toList =
        h.stamp.chars ++ (h.word.toList ++ ' ' :: rest.toList) := by
      simp [Heading.text, Heading.chars]
    have hstamp := (afterShape_stampShape (h.text ++ rest).toList _).mpr ⟨h.stamp, htext⟩
    obtain ⟨htake, hdrop⟩ := span_word h.word_chars rest.toList
    obtain ⟨c, ws, hw⟩ := List.exists_cons_of_ne_nil h.word_ne
    unfold prefixWord?
    simp only [hstamp, htake, hdrop]
    rw [hw]
    rfl

/-- A line opens with one heading at most. -/
theorem Heading.unique {h h' : Heading} {rest rest' : String}
    (heq : h.text ++ rest = h'.text ++ rest') : h = h' ∧ rest = rest' := by
  have hword : h.word.toList = h'.word.toList := by
    have hfound := (prefixWord?_eq_some_iff (h.text ++ rest) _).mpr ⟨h, rest, rfl, rfl⟩
    have hfound' := (prefixWord?_eq_some_iff (h.text ++ rest) _).mpr ⟨h', rest', heq, rfl⟩
    exact Option.some.inj (hfound.symm.trans hfound')
  have hchars : h.stamp.chars ++ (h.word.toList ++ ' ' :: rest.toList) =
      h'.stamp.chars ++ (h'.word.toList ++ ' ' :: rest'.toList) := by
    simpa [Heading.text, Heading.chars] using congrArg String.toList heq
  obtain ⟨hstamp, hbehind⟩ := Stamp.append_inj hchars
  rw [hword] at hbehind
  have hrest := (List.cons.inj (List.append_cancel_left hbehind)).2
  exact ⟨Heading.ext hstamp (String.toList_inj.mp hword), String.toList_inj.mp hrest⟩

/-! ### Severities -/

lemma Severity.ofWord_eq_iff (w : String) (s : Severity) : ofWord w = s ↔ s.Named w := by
  unfold ofWord Named
  constructor
  · rintro rfl
    split_ifs with h₁ h₂ h₃ h₄ h₅ h₆
    · exact .inl (congrArg some h₁.symm)
    · exact .inl (congrArg some h₂.symm)
    · exact .inl (congrArg some h₃.symm)
    · exact .inl (congrArg some h₄.symm)
    · exact .inl (congrArg some h₅.symm)
    · exact .inl (congrArg some h₆.symm)
    · refine .inr ⟨rfl, fun t ht => ?_⟩
      cases t <;> simp_all [name?]
  · rintro (hname | ⟨rfl, hnone⟩)
    · cases s <;> cases hname <;> rfl
    · rw [if_neg fun h => hnone .trace (congrArg some h.symm),
        if_neg fun h => hnone .debug (congrArg some h.symm),
        if_neg fun h => hnone .info (congrArg some h.symm),
        if_neg fun h => hnone .warning (congrArg some h.symm),
        if_neg fun h => hnone .error (congrArg some h.symm),
        if_neg fun h => hnone .critical (congrArg some h.symm)]

/-- The heading of a line decides its severity. -/
theorem severity?_eq_some_iff (raw : String) (s : Severity) :
    severity? raw = some s ↔
      ∃ (h : Heading) (rest : String), raw = h.text ++ rest ∧ s.Named h.word := by
  rw [severity?, Option.map_eq_some_iff]
  constructor
  · rintro ⟨w, hw, hs⟩
    obtain ⟨h, rest, hraw, rfl⟩ := (prefixWord?_eq_some_iff raw w).mp hw
    rw [String.ofList_toList] at hs
    exact ⟨h, rest, hraw, (Severity.ofWord_eq_iff h.word s).mp hs⟩
  · rintro ⟨h, rest, hraw, hs⟩
    refine ⟨h.word.toList, (prefixWord?_eq_some_iff raw _).mpr ⟨h, rest, hraw, rfl⟩, ?_⟩
    rw [String.ofList_toList]
    exact (Severity.ofWord_eq_iff h.word s).mpr hs

lemma severity?_heading (h : Heading) (rest : String) :
    severity? (h.text ++ rest) = some (Severity.ofWord h.word) :=
  (severity?_eq_some_iff _ _).mpr ⟨h, rest, rfl, (Severity.ofWord_eq_iff h.word _).mp rfl⟩

/-! ### Levels -/

lemma Severity.ofWord_level_info (w : String) :
    (ofWord w).level = .info ↔ w ∈ ["TRACE", "DEBUG", "INFO"] := by
  unfold ofWord
  split_ifs <;> simp_all [level]

lemma Severity.ofWord_level_warning (w : String) : (ofWord w).level = .warning ↔ w = "WARNING" := by
  unfold ofWord
  split_ifs <;> simp_all [level]

lemma Line.level_heading (h : Heading) (rest : String) :
    (classify (h.text ++ rest)).level = (Severity.ofWord h.word).level := by
  rw [level, classify, severity?_heading]
  rfl

/-- A line has a level other than that of errors only by its heading. -/
lemma Line.level_eq_iff {v : Level} (hv : v ≠ .error) (raw : String) :
    (classify raw).level = v ↔
      ∃ (h : Heading) (rest : String), raw = h.text ++ rest ∧ (Severity.ofWord h.word).level = v := by
  constructor
  · intro hlevel
    cases hs : severity? raw with
    | none =>
      rw [level, classify, hs] at hlevel
      exact absurd hlevel.symm hv
    | some s =>
      obtain ⟨h, rest, rfl, -⟩ := (severity?_eq_some_iff raw s).mp hs
      exact ⟨h, rest, rfl, Line.level_heading h rest ▸ hlevel⟩
  · rintro ⟨h, rest, rfl, hlevel⟩
    rw [Line.level_heading, hlevel]

/-- **A line is classified by its heading.** It has a severity exactly if it opens with a
heading, and then it opens with no other one. The severity is the one that the heading's word
names, in capitals, and unknown if it names none; what stands behind the heading changes nothing.
Only headings that name a severity below errors keep a line from being recorded as an error. -/
theorem heading_decides (raw : String) :
    (Line.classify raw).raw = raw ∧
    ((Line.classify raw).severity.isSome ↔ ∃ (h : Heading) (rest : String), raw = h.text ++ rest) ∧
    (∀ (h : Heading) (rest : String), raw = h.text ++ rest →
      (∀ (h' : Heading) (rest' : String), raw = h'.text ++ rest' → h' = h ∧ rest' = rest) ∧
      (∀ s : Severity, (Line.classify raw).severity = some s ↔ s.Named h.word) ∧
      ∀ more : String, (Line.classify (raw ++ more)).severity = (Line.classify raw).severity ∧
        (Line.classify (raw ++ more)).level = (Line.classify raw).level) ∧
    ((Line.classify raw).level = .info ↔ ∃ (h : Heading) (rest : String),
      raw = h.text ++ rest ∧ h.word ∈ ["TRACE", "DEBUG", "INFO"]) ∧
    ((Line.classify raw).level = .warning ↔ ∃ (h : Heading) (rest : String),
      raw = h.text ++ rest ∧ h.word = "WARNING") ∧
    ((Line.classify raw).level = .error ↔ ∀ (h : Heading) (rest : String),
      raw = h.text ++ rest → h.word ∉ ["TRACE", "DEBUG", "INFO", "WARNING"]) := by
  have hinfo : (Line.classify raw).level = .info ↔ ∃ (h : Heading) (rest : String),
      raw = h.text ++ rest ∧ h.word ∈ ["TRACE", "DEBUG", "INFO"] := by
    simp only [Line.level_eq_iff (v := .info) (by decide), Severity.ofWord_level_info]
  have hwarning : (Line.classify raw).level = .warning ↔ ∃ (h : Heading) (rest : String),
      raw = h.text ++ rest ∧ h.word = "WARNING" := by
    simp only [Line.level_eq_iff (v := .warning) (by decide), Severity.ofWord_level_warning]
  refine ⟨rfl, ?_, ?_, hinfo, hwarning, ?_⟩
  · constructor
    · intro hsome
      obtain ⟨s, hs⟩ := Option.isSome_iff_exists.mp hsome
      obtain ⟨h, rest, hraw, -⟩ := (severity?_eq_some_iff raw s).mp hs
      exact ⟨h, rest, hraw⟩
    · rintro ⟨h, rest, hraw⟩
      exact Option.isSome_iff_exists.mpr ⟨_, hraw ▸ severity?_heading h rest⟩
  · rintro h rest rfl
    have hs : (Line.classify (h.text ++ rest)).severity = some (Severity.ofWord h.word) :=
      severity?_heading h rest
    refine ⟨fun h' rest' hraw => ?_, fun s => ?_, fun more => ⟨?_, ?_⟩⟩
    · obtain ⟨hh, hrest⟩ := Heading.unique hraw
      exact ⟨hh.symm, hrest.symm⟩
    · rw [hs, Option.some.injEq, Severity.ofWord_eq_iff]
    · rw [hs, String.append_assoc]
      exact severity?_heading h (rest ++ more)
    · rw [String.append_assoc, Line.level_heading, Line.level_heading]
  · -- an error is what is neither of the other two
    have herror (v : Level) : v = .error ↔ ¬ v = .info ∧ ¬ v = .warning := by
      cases v <;> simp
    rw [herror, hinfo, hwarning]
    simp only [List.mem_cons, List.not_mem_nil, or_false]
    grind

/-- A word that names no severity, although there is one that is called so, and the same line with a
digit that is not one of ASCII. -/
theorem heading_decides_unknown :
    let raw := "2024/10/10 10:10:10 UNKNOWN x"
    (Line.classify raw).severity = some .unknown ∧ (Line.classify raw).level = .error ∧
      (Line.classify "2024/10/10 10:10:1\u0660 INFO x").severity = none := by
  intro raw
  let digits : Digits 2 := ⟨['1', '0'], by simp⟩
  let h : Heading := ⟨⟨⟨['2', '0', '2', '4'], by simp⟩, digits, digits, digits, digits, digits⟩,
    "UNKNOWN", by decide, by simp [InWord]⟩
  have hraw : raw = h.text ++ "x" := by decide
  have hunknown : Severity.Named .unknown h.word := .inr ⟨rfl, fun t => by cases t <;> decide⟩
  obtain ⟨-, -, hheading, -, -, herror⟩ := heading_decides raw
  obtain ⟨hunique, hseverity, -⟩ := hheading h "x" hraw
  refine ⟨(hseverity .unknown).mpr hunknown, herror.mpr fun h' rest' hraw' => ?_, by decide⟩
  rw [(hunique h' rest' hraw').1]
  decide

end Warden.Log
