import Mathlib.Algebra.Group.Nat.Defs
import Warden.Proofs.Text.Words
import Warden.Settings

/-!
Durations as they are written.

A duration is written as an amount between blanks, and there may be more blanks and a unit behind
the amount. These texts are the ones that are read as a duration (`parse_eq_ok_iff`), and no text is
written in two ways (`Written.text_injective`), so a unit is never taken for another.
-/

namespace Warden.Duration

open Text

def Unit.name : Unit → String
  | milli => "ms"
  | second => "s"
  | minute => "m"
  | hour => "h"

/-- A duration as it is written; a unit has blanks of its own in front of it. -/
@[ext]
structure Written where
  front : Blanks
  amount : Numeral
  unit? : Option (Blanks × Unit)
  back : Blanks

namespace Written

/-- What stands behind the amount. -/
def suffix : Option (Blanks × Unit) → List Char
  | none => []
  | some (gap, u) => gap ++ u.name.toList

def core (w : Written) : List Char := w.amount.chars ++ suffix w.unit?

def text (w : Written) : String := String.ofList (w.front ++ (w.core ++ w.back))

/-- An amount without a unit is one of seconds. -/
def unit (w : Written) : Unit := (w.unit?.map Prod.snd).getD .second

end Written

/-! ### The unit at the end -/

lemma split_amount {cs : List Char} (h : ∀ c ∈ cs.getLast?, c ∉ ['s', 'm', 'h']) :
    split cs = (cs, .second) := by
  rw [← List.head?_reverse] at h
  unfold split
  split <;> simp_all

lemma split_unit {body : List Char} {u : Unit} (h : u = .second → body.getLast? ≠ some 'm') :
    split (body ++ u.name.toList) = (trim body, u) := by
  rw [← List.head?_reverse] at h
  have hlast : body = body.reverse.reverse := (List.reverse_reverse body).symm
  unfold split
  rw [List.reverse_append]
  cases u with
  | second =>
    have hm := h rfl
    revert hm hlast
    generalize body.reverse = ds
    rintro rfl hm
    cases ds with
    | nil => rfl
    | cons c ds =>
      have hc : c ≠ 'm' := fun hc => hm (hc ▸ rfl)
      simp [Unit.name, hc]
  | _ => simp [Unit.name]

/-- A unit is taken off, or there is none. -/
lemma split_cases (cs : List Char) :
    split cs = (cs, .second) ∨
      ∃ (body : List Char) (u : Unit), cs = body ++ u.name.toList ∧ split cs = (trim body, u) := by
  have hcs {ds : List Char} (ending : List Char) (h : cs.reverse = ending ++ ds) :
      cs = ds.reverse ++ ending.reverse := by
    rw [← List.reverse_append, ← h, List.reverse_reverse]
  unfold split
  split
  next ds h => exact .inr ⟨ds.reverse, .milli, hcs ['s', 'm'] h, rfl⟩
  next ds _ h => exact .inr ⟨ds.reverse, .second, hcs ['s'] h, rfl⟩
  next ds h => exact .inr ⟨ds.reverse, .minute, hcs ['m'] h, rfl⟩
  next ds h => exact .inr ⟨ds.reverse, .hour, hcs ['h'] h, rfl⟩
  next => exact .inl rfl

/-! ### Reading what is written -/

lemma numeral_no_unit {n : Numeral} {c : Char} (hc : c ∈ n.chars) : c ∉ ['s', 'm', 'h'] := by
  have hrange := n.chars_range c hc
  intro hmem
  simp only [List.mem_cons, List.not_mem_nil, or_false] at hmem
  rcases hmem with rfl | rfl | rfl <;> exact absurd hrange (by decide)

lemma Unit.name_last (u : Unit) : ∃ c ∈ ['s', 'm', 'h'], u.name.toList.getLast? = some c := by
  cases u <;> exact ⟨_, by decide, rfl⟩

namespace Written

lemma head_core (w : Written) (cs : List Char) : ∀ c ∈ (w.core ++ cs).head?, isBlank c = false := by
  intro c hc
  rw [core, List.append_assoc, List.head?_append_of_ne_nil _ w.amount.chars_ne_nil] at hc
  exact w.amount.trimmed.head c hc

lemma trimmed_core (w : Written) : Trimmed w.core := by
  refine ⟨by simpa using w.head_core [], fun c hc => ?_⟩
  unfold core at hc
  cases hunit : w.unit? with
  | none =>
    rw [hunit, suffix, List.append_nil] at hc
    exact w.amount.trimmed.last c hc
  | some s =>
    obtain ⟨gap, u⟩ := s
    obtain ⟨l, hl, hlast⟩ := u.name_last
    rw [hunit, suffix, List.getLast?_append, List.getLast?_append, hlast] at hc
    obtain rfl : l = c := Option.some.inj hc
    have hletters : ∀ l ∈ ['s', 'm', 'h'], isBlank l = false := by simp [isBlank]
    exact hletters l hl

lemma trim_text (w : Written) : trim w.text.toList = w.core := by
  rw [text, String.toList_ofList]
  exact trim_around w.front w.back w.trimmed_core

lemma split_core (w : Written) : split w.core = (w.amount.chars, w.unit) := by
  unfold core unit
  cases hunit : w.unit? with
  | none =>
    rw [suffix, List.append_nil]
    exact split_amount fun c hc => numeral_no_unit (List.mem_of_mem_getLast? hc)
  | some s =>
    obtain ⟨gap, u⟩ := s
    have htrim : trim (w.amount.chars ++ gap) = w.amount.chars :=
      trim_around ⟨[], by simp⟩ gap w.amount.trimmed
    rw [suffix, ← List.append_assoc, split_unit, htrim]
    · rfl
    · -- an `m` before the `s` would stand in the amount or between blanks
      intro _ hm
      rcases List.mem_append.mp (List.mem_of_mem_getLast? hm) with hm | hm
      · exact absurd hm fun hm => numeral_no_unit hm (by decide)
      · exact absurd (gap.2 _ hm) (by decide)

lemma suffix_injective {s s' : Option (Blanks × Unit)} (h : suffix s = suffix s')
    (hunit : (s.map Prod.snd).getD .second = (s'.map Prod.snd).getD .second) : s = s' := by
  rcases s with _ | ⟨gap, u⟩ <;> rcases s' with _ | ⟨gap', u'⟩
  · rfl
  · cases u' <;> simp [suffix, Unit.name] at h
  · cases u <;> simp [suffix, Unit.name] at h
  · obtain rfl : u = u' := hunit
    rw [Subtype.ext (List.append_cancel_right h)]

/-- **No text is written in two ways.** -/
theorem text_injective {w w' : Written} (h : w.text = w'.text) : w = w' := by
  have hcore : w.core = w'.core := by rw [← w.trim_text, h, w'.trim_text]
  have hsplit : (w.amount.chars, w.unit) = (w'.amount.chars, w'.unit) := by
    rw [← w.split_core, hcore, w'.split_core]
  obtain ⟨hchars, hunit⟩ := Prod.mk.inj hsplit
  have hamount := Numeral.eq_of_chars hchars
  have hsuffix : suffix w.unit? = suffix w'.unit? := by
    rw [core, core, hchars] at hcore
    exact List.append_cancel_left hcore
  have htext : (w.front : List Char) ++ (w.core ++ w.back) = w'.front ++ (w'.core ++ w'.back) :=
    String.ofList_injective h
  have hrest : w.core ++ (w.back : List Char) = w'.core ++ w'.back := by
    rw [← trimStart_blanks w.front (w.head_core _), htext,
      trimStart_blanks w'.front (w'.head_core _)]
  rw [hrest] at htext
  rw [hcore] at hrest
  exact Written.ext (Subtype.ext (List.append_cancel_right htext)) hamount
    (suffix_injective hsuffix hunit) (Subtype.ext (List.append_cancel_left hrest))

end Written

/-- Blanks around, a numeral, and a unit if one was taken off: the text is written that way. -/
lemma exists_written {cs : List Char} {n : Numeral} (h : (split (trim cs)).1 = n.chars) :
    ∃ w : Written, cs = w.front ++ (w.core ++ w.back) ∧ w.amount = n ∧
      w.unit = (split (trim cs)).2 := by
  obtain ⟨htrimmed, front, back, hcs⟩ := (trim_eq_iff cs _).mp rfl
  rcases split_cases (trim cs) with hsplit | ⟨body, u, hbody, hsplit⟩
  · rw [hsplit] at h ⊢
    refine ⟨⟨front, n, none, back⟩, ?_, rfl, rfl⟩
    rw [Written.core, Written.suffix, List.append_nil, ← h]
    exact hcs
  · rw [hsplit] at h ⊢
    obtain ⟨-, ⟨blanks, hblanks⟩, gap, rfl⟩ := (trim_eq_iff body _).mp h
    -- the text is trimmed, so no blank stands in front of the amount
    obtain rfl : blanks = [] := by
      cases blanks with
      | nil => rfl
      | cons b bs =>
        have hhead := htrimmed.head b (by simp [hbody])
        rw [hblanks b List.mem_cons_self] at hhead
        cases hhead
    refine ⟨⟨front, n, some (gap, u), back⟩, ?_, rfl, rfl⟩
    rw [hbody] at hcs
    simpa [Written.core, Written.suffix] using hcs

/-- **What is read as a duration is what is written as one**, with an amount that fits 64 bits. -/
theorem parse_eq_ok_iff (raw : String) (d : Span) :
    parse raw = .ok d ↔ ∃ w : Written, raw = w.text ∧ w.amount.value ≤ maxWord ∧
      d = .ofMillis (min (w.amount.value * w.unit.millis) maxWord) := by
  constructor
  · intro h
    simp only [parse] at h
    split at h
    next n hword =>
      obtain ⟨amount, hchars, rfl, hfits⟩ := (word?_eq_some_iff _ _).mp hword
      obtain ⟨w, hw, rfl, hunit⟩ := exists_written hchars
      refine ⟨w, ?_, hfits, ?_⟩
      · rw [Written.text, ← hw, String.ofList_toList]
      · rw [hunit]
        exact (Except.ok.inj h).symm
    next => cases h
  · rintro ⟨w, rfl, hfits, rfl⟩
    have hword : word? w.amount.chars = some w.amount.value :=
      (word?_eq_some_iff _ _).mpr ⟨w.amount, rfl, rfl, hfits⟩
    simp only [parse, w.trim_text, w.split_core, hword]

/-- No duration is longer than 64 bits of milliseconds. -/
lemma parse_le {raw : String} {d : Span} (h : parse raw = .ok d) : d.nanos ≤ maxWord * 1000000 := by
  obtain ⟨w, -, -, rfl⟩ := (parse_eq_ok_iff raw d).mp h
  exact Nat.mul_le_mul_right 1000000 (Nat.min_le_right _ _)

lemma parse_error {raw : String} {e : ConfigError} (h : parse raw = .error e) :
    e = .invalidDuration raw := by
  simp only [parse] at h
  split at h
  · cases h
  · exact (Except.error.inj h).symm

lemma parse_text (w : Written) (h : w.amount.value ≤ maxWord) :
    parse w.text = .ok (.ofMillis (min (w.amount.value * w.unit.millis) maxWord)) :=
  (parse_eq_ok_iff _ _).mpr ⟨w, rfl, h, rfl⟩

def noBlanks : Blanks := ⟨[], List.forall_mem_nil _⟩

/-- A number of milliseconds, as it is printed. -/
def Written.ofMillis (n : Nat) : Written where
  front := noBlanks
  amount := .ofNat n
  unit? := some (noBlanks, .milli)
  back := noBlanks

lemma Written.text_ofMillis (n : Nat) : (ofMillis n).text = toString n ++ "ms" := by
  rw [← String.toList_inj]
  simp [text, core, suffix, ofMillis, noBlanks, Numeral.ofNat, Numeral.chars, Unit.name]

/-- **The durations are the texts that are written as one**: an amount between blanks, perhaps
with blanks and a unit behind it, whose value fits 64 bits. Such a text is written in one way,
and it is read as that many units of a millisecond, a second, a minute or an hour, or as the most
that fits 64 bits of milliseconds. Any other text is refused as it stands. So milliseconds come
back as they were printed, and with one unit a greater number is no shorter duration. -/
theorem parse_iff_written :
    (∀ u : Unit, (u, u.name, u.millis) ∈
      [(.milli, "ms", 1), (.second, "s", 1000), (.minute, "m", 60000), (.hour, "h", 3600000)]) ∧
    (∀ (raw : String) (d : Span), parse raw = .ok d ↔
      ∃ w : Written, raw = w.text ∧ w.amount.value ≤ 2 ^ 64 - 1 ∧
        d = .ofMillis (min (w.amount.value * w.unit.millis) (2 ^ 64 - 1))) ∧
    (∀ (raw : String) (e : ConfigError), parse raw = .error e ↔
      e = .invalidDuration raw ∧ ∀ w : Written, raw = w.text → 2 ^ 64 - 1 < w.amount.value) ∧
    (∀ w w' : Written, w.text = w'.text → w = w') ∧
    (∀ n < 2 ^ 64, parse (toString n ++ "ms") = .ok (.ofMillis n)) ∧
    (∀ (w w' : Written) (d d' : Span), parse w.text = .ok d → parse w'.text = .ok d' →
      w.unit = w'.unit → w.amount.value ≤ w'.amount.value → d.nanos ≤ d'.nanos) := by
  have hmax : maxWord = 2 ^ 64 - 1 := rfl
  rw [← hmax]
  refine ⟨fun u => ?_, parse_eq_ok_iff, fun raw e => ⟨fun h => ?_, ?_⟩,
    fun w w' => Written.text_injective, fun n hn => ?_, fun w w' d d' hd hd' hunit hle => ?_⟩
  · cases u <;> decide
  · refine ⟨parse_error h, fun w hw => ?_⟩
    by_contra hfits
    rw [hw, parse_text w (by omega)] at h
    cases h
  · rintro ⟨rfl, hnone⟩
    cases h : parse raw with
    | ok d =>
      obtain ⟨w, hw, hfits, -⟩ := (parse_eq_ok_iff raw d).mp h
      have := hnone w hw
      omega
    | error e => rw [parse_error h]
  · have hvalue : (Written.ofMillis n).amount.value = n := Numeral.value_ofNat n
    have hmillis : n * Unit.milli.millis = n := Nat.mul_one n
    have hle : n ≤ maxWord := by omega
    rw [← Written.text_ofMillis, parse_text _ (by omega), hvalue]
    show Except.ok (Span.ofMillis (min (n * Unit.milli.millis) maxWord)) = _
    rw [hmillis, Nat.min_eq_left hle]
  · obtain ⟨v, hv, -, rfl⟩ := (parse_eq_ok_iff _ d).mp hd
    obtain ⟨v', hv', -, rfl⟩ := (parse_eq_ok_iff _ d').mp hd'
    obtain rfl := Written.text_injective hv
    obtain rfl := Written.text_injective hv'
    rw [hunit]
    have hproduct : w.amount.value * w'.unit.millis ≤ w'.amount.value * w'.unit.millis :=
      Nat.mul_le_mul_right _ hle
    exact Nat.mul_le_mul_right _ (by omega)

/-- Blanks, a sign and a leading zero, and a gap in front of the unit. The greatest number of 64
bits comes back as it was printed. -/
theorem parse_iff_written_minutes :
    parse " +090 m\n" = .ok (.ofMillis 5400000) ∧ 2 ^ 64 - 1 < 2 ^ 64 ∧
      parse (toString (2 ^ 64 - 1) ++ "ms") = .ok (.ofMillis (2 ^ 64 - 1)) := by
  obtain ⟨-, hparse, -, -, hmillis, -⟩ := parse_iff_written
  have hlt : 2 ^ 64 - 1 < 2 ^ 64 := by decide
  let w : Written :=
    ⟨⟨[' '], by simp [isBlank]⟩, ⟨true, ['0', '9', '0'], by simp, by simp⟩,
      some (⟨[' '], by simp [isBlank]⟩, .minute), ⟨['\n'], by simp [isBlank]⟩⟩
  exact ⟨(hparse _ _).mpr ⟨w, rfl, by decide, by decide⟩, hlt, hmillis _ hlt⟩

end Warden.Duration
