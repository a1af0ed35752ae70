import Mathlib.Data.List.DropRight
import Mathlib.Data.List.TakeWhile
import Mathlib.Tactic.Common
import Warden.Text.Blank
import Warden.Text.Numeral

/-!
What is left of a text without the blanks around it, and what of that is a number.

Trimming leaves the one part of a text that has no blank at either end and nothing but blanks around
it (`trim_eq_iff`). The texts of numerals are just what is read as a number
(`numeral?_eq_some_iff`), and the numerals whose value fits are what is read as a word.
-/

namespace Warden.Text

/-! ### Blanks -/

/-- White space. -/
abbrev Blanks : Type := { cs : List Char // ∀ c ∈ cs, isBlank c = true }

/-- There is no blank at either end. -/
structure Trimmed (cs : List Char) : Prop where
  head : ∀ c ∈ cs.head?, isBlank c = false
  last : ∀ c ∈ cs.getLast?, isBlank c = false

lemma trimEnd_eq (cs : List Char) : trimEnd cs = cs.rdropWhile isBlank := rfl

lemma trimStart_blanks (bs : Blanks) {cs : List Char} (h : ∀ c ∈ cs.head?, isBlank c = false) :
    trimStart (bs ++ cs) = cs := by
  rw [trimStart, List.dropWhile_append_of_pos bs.2]
  cases cs with
  | nil => rfl
  | cons c cs => exact List.dropWhile_cons_of_neg (by simp [h c rfl])

lemma trimEnd_blanks (bs : Blanks) {cs : List Char} (h : ∀ c ∈ cs.getLast?, isBlank c = false) :
    trimEnd (cs ++ bs) = cs := by
  have hback : ∀ c ∈ (bs : List Char).reverse, isBlank c = true := fun c hc =>
    bs.2 c (List.mem_reverse.mp hc)
  have hstart : trimStart ((bs : List Char).reverse ++ cs.reverse) = cs.reverse :=
    trimStart_blanks ⟨_, hback⟩ (by rwa [List.head?_reverse])
  rw [trimStart] at hstart
  rw [trimEnd, List.reverse_append, hstart, List.reverse_reverse]

lemma trim_around (front back : Blanks) {core : List Char} (h : Trimmed core) :
    trim (front ++ (core ++ back)) = core := by
  cases core with
  | nil =>
    have hblank : ∀ c ∈ (front : List Char) ++ back, isBlank c = true :=
      List.forall_mem_append.mpr ⟨front.2, back.2⟩
    rw [trim, List.nil_append, trimStart, List.dropWhile_eq_nil_iff.mpr hblank]
    rfl
  | cons c cs =>
    rw [trim, trimStart_blanks front (by simpa using h.head c rfl), trimEnd_blanks back h.last]

lemma trimmed_trim (cs : List Char) : Trimmed (trim cs) := by
  refine ⟨fun c hc => ?_, fun c hc => ?_⟩
  · obtain ⟨behind, hbehind⟩ := List.rdropWhile_prefix (p := isBlank) (l := trimStart cs)
    obtain ⟨rest, hrest⟩ := List.head?_eq_some_iff.mp hc
    have hhead := List.head?_dropWhile_not isBlank cs
    rw [← trimStart, ← hbehind, ← trimEnd_eq, ← trim, hrest] at hhead
    exact hhead
  · have hne : trim cs ≠ [] := by
      intro hnil
      rw [hnil] at hc
      cases hc
    obtain rfl : (trim cs).getLast hne = c := by
      rw [List.getLast?_eq_some_getLast hne] at hc
      exact Option.some.inj hc
    exact Bool.eq_false_iff.mpr (List.rdropWhile_last_not isBlank (trimStart cs) hne)

/-- **Trimming takes off the blanks at the ends and nothing else.** -/
theorem trim_eq_iff (cs core : List Char) :
    trim cs = core ↔ Trimmed core ∧ ∃ front back : Blanks, cs = front ++ (core ++ back) := by
  constructor
  · rintro rfl
    refine ⟨trimmed_trim cs, ⟨cs.takeWhile isBlank, fun _ => List.mem_takeWhile_imp⟩,
      ⟨(trimStart cs).rtakeWhile isBlank, fun _ => List.mem_rtakeWhile_imp⟩, ?_⟩
    rw [trim, trimEnd_eq, List.rdropWhile_append_rtakeWhile, trimStart,
      List.takeWhile_append_dropWhile]
  · rintro ⟨hcore, front, back, rfl⟩
    exact trim_around front back hcore

lemma Trimmed.trim_eq {cs : List Char} (h : Trimmed cs) : trim cs = cs := by
  refine (trim_eq_iff cs cs).mpr ⟨h, ⟨[], ?_⟩, ⟨[], ?_⟩, ?_⟩ <;> simp

lemma trimmed_trimmed (s : String) : trimmed (trimmed s) = trimmed s := by
  rw [trimmed, trimmed, String.toList_ofList, (trimmed_trim _).trim_eq]

/-! ### Numerals -/

/-- A plus sign, if there is one, and digits. -/
@[ext]
structure Numeral where
  plus : Bool
  digits : List Char
  digits_ne : digits ≠ []
  digits_range : ∀ d ∈ digits, '0' ≤ d ∧ d ≤ '9'

namespace Numeral

def chars (n : Numeral) : List Char := if n.plus then '+' :: n.digits else n.digits

def value (n : Numeral) : Nat := Nat.ofDigitChars 10 n.digits 0

/-- The numeral of a number, without a sign and without leading zeros. -/
def ofNat (n : Nat) : Numeral where
  plus := false
  digits := Nat.toDigits 10 n
  digits_ne := Nat.toDigits_ne_nil
  digits_range _ hd :=
    Char.isDigit_iff_toNat.mp (Nat.isDigit_of_mem_toDigits (by decide) (by decide) hd)

lemma value_ofNat (n : Nat) : (ofNat n).value = n := Nat.ofDigitChars_ten_toDigits

lemma unsigned_chars (n : Numeral) : unsigned n.chars = n.digits := by
  obtain ⟨plus, digits, hne, hdigits⟩ := n
  cases plus with
  | true => rfl
  | false =>
    cases digits with
    | nil => exact absurd rfl hne
    | cons d ds =>
      have hd : d ≠ '+' := by
        rintro rfl
        exact absurd (hdigits '+' List.mem_cons_self) (by decide)
      simp [chars, unsigned, hd]

lemma eq_of_chars {n n' : Numeral} (h : n.chars = n'.chars) : n = n' := by
  have hdigits : n.digits = n'.digits := by rw [← n.unsigned_chars, h, n'.unsigned_chars]
  refine Numeral.ext ?_ hdigits
  unfold chars at h
  rw [hdigits] at h
  cases hn : n.plus <;> cases hn' : n'.plus <;> simp [hn, hn'] at h <;> rfl

lemma chars_ne_nil (n : Numeral) : n.chars ≠ [] := by
  unfold chars
  split
  · exact List.cons_ne_nil _ _
  · exact n.digits_ne

lemma chars_range (n : Numeral) : ∀ c ∈ n.chars, c = '+' ∨ '0' ≤ c ∧ c ≤ '9' := by
  intro c hc
  unfold chars at hc
  split at hc
  · rcases List.mem_cons.mp hc with rfl | hc
    · exact .inl rfl
    · exact .inr (n.digits_range c hc)
  · exact .inr (n.digits_range c hc)

lemma not_blank (n : Numeral) : ∀ c ∈ n.chars, isBlank c = false := by
  intro c hc
  rcases n.chars_range c hc with rfl | ⟨hlo, hhi⟩
  · decide
  · have hlo : 48 ≤ c.toNat := hlo
    have hhi : c.toNat ≤ 57 := hhi
    simp [isBlank]
    omega

/-- There is nothing to trim of a numeral. -/
lemma trimmed (n : Numeral) : Trimmed n.chars :=
  ⟨fun c hc => n.not_blank c (List.mem_of_mem_head? hc),
    fun c hc => n.not_blank c (List.mem_of_mem_getLast? hc)⟩

end Numeral

lemma unsigned_cases (cs : List Char) : cs = '+' :: unsigned cs ∨ cs = unsigned cs := by
  unfold unsigned
  split
  · exact .inl rfl
  · exact .inr rfl

/-- **What is read as a number is a numeral.** -/
theorem numeral?_eq_some_iff (cs : List Char) (v : Nat) :
    numeral? cs = some v ↔ ∃ n : Numeral, cs = n.chars ∧ n.value = v := by
  constructor
  · intro h
    rw [numeral?, Option.ite_none_left_eq_some] at h
    obtain ⟨hdigits, hvalue⟩ := h
    rw [Bool.or_eq_true, not_or, List.isEmpty_iff, Bool.not_eq_true', Bool.not_eq_false,
      List.all_eq_true] at hdigits
    have hrange : ∀ d ∈ unsigned cs, '0' ≤ d ∧ d ≤ '9' := fun d hd =>
      Char.isDigit_iff_toNat.mp (hdigits.2 d hd)
    rcases unsigned_cases cs with hcs | hcs
    · exact ⟨⟨true, unsigned cs, hdigits.1, hrange⟩, hcs, Option.some.inj hvalue⟩
    · exact ⟨⟨false, unsigned cs, hdigits.1, hrange⟩, hcs, Option.some.inj hvalue⟩
  · rintro ⟨n, rfl, rfl⟩
    have hdigits : n.digits.all Char.isDigit = true :=
      List.all_eq_true.mpr fun d hd => Char.isDigit_iff_toNat.mpr (n.digits_range d hd)
    simp only [numeral?, n.unsigned_chars]
    rw [hdigits, if_neg (by simpa using n.digits_ne)]
    rfl

theorem word?_eq_some_iff (cs : List Char) (v : Nat) :
    word? cs = some v ↔ ∃ n : Numeral, cs = n.chars ∧ n.value = v ∧ v ≤ maxWord := by
  rw [word?, Option.filter_eq_some_iff, numeral?_eq_some_iff, decide_eq_true_eq]
  constructor
  · rintro ⟨⟨n, hchars, hvalue⟩, hle⟩
    exact ⟨n, hchars, hvalue, hle⟩
  · rintro ⟨n, hchars, hvalue, hle⟩
    exact ⟨⟨n, hchars, hvalue⟩, hle⟩

end Warden.Text
