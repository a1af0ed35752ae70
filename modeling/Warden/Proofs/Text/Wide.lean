import Warden.Proofs.Text.Sequences
import Warden.Text.Units

/-!
Sixteen-bit units and the texts that they stand for.

Units are read one by one: a unit that is no surrogate is a character, a high surrogate and a low
one behind it are another, and a surrogate that stands otherwise is none. What is read from the
units of a text is the text, and no other units are read as it (`ofUnits?_eq_some_iff`). Only NUL
has a zero unit, so the zero behind a wide text is the only one in it, and whoever stops there has
read the whole text (`wide?_eq_some_iff`).
-/

namespace Warden.Text

/-! ### One character -/

/-- A character is no surrogate. -/
lemma toNat_range (c : Char) :
    c.toNat < 0xD800 ∨ 0xE000 ≤ c.toNat ∧ c.toNat < 0x110000 := by
  have hvalid : c.toNat < 0xD800 ∨ 0xDFFF < c.toNat ∧ c.toNat < 0x110000 := c.valid
  omega

lemma charUnits_cases (c : Char) :
    charUnits c = [c.toNat] ∧ c.toNat < 0x10000 ∨
      ∃ u v, charUnits c = [u, v] ∧ isHigh u = true ∧ isLow v = true ∧ ofPair u v = c := by
  have hrange := toNat_range c
  unfold charUnits
  split
  · next hsmall => exact .inl ⟨rfl, hsmall⟩
  · next hlarge =>
    refine .inr ⟨_, _, rfl, ?_, ?_, ?_⟩
    · simp only [isHigh, Bool.and_eq_true, decide_eq_true_eq]
      omega
    · simp only [isLow, Bool.and_eq_true, decide_eq_true_eq]
      omega
    · have hwhole : 0x10000 + (0xD800 + (c.toNat - 0x10000) / 0x400 - 0xD800) * 0x400 +
          (0xDC00 + (c.toNat - 0x10000) % 0x400 - 0xDC00) = c.toNat := by omega
      rw [ofPair, hwhole, Char.ofNat_toNat]

lemma ofUnits?_charUnits (c : Char) (us : List Nat) :
    ofUnits? (charUnits c ++ us) = (ofUnits? us).map (c :: ·) := by
  have hrange := toNat_range c
  obtain ⟨hunits, hsmall⟩ | ⟨u, v, hunits, hu, hv, hc⟩ := charUnits_cases c
  · have hhigh : isHigh c.toNat = false := by simp [isHigh]; omega
    have hlow : (isLow c.toNat || decide (0x10000 ≤ c.toNat)) = false := by simp [isLow]; omega
    rw [hunits, List.singleton_append, ofUnits?.eq_def]
    simp only [hhigh, hlow, Char.ofNat_toNat, Bool.false_eq_true, if_false]
  · rw [hunits, List.cons_append, List.singleton_append, ofUnits?, if_pos hu]
    simp only [hv, hc, if_true]

/-- The units of the character of a pair. -/
lemma charUnits_ofPair {u v : Nat} (hu : isHigh u = true) (hv : isLow v = true) :
    charUnits (ofPair u v) = [u, v] := by
  simp only [isHigh, isLow, Bool.and_eq_true, decide_eq_true_eq] at hu hv
  have hvalid : (0x10000 + (u - 0xD800) * 0x400 + (v - 0xDC00)).isValidChar := .inr (by omega)
  have hcode : (ofPair u v).toNat = 0x10000 + (u - 0xD800) * 0x400 + (v - 0xDC00) :=
    (Utf8.eq_ofNat_iff hvalid _).mp rfl
  rw [charUnits, hcode, if_neg (by omega)]
  simp only [List.cons.injEq, and_true]
  omega

lemma charUnits_ofNat {u : Nat} (hu : isHigh u = false)
    (hv : (isLow u || decide (0x10000 ≤ u)) = false) : charUnits (Char.ofNat u) = [u] := by
  simp only [isHigh, isLow, Bool.and_eq_false_iff, Bool.or_eq_false_iff, decide_eq_false_iff_not]
    at hu hv
  have hvalid : u.isValidChar := by unfold Nat.isValidChar; omega
  have hcode : (Char.ofNat u).toNat = u := (Utf8.eq_ofNat_iff hvalid _).mp rfl
  rw [charUnits, hcode, if_pos (by omega)]

/-- Units have sixteen bits, and only NUL has a zero among its own. -/
lemma mem_charUnits {c : Char} {u : Nat} (h : u ∈ charUnits c) :
    u < 0x10000 ∧ (u = 0 → c = '\x00') := by
  obtain ⟨hunits, hsmall⟩ | ⟨hi, lo, hunits, hhi, hlo, -⟩ := charUnits_cases c
  · rw [hunits, List.mem_singleton] at h
    subst h
    exact ⟨hsmall, fun hzero => Char.toNat_inj.mp hzero⟩
  · simp only [isHigh, isLow, Bool.and_eq_true, decide_eq_true_eq] at hhi hlo
    rw [hunits, List.mem_cons, List.mem_singleton] at h
    omega

/-! ### Texts -/

lemma ofUnits?_units (cs : List Char) : ofUnits? (units cs) = some cs := by
  induction cs with
  | nil => rfl
  | cons c cs ih =>
    have hunits : units (c :: cs) = charUnits c ++ units cs := List.flatMap_cons
    rw [hunits, ofUnits?_charUnits, ih, Option.map_some]

lemma eq_units {us : List Nat} {cs : List Char} (h : ofUnits? us = some cs) : us = units cs := by
  fun_induction ofUnits? us generalizing cs with
  | case1 =>
    obtain rfl := Option.some.inj h
    rfl
  | case2 => cases h
  | case3 u hu v vs hv ih =>
    obtain ⟨ds, hds, rfl⟩ := Option.map_eq_some_iff.mp h
    have hunits : units (ofPair u v :: ds) = charUnits (ofPair u v) ++ units ds := List.flatMap_cons
    rw [hunits, charUnits_ofPair hu hv, ← ih hds]
    rfl
  | case4 => cases h
  | case5 => cases h
  | case6 u us hu hv ih =>
    obtain ⟨ds, hds, rfl⟩ := Option.map_eq_some_iff.mp h
    have hunits : units (.ofNat u :: ds) = charUnits (.ofNat u) ++ units ds := List.flatMap_cons
    rw [hunits, charUnits_ofNat (by simpa using hu) (by simpa using hv), ← ih hds]
    rfl

/-- **What is read from units is the text of which they are.** -/
theorem ofUnits?_eq_some_iff (us : List Nat) (cs : List Char) :
    ofUnits? us = some cs ↔ us = units cs := by
  constructor
  · exact eq_units
  · rintro rfl
    exact ofUnits?_units cs

lemma hasNul_iff (cs : List Char) : hasNul cs = true ↔ '\x00' ∈ cs := by
  simp [hasNul]

lemma mem_units {cs : List Char} {u : Nat} (h : u ∈ units cs) :
    u < 0x10000 ∧ (u = 0 → '\x00' ∈ cs) := by
  obtain ⟨c, hc, hu⟩ := List.mem_flatMap.mp h
  obtain ⟨hlt, hzero⟩ := mem_charUnits hu
  exact ⟨hlt, fun h0 => hzero h0 ▸ hc⟩

/-- **A wide text is its units and the only zero.** -/
theorem wide?_eq_some_iff (cs : List Char) (us : List Nat) :
    wide? cs = some us ↔
      ∃ body, us = body ++ [0] ∧ 0 ∉ body ∧ ofUnits? body = some cs := by
  have hzero : 0 ∈ units cs ↔ hasNul cs = true := by
    rw [hasNul_iff]
    refine ⟨fun h => (mem_units h).2 rfl, fun h => ?_⟩
    have hnul : 0 ∈ charUnits '\x00' := by simp [charUnits]
    exact List.mem_flatMap.mpr ⟨_, h, hnul⟩
  simp only [ofUnits?_eq_some_iff]
  constructor
  · intro h
    rw [wide?, Option.ite_none_left_eq_some] at h
    obtain ⟨hplain, hus⟩ := h
    exact ⟨units cs, (Option.some.inj hus).symm, fun h0 => hplain (hzero.mp h0), rfl⟩
  · rintro ⟨_, rfl, hbody, rfl⟩
    rw [wide?, if_neg fun hnul => hbody (hzero.mpr hnul)]

lemma wide?_eq_none_iff (cs : List Char) : wide? cs = none ↔ '\x00' ∈ cs := by
  rw [wide?, ← hasNul_iff]
  split <;> simp_all

end Warden.Text
