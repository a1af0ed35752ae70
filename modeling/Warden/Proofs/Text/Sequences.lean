import Mathlib.Algebra.Group.Nat.Defs
import Mathlib.Data.List.Basic
import Mathlib.Data.List.Induction
import Mathlib.Tactic.Common
import Warden.Text.Utf8

/-!
The sequences of characters, and how far the scan has come in one.

`encode` writes a character as its bytes: the digits of its value to the base 64, of which the first
byte takes what is left over (`encode_eq`). No character's bytes begin with those of another
(`encode_prefix_free`). A sequence that has begun stands for the bytes it was read from: `Stands`
says which bytes complete them and to what character. A byte where a sequence may start makes it
hold (`Begins.stands`), and so does every byte that continues the sequence (`Stands.continues`).
-/

namespace Warden.Text.Utf8

/-- The bytes of a character. -/
abbrev encode (c : Char) : List UInt8 := String.utf8EncodeChar c

/-- The last `n` digits of a number to the base 64, as bytes that continue a sequence. -/
def digits : Nat → Nat → List Nat
  | 0, _ => []
  | n + 1, v => digits n (v / 64) ++ [0x80 + v % 64]

/-- What the first of `n + 1` bytes is marked with. -/
def mark : Nat → Nat
  | 0 => 0
  | 1 => 0xC0
  | 2 => 0xE0
  | _ => 0xF0

/-- The values that are written with `n` bytes behind the first; surrogates are none. -/
def Sized (n v : Nat) : Prop :=
  n = 0 ∧ v < 0x80 ∨
  n = 1 ∧ 0x80 ≤ v ∧ v < 0x800 ∨
  n = 2 ∧ (0x800 ≤ v ∧ v < 0xD800 ∨ 0xE000 ≤ v ∧ v < 0x10000) ∨
  n = 3 ∧ 0x10000 ≤ v ∧ v < 0x110000

/-- The bytes of a character: a first one with the upper digits, and one for every other digit. -/
lemma encode_eq (c : Char) : ∃ n, Sized n c.toNat ∧
    (encode c).map UInt8.toNat = (mark n + c.toNat / 64 ^ n) :: digits n c.toNat := by
  have hvalid : c.toNat < 0xD800 ∨ 0xDFFF < c.toNat ∧ c.toNat < 0x110000 := by
    have := c.valid
    simp only [UInt32.isValidChar, Nat.isValidChar] at this
    exact this
  have hval : c.val.toNat = c.toNat := rfl
  rw [encode, String.utf8EncodeChar, hval]
  rcases Nat.lt_or_ge c.toNat 0x80 with h₁ | h₁
  · refine ⟨0, by unfold Sized; omega, ?_⟩
    rw [if_pos (by omega)]
    simp [digits, mark]
    omega
  rcases Nat.lt_or_ge c.toNat 0x800 with h₂ | h₂
  · refine ⟨1, by unfold Sized; omega, ?_⟩
    rw [if_neg (by omega), if_pos (by omega)]
    simp [digits, mark]
    omega
  rcases Nat.lt_or_ge c.toNat 0x10000 with h₃ | h₃
  · refine ⟨2, by unfold Sized; omega, ?_⟩
    rw [if_neg (by omega), if_neg (by omega), if_pos (by omega)]
    simp [digits, mark]
    omega
  · refine ⟨3, by unfold Sized; omega, ?_⟩
    rw [if_neg (by omega), if_neg (by omega), if_neg (by omega)]
    simp [digits, mark]
    omega

/-- The first byte tells how many are behind it. -/
lemma Sized.first {n v : Nat} (h : Sized n v) :
    n = 0 ∧ mark n + v / 64 ^ n < 0x80 ∨
    n = 1 ∧ 0xC2 ≤ mark n + v / 64 ^ n ∧ mark n + v / 64 ^ n < 0xE0 ∨
    n = 2 ∧ 0xE0 ≤ mark n + v / 64 ^ n ∧ mark n + v / 64 ^ n < 0xF0 ∨
    n = 3 ∧ 0xF0 ≤ mark n + v / 64 ^ n ∧ mark n + v / 64 ^ n < 0xF5 := by
  unfold Sized at h
  rcases h with ⟨rfl, h⟩ | ⟨rfl, h⟩ | ⟨rfl, h⟩ | ⟨rfl, h⟩ <;> simp [mark] <;> omega

lemma Sized.unique {n n' v : Nat} (h : Sized n v) (h' : Sized n' v) : n = n' := by
  unfold Sized at h h'
  omega

lemma Sized.valid {n v : Nat} (h : Sized n v) : v.isValidChar := by
  unfold Sized at h
  unfold Nat.isValidChar
  omega

lemma length_digits (n v : Nat) : (digits n v).length = n := by
  induction n generalizing v with
  | zero => rfl
  | succ n ih => rw [digits, List.length_append, ih, List.length_singleton]

lemma digits_range (n v : Nat) : ∀ x ∈ digits n v, 0x80 ≤ x ∧ x ≤ 0xBF := by
  induction n generalizing v with
  | zero => simp [digits]
  | succ n ih =>
    rw [digits]
    refine List.forall_mem_append.mpr ⟨ih _, List.forall_mem_singleton.mpr ?_⟩
    omega

lemma head?_digits (n v : Nat) : (digits (n + 1) v).head? = some (0x80 + v / 64 ^ n % 64) := by
  induction n generalizing v with
  | zero => simp [digits]
  | succ n ih =>
    rw [digits, List.head?_append, ih, Nat.div_div_eq_div_mul, ← Nat.pow_succ']
    rfl

lemma map_toNat_inj {xs ys : List UInt8} : xs.map UInt8.toNat = ys.map UInt8.toNat ↔ xs = ys :=
  List.map_inj_right fun _ _ => UInt8.toNat_inj.mp

/-- Reading a sequence gives its character back, whatever stands behind it. -/
lemma encode_prefix_free {c c' : Char} {s s' : List UInt8} (h : encode c ++ s = encode c' ++ s') :
    c = c' := by
  have hread (c : Char) (s : List UInt8) :
      (encode c ++ s).toByteArray.utf8DecodeChar? 0 = some c := by
    rw [List.toByteArray_append]
    exact ByteArray.utf8DecodeChar?_utf8EncodeChar_append
  have hsome := hread c s
  rw [h, hread c' s'] at hsome
  exact (Option.some.inj hsome).symm

/-- The bytes with which some character's sequence begins. -/
def Opens (u : List UInt8) : Prop := ∃ c, u <+: encode c

/-! ### Sequences that have begun -/

/-- The bytes that complete a sequence. -/
def Begun.Takes (p : Begun) (t : List UInt8) : Prop :=
  t.length = p.need ∧ (∀ b ∈ t.head?, p.lo ≤ b.toNat ∧ b.toNat ≤ p.hi) ∧
    ∀ b ∈ t.tail, 0x80 ≤ b.toNat ∧ b.toNat ≤ 0xBF

def continued (v : Nat) (b : UInt8) : Nat := v * 64 + (b.toNat - 0x80)

/-- Digits are read by taking them on one by one, -/
lemma foldl_digits {n v : Nat} {t : List UInt8} (h : t.map UInt8.toNat = digits n v) :
    t.foldl continued (v / 64 ^ n) = v := by
  induction n generalizing v t with
  | zero =>
    obtain rfl := List.map_eq_nil_iff.mp h
    rw [Nat.pow_zero, Nat.div_one]
    rfl
  | succ n ih =>
    rw [digits] at h
    obtain ⟨t, last, rfl, ht, hlast⟩ := List.map_eq_append_iff.mp h
    obtain ⟨x, rfl, hx⟩ := List.map_eq_singleton_iff.mp hlast
    have hupper : t.foldl continued (v / 64 ^ (n + 1)) = v / 64 := by
      rw [Nat.pow_succ', ← Nat.div_div_eq_div_mul]
      exact ih ht
    have hlower : continued (v / 64) x = v := by
      unfold continued
      omega
    rw [List.foldl_append, hupper, List.foldl_cons, List.foldl_nil, hlower]

/-- and what is taken on one by one are the digits. -/
lemma digits_foldl (a : Nat) {t : List UInt8} (h : ∀ b ∈ t, 0x80 ≤ b.toNat ∧ b.toNat ≤ 0xBF) :
    t.map UInt8.toNat = digits t.length (t.foldl continued a) ∧
      t.foldl continued a / 64 ^ t.length = a := by
  induction t using List.reverseRecOn with
  | nil => simp [digits]
  | append_singleton t x ih =>
    obtain ⟨ht, hx⟩ := List.forall_mem_append.mp h
    have hx := List.forall_mem_singleton.mp hx
    obtain ⟨ih, iha⟩ := ih ht
    have hv : (t ++ [x]).foldl continued a = t.foldl continued a * 64 + (x.toNat - 0x80) := by
      rw [List.foldl_append]
      rfl
    have hupper : (t.foldl continued a * 64 + (x.toNat - 0x80)) / 64 = t.foldl continued a := by
      omega
    rw [hv, List.length_append, List.length_singleton, List.map_append, digits, hupper, ih,
      Nat.pow_succ', ← Nat.div_div_eq_div_mul, hupper, iha]
    refine ⟨congrArg _ ?_, rfl⟩
    simp only [List.map_cons, List.map_nil, List.cons.injEq, and_true]
    omega

/-- The character of a completed sequence. -/
def Begun.char (p : Begun) (t : List UInt8) : Char := Char.ofNat (t.foldl continued p.value)

/-- The sequence stands behind the bytes `u`: they are completed just by what it takes. -/
structure Begun.Stands (p : Begun) (u : List UInt8) : Prop where
  open_ : 0 < p.need
  lo : 0x80 ≤ p.lo
  lo_le_hi : p.lo ≤ p.hi
  hi : p.hi ≤ 0xBF
  completed : ∀ c t, encode c = u ++ t ↔ p.Takes t ∧ c = p.char t

/-- What a first byte `b` says of the sequence it begins: how many bytes are to come, and by the
bounds of the next one which values are written so. -/
structure Begun.Begins (p : Begun) (b : UInt8) : Prop where
  need : p.need = 1 ∧ 0xC2 ≤ b.toNat ∧ b.toNat < 0xE0 ∨
    p.need = 2 ∧ 0xE0 ≤ b.toNat ∧ b.toNat < 0xF0 ∨ p.need = 3 ∧ 0xF0 ≤ b.toNat ∧ b.toNat < 0xF5
  value : mark p.need + p.value = b.toNat
  lo : 0x80 ≤ p.lo
  lo_le_hi : p.lo ≤ p.hi
  hi : p.hi ≤ 0xBF
  sized : ∀ v, v / 64 ^ p.need = p.value → (Sized p.need v ↔
    p.lo ≤ 0x80 + v / 64 ^ (p.need - 1) % 64 ∧ 0x80 + v / 64 ^ (p.need - 1) % 64 ≤ p.hi)

lemma lead_begun {b : UInt8} {p : Begun} (h : lead b = .begun p) : p.Begins b := by
  revert h
  fun_cases lead b <;> rintro ⟨⟩
  all_goals
    refine ⟨by simp; omega, by simp [mark]; omega, by simp, by simp, by simp, fun v hv => ?_⟩
    simp at hv
    simp [Sized]
    omega

/-- The character with a valid value. -/
lemma eq_ofNat_iff {v : Nat} (hv : v.isValidChar) (c : Char) : c = Char.ofNat v ↔ c.toNat = v := by
  constructor
  · rintro rfl
    rw [Char.ofNat, dif_pos hv]
    rfl
  · rintro rfl
    exact (Char.ofNat_toNat c).symm

lemma first_digit {n v : Nat} {x : UInt8} {t : List UInt8}
    (h : (x :: t).map UInt8.toNat = digits n v) : x.toNat = 0x80 + v / 64 ^ (n - 1) % 64 := by
  cases n with
  | zero => cases h
  | succ n =>
    have hhead := head?_digits n v
    rw [← h] at hhead
    exact Option.some.inj hhead

/-- What is behind the first byte of a character is taken, and read as the character. -/
lemma Begun.Begins.takes {p : Begun} {b : UInt8} (h : p.Begins b) {c : Char} {t : List UInt8}
    (hc : encode c = b :: t) : p.Takes t ∧ c = p.char t := by
  have hneed := h.need
  have hb := h.value
  obtain ⟨n, hsized, he⟩ := encode_eq c
  rw [hc, List.map_cons] at he
  obtain ⟨hfirst, ht⟩ := List.cons.inj he
  obtain rfl : n = p.need := by
    have := hsized.first
    omega
  have hvalue : c.toNat / 64 ^ p.need = p.value := by omega
  have hrange : ∀ x ∈ t, 0x80 ≤ x.toNat ∧ x.toNat ≤ 0xBF := fun x hx =>
    digits_range _ _ _ (ht ▸ List.mem_map_of_mem hx)
  refine ⟨⟨?_, ?_, fun x hx => hrange x (List.mem_of_mem_tail hx)⟩, ?_⟩
  · rw [← length_digits p.need c.toNat, ← ht, List.length_map]
  · cases t with
    | nil => simp
    | cons x t =>
      rintro _ ⟨⟩
      rw [first_digit ht]
      exact (h.sized _ hvalue).mp hsized
  · rw [Begun.char, ← hvalue, foldl_digits ht, Char.ofNat_toNat]

/-- What is taken behind the first byte completes a character. -/
lemma Begun.Begins.encode_char {p : Begun} {b : UInt8} (h : p.Begins b) {t : List UInt8}
    (ht : p.Takes t) : encode (p.char t) = b :: t := by
  obtain ⟨hlen, hhead, htail⟩ := ht
  cases t with
  | nil =>
    have := h.need
    rw [List.length_nil] at hlen
    omega
  | cons x t =>
    have hx := hhead x rfl
    have hrange : ∀ y ∈ x :: t, 0x80 ≤ y.toNat ∧ y.toNat ≤ 0xBF := by
      have := h.lo
      have := h.hi
      exact List.forall_mem_cons.mpr ⟨by omega, htail⟩
    obtain ⟨ht, hvalue⟩ := digits_foldl p.value hrange
    rw [hlen] at ht hvalue
    have hsized := (h.sized _ hvalue).mpr (first_digit ht ▸ hx)
    have hchar : (p.char (x :: t)).toNat = (x :: t).foldl continued p.value :=
      (eq_ofNat_iff hsized.valid _).mp rfl
    obtain ⟨n, hsized', he⟩ := encode_eq (p.char (x :: t))
    rw [hchar] at hsized' he
    obtain rfl := hsized'.unique hsized
    rw [← map_toNat_inj, he, hvalue, h.value, ← ht]
    rfl

/-- A byte that begins a sequence stands for itself. -/
lemma Begun.Begins.stands {p : Begun} {b : UInt8} (h : p.Begins b) : p.Stands [b] := by
  have := h.need
  refine ⟨by omega, h.lo, h.lo_le_hi, h.hi, fun c t => ⟨h.takes, ?_⟩⟩
  rintro ⟨ht, rfl⟩
  exact h.encode_char ht

lemma Begun.takes_cons (p : Begun) (b : UInt8) (t : List UInt8) :
    p.Takes (b :: t) ↔ t.length + 1 = p.need ∧ (p.lo ≤ b.toNat ∧ b.toNat ≤ p.hi) ∧
      ∀ x ∈ t, 0x80 ≤ x.toNat ∧ x.toNat ≤ 0xBF := by
  simp [Begun.Takes]

lemma Begun.char_cons (p : Begun) (b : UInt8) (t : List UInt8) :
    p.char (b :: t) = Begun.char ⟨p.need - 1, 0x80, 0xBF, continued p.value b⟩ t := by
  rw [Begun.char, List.foldl_cons, Begun.char]

namespace Begun.Stands

variable {p : Begun} {u : List UInt8} {b : UInt8}

/-- The last byte of a sequence completes its character. -/
lemma completes (h : p.Stands u) (hb : p.lo ≤ b.toNat ∧ b.toNat ≤ p.hi) (hneed : p.need = 1) :
    encode (Char.ofNat (continued p.value b)) = u ++ [b] :=
  (h.completed _ _).mpr ⟨(p.takes_cons b []).mpr ⟨hneed.symm, hb, by simp⟩, rfl⟩

/-- Any other byte that the sequence takes leaves it one byte shorter. -/
lemma continues (h : p.Stands u) (hb : p.lo ≤ b.toNat ∧ b.toNat ≤ p.hi) (hneed : p.need ≠ 1) :
    Begun.Stands ⟨p.need - 1, 0x80, 0xBF, continued p.value b⟩ (u ++ [b]) := by
  have hopen := h.open_
  refine ⟨by dsimp only; omega, by simp, by simp, by simp, fun c t => ?_⟩
  rw [List.append_assoc, List.singleton_append, h.completed, p.takes_cons, p.char_cons]
  constructor
  · rintro ⟨⟨hlen, -, ht⟩, hc⟩
    refine ⟨⟨by dsimp only; omega, fun x hx => ht x (List.mem_of_mem_head? hx),
      fun x hx => ht x (List.mem_of_mem_tail hx)⟩, hc⟩
  · rintro ⟨⟨hlen, hhead, htail⟩, hc⟩
    refine ⟨⟨by dsimp only at hlen; omega, hb, ?_⟩, hc⟩
    cases t with
    | nil => simp
    | cons x t => exact List.forall_mem_cons.mpr ⟨hhead x rfl, htail⟩

/-- Some bytes complete every sequence. -/
lemma exists_takes (h : p.Stands u) : ∃ t, p.Takes t := by
  have hlo : (UInt8.ofNat p.lo).toNat = p.lo := by
    have := h.lo_le_hi
    have := h.hi
    rw [UInt8.toNat_ofNat']
    omega
  refine ⟨.ofNat p.lo :: .replicate (p.need - 1) 0x80, (p.takes_cons _ _).mpr ⟨?_, ?_, ?_⟩⟩
  · have := h.open_
    rw [List.length_replicate]
    omega
  · have := h.lo_le_hi
    omega
  · intro x hx
    rw [List.eq_of_mem_replicate hx]
    decide

lemma ne_nil (h : p.Stands u) : u ≠ [] := by
  rintro rfl
  have hletter := ((p.takes_cons 0x61 []).mp ((h.completed 'a' [0x61]).mp rfl).1).2.1.1
  exact absurd (Nat.le_trans h.lo hletter) (by decide)

lemma opens (h : p.Stands u) : Opens u := by
  obtain ⟨t, ht⟩ := h.exists_takes
  exact ⟨p.char t, t, ((h.completed _ t).mpr ⟨ht, rfl⟩).symm⟩

/-- No other byte than those that the sequence takes leads to a character. -/
lemma of_opens (h : p.Stands u) (hb : Opens (u ++ [b])) : p.lo ≤ b.toNat ∧ b.toNat ≤ p.hi := by
  obtain ⟨c, t, hc⟩ := hb
  rw [List.append_assoc, List.singleton_append] at hc
  exact ((p.takes_cons b t).mp ((h.completed c _).mp hc.symm).1).2.1

/-- The sequence is not complete yet, and no part of it is. -/
lemma not_encode (h : p.Stands u) (c : Char) : ¬ encode c <+: u := by
  rintro ⟨s, rfl⟩
  obtain ⟨t, ht⟩ := h.exists_takes
  have hc' := (h.completed (p.char t) t).mpr ⟨ht, rfl⟩
  have hboth : encode c ++ (s ++ t) = encode (p.char t) ++ [] := by
    rw [hc', List.append_nil, List.append_assoc]
  obtain rfl : c = p.char t := encode_prefix_free hboth
  have hlen := congrArg List.length hc'
  have := h.open_
  have := ht.1
  simp only [List.length_append] at hlen
  omega

end Begun.Stands

/-! ### Bytes where a sequence may start -/

lemma lead_whole {b : UInt8} {c : Char} (h : lead b = .whole c) : encode c = [b] := by
  obtain ⟨hb, rfl⟩ : b.toNat < 0x80 ∧ c = Char.ofNat b.toNat := by
    revert h
    fun_cases lead b <;> rintro ⟨⟩
    exact ⟨‹_›, rfl⟩
  have hv : (Char.ofNat b.toNat).toNat = b.toNat := (eq_ofNat_iff (.inl (by omega)) _).mp rfl
  obtain ⟨n, hsized, he⟩ := encode_eq (Char.ofNat b.toNat)
  rw [hv] at hsized he
  obtain rfl : n = 0 := by
    unfold Sized at hsized
    omega
  rw [← map_toNat_inj, he]
  simp [mark, digits]

/-- Bytes that only continue a sequence, and those of no sequence at all. -/
lemma lead_bad_range {b : UInt8} (h : lead b = .bad) :
    0x80 ≤ b.toNat ∧ b.toNat < 0xC2 ∨ 0xF5 ≤ b.toNat := by
  revert h
  fun_cases lead b <;> rintro ⟨⟩ <;> omega

lemma lead_bad {b : UInt8} (h : lead b = .bad) : ¬ Opens [b] := by
  rintro ⟨c, t, hc⟩
  have hrange := lead_bad_range h
  obtain ⟨n, hsized, he⟩ := encode_eq c
  have hfirst : b.toNat = mark n + c.toNat / 64 ^ n := by
    rw [← hc] at he
    exact (List.cons.inj he).1
  have := hsized.first
  omega

end Warden.Text.Utf8
