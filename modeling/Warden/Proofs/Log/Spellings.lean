import Mathlib.Algebra.Group.Nat.Defs
import Mathlib.Data.List.Forall2
import Mathlib.Data.List.Nodup
import Warden.Log.Verbosity
import Warden.Proofs.Text.Words

/-!
The texts that give a verbosity.

A verbosity is spelled by a numeral of its rank or by one of its names, in letters of either case,
and blanks around it do not matter. A name is no numeral, and no verbosity has the name or the rank
of another, so no text has two readings; what a text reads as is what is read from it
(`parse_eq_iff`). A numeral that is no rank is refused as a number as long as it is a word; any
other text is refused as it stands.
-/

namespace Warden.Log.Verbosity

open Text

/-! ### Letters -/

/-- `c` is the capital of `d`. -/
def Capital (c d : Char) : Prop := 'A' ≤ c ∧ c ≤ 'Z' ∧ d.toNat = c.toNat + 32

/-- The same character, apart from the case of the letters of ASCII. -/
def SameLetter (c d : Char) : Prop := c = d ∨ Capital c d ∨ Capital d c

/-- The same text, apart from the case of the letters of ASCII. -/
def SameLetters (cs ds : List Char) : Prop := List.Forall₂ SameLetter cs ds

lemma toNat_toLower (c : Char) :
    c.toLower.toNat = if 'A' ≤ c ∧ c ≤ 'Z' then c.toNat + 32 else c.toNat := by
  have hvals : 'A' ≤ c ∧ c ≤ 'Z' ↔ c.val ≥ 'A'.val ∧ c.val ≤ 'Z'.val := Iff.rfl
  unfold Char.toLower
  rw [if_congr hvals rfl rfl]
  split
  · next h =>
    have hz : c.toNat ≤ 90 := h.2
    have hsum : (c.val + 32).toNat = (c.toNat + 32) % 2 ^ 32 := UInt32.toNat_add _ _
    change (c.val + 32).toNat = c.toNat + 32
    omega
  · rfl

lemma toLower_eq_toLower_iff (c d : Char) : c.toLower = d.toLower ↔ SameLetter c d := by
  have hle (a b : Char) : a ≤ b ↔ a.toNat ≤ b.toNat := Iff.rfl
  have hA : 'A'.toNat = 65 := rfl
  have hZ : 'Z'.toNat = 90 := rfl
  rw [← Char.toNat_inj, toNat_toLower, toNat_toLower, SameLetter, Capital, Capital,
    ← Char.toNat_inj]
  simp only [hle, hA, hZ]
  split <;> split <;> omega

lemma map_toLower_eq_iff (cs ds : List Char) :
    cs.map Char.toLower = ds.map Char.toLower ↔ SameLetters cs ds := by
  rw [← List.forall₂_eq_eq_eq, List.forall₂_map_left_iff, List.forall₂_map_right_iff, SameLetters]
  simp only [toLower_eq_toLower_iff]

/-- What is a letter apart from its case is one. -/
lemma SameLetter.letter {c d : Char} (h : SameLetter c d) (hd : 'a' ≤ d ∧ d ≤ 'z') :
    'A' ≤ c ∧ c ≤ 'Z' ∨ 'a' ≤ c ∧ c ≤ 'z' := by
  rcases h with rfl | ⟨hlo, hhi, -⟩ | ⟨-, hhi, -⟩
  · exact .inr hd
  · exact .inl ⟨hlo, hhi⟩
  · exact absurd (Char.le_trans hd.1 hhi) (by decide)

/-! ### Names and ranks -/

lemma names_small (v : Verbosity) :
    ∀ name ∈ v.names, name.toList ≠ [] ∧ ∀ c ∈ name.toList, 'a' ≤ c ∧ c ≤ 'z' := by
  have hall : ∀ name ∈ v.names,
      name.toList ≠ [] ∧ name.toList.all (fun c => 'a' ≤ c && c ≤ 'z') = true := by
    cases v <;> decide
  intro name hname
  obtain ⟨hne, hsmall⟩ := hall name hname
  exact ⟨hne, fun c hc => by simpa using List.all_eq_true.mp hsmall c hc⟩

lemma eq_of_names {v w : Verbosity} {name : String} (hv : name ∈ v.names) (hw : name ∈ w.names) :
    v = w := by
  have hall : ∀ v w : Verbosity, ∀ name ∈ v.names, name ∈ w.names → v = w := by
    intro v w
    cases v <;> cases w <;> decide
  exact hall v w name hv hw

lemma lowercase_eq_iff {v : Verbosity} {name : String} (h : name ∈ v.names) (text : String) :
    lowercase text = name ↔ SameLetters text.toList name.toList := by
  have hsmall : ∀ name ∈ v.names, name.toList.map Char.toLower = name.toList := by
    cases v <;> decide
  rw [← map_toLower_eq_iff, hsmall name h, lowercase, ← String.toList_inj, String.toList_ofList]

lemma ofName?_eq_some_iff (text : String) (v : Verbosity) :
    ofName? text = some v ↔ ∃ name ∈ v.names, SameLetters text.toList name.toList := by
  have hnames (w : Verbosity) : w.names.contains (lowercase text) = true ↔
      ∃ name ∈ w.names, SameLetters text.toList name.toList := by
    rw [List.contains_iff_mem]
    constructor
    · intro h
      exact ⟨_, h, (lowercase_eq_iff h text).mp rfl⟩
    · rintro ⟨name, hname, hsame⟩
      rwa [(lowercase_eq_iff hname text).mpr hsame]
  constructor
  · intro h
    have hv := List.find?_some h
    exact (hnames v).mp hv
  · intro h
    have hv := (hnames v).mpr h
    have hall : v ∈ all := by cases v <;> decide
    have hsome : (ofName? text).isSome = true := List.find?_isSome.mpr ⟨v, hall, hv⟩
    obtain ⟨w, hw⟩ := Option.isSome_iff_exists.mp hsome
    have hw' := List.find?_some hw
    rw [List.contains_iff_mem] at hv hw'
    rw [eq_of_names hv hw']
    exact hw

lemma all_getElem?_eq_some_iff (n : Nat) (v : Verbosity) : all[n]? = some v ↔ n = v.rank := by
  have hnodup : all.Nodup := by decide
  have hrank : all[v.rank]? = some v := by cases v <;> rfl
  constructor
  · intro h
    obtain ⟨hn, hv⟩ := List.getElem?_eq_some_iff.mp h
    obtain ⟨hr, hv'⟩ := List.getElem?_eq_some_iff.mp hrank
    exact (List.Nodup.getElem_inj_iff hnodup).mp (hv.trans hv'.symm)
  · rintro rfl
    exact hrank

/-! ### Spellings -/

/-- A text without blanks around it that gives the verbosity. -/
inductive Spells (v : Verbosity) (core : List Char) : Prop where
  | number (n : Numeral) (hcore : core = n.chars) (hn : n.value = v.rank)
  | name (name : String) (hname : name ∈ v.names) (hcore : SameLetters core name.toList)

/-- What a text without blanks around it is read as. -/
inductive Reads (core : List Char) : Except Refusal Verbosity → Prop where
  | ok {v : Verbosity} (h : Spells v core) : Reads core (.ok v)
  | blank (h : core = []) : Reads core (.error .blank)
  | outOfRange {n : Numeral} (h : core = n.chars) (hn : 5 < n.value) (hword : n.value ≤ maxWord) :
    Reads core (.error (.outOfRange n.value))
  | unknown (hne : core ≠ []) (hnumber : ∀ n : Numeral, core = n.chars → maxWord < n.value)
    (hname : ∀ v : Verbosity, ¬Spells v core) : Reads core (.error (.unknown (String.ofList core)))

/-- A name is no numeral. -/
lemma not_name_chars (n : Numeral) {v : Verbosity} {name : String} (h : name ∈ v.names) :
    ¬SameLetters n.chars name.toList := by
  intro hsame
  obtain ⟨hne, hsmall⟩ := names_small v name h
  rcases hname : name.toList with _ | ⟨d, ds⟩
  · exact hne hname
  · rw [hname] at hsame hsmall
    rcases hchars : n.chars with _ | ⟨c, cs⟩
    · exact n.chars_ne_nil hchars
    · rw [hchars] at hsame
      have hletter := (List.forall₂_cons.mp hsame).1.letter (hsmall d List.mem_cons_self)
      have hrange := n.chars_range c (hchars ▸ List.mem_cons_self)
      rcases hrange with rfl | ⟨-, hhi⟩
      · exact absurd hletter (by decide)
      · rcases hletter with ⟨hlo, -⟩ | ⟨hlo, -⟩
        · exact absurd (Char.le_trans hlo hhi) (by decide)
        · exact absurd (Char.le_trans hlo hhi) (by decide)

lemma Spells.ne_nil {v : Verbosity} {core : List Char} (h : Spells v core) : core ≠ [] := by
  rintro rfl
  cases h with
  | number n hcore => exact n.chars_ne_nil hcore.symm
  | name name hname hcore =>
    exact (names_small v name hname).1 (List.forall₂_nil_left_iff.mp hcore)

lemma rank_le (v : Verbosity) : v.rank ≤ 5 := by
  cases v <;> decide

lemma all_getElem?_eq_none {n : Nat} (h : 5 < n) : all[n]? = none :=
  List.getElem?_eq_none h

/-! ### Reading -/

lemma parse_blank {raw : String} (h : trim raw.toList = []) : parse raw = .error .blank := by
  simp [parse, trimmed, h]

lemma parse_number {raw : String} {n : Nat} (h : word? (trim raw.toList) = some n) :
    parse raw = match all[n]? with
      | some v => .ok v
      | none => .error (.outOfRange n) := by
  have hne : trim raw.toList ≠ [] := by
    intro hnil
    rw [hnil] at h
    cases h
  have htext : trimmed raw ≠ "" := by rwa [trimmed, Ne, String.ofList_eq_empty_iff]
  have hword : word? (trimmed raw).toList = some n := by rwa [trimmed, String.toList_ofList]
  rcases hv : all[n]? with _ | v
  · simp only [parse, String.isEmpty_iff, if_neg htext, hword, hv]
  · simp only [parse, String.isEmpty_iff, if_neg htext, hword, hv]

lemma parse_word {raw : String} (hne : trim raw.toList ≠ []) (h : word? (trim raw.toList) = none) :
    parse raw = match ofName? (trimmed raw) with
      | some v => .ok v
      | none => .error (.unknown (trimmed raw)) := by
  have htext : trimmed raw ≠ "" := by rwa [trimmed, Ne, String.ofList_eq_empty_iff]
  have hword : word? (trimmed raw).toList = none := by rwa [trimmed, String.toList_ofList]
  rcases hv : ofName? (trimmed raw) with _ | v
  · simp only [parse, String.isEmpty_iff, if_neg htext, hword, hv]
  · simp only [parse, String.isEmpty_iff, if_neg htext, hword, hv]

/-- A numeral whose value fits is a word, and nothing else is. -/
lemma word?_eq_none_iff (core : List Char) :
    word? core = none ↔ ∀ n : Numeral, core = n.chars → maxWord < n.value := by
  constructor
  · rintro h n rfl
    by_contra hfits
    have hword := (word?_eq_some_iff n.chars n.value).mpr ⟨n, rfl, rfl, Nat.not_lt.mp hfits⟩
    cases h.symm.trans hword
  · intro h
    rcases hword : word? core with _ | v
    · rfl
    · obtain ⟨n, hcore, rfl, hfits⟩ := (word?_eq_some_iff core v).mp hword
      have hlarge := h n hcore
      omega

lemma Reads.parse_eq {raw : String} {r : Except Refusal Verbosity}
    (h : Reads (trim raw.toList) r) : parse raw = r := by
  cases h with
  | @ok v h =>
    cases h with
    | number n hcore hn =>
      have hrank := rank_le v
      have hfits : n.value ≤ maxWord := by unfold maxWord; omega
      rw [parse_number ((word?_eq_some_iff _ _).mpr ⟨n, hcore, rfl, hfits⟩),
        (all_getElem?_eq_some_iff n.value v).mpr hn]
    | name name hname hcore =>
      have hne := (Spells.name name hname hcore).ne_nil
      have hword : word? (trim raw.toList) = none := by
        refine (word?_eq_none_iff _).mpr fun n hn => ?_
        rw [hn] at hcore
        exact absurd hcore (not_name_chars n hname)
      have hof : ofName? (trimmed raw) = some v :=
        (ofName?_eq_some_iff _ v).mpr ⟨name, hname, by rwa [trimmed, String.toList_ofList]⟩
      rw [parse_word hne hword, hof]
  | blank h => exact parse_blank h
  | outOfRange hcore hn hfits =>
    rw [parse_number ((word?_eq_some_iff _ _).mpr ⟨_, hcore, rfl, hfits⟩), all_getElem?_eq_none hn]
  | unknown hne hnumber hname =>
    have hof : ofName? (trimmed raw) = none := by
      refine Option.eq_none_iff_forall_not_mem.mpr fun v hv => ?_
      obtain ⟨name, hmem, hsame⟩ := (ofName?_eq_some_iff _ v).mp hv
      rw [trimmed, String.toList_ofList] at hsame
      exact hname v (.name name hmem hsame)
    rw [parse_word hne ((word?_eq_none_iff _).mpr hnumber), hof]
    rfl

lemma parse_reads (raw : String) : Reads (trim raw.toList) (parse raw) := by
  by_cases hne : trim raw.toList = []
  · rw [parse_blank hne]
    exact .blank hne
  rcases hword : word? (trim raw.toList) with _ | n
  · rw [parse_word hne hword]
    have hnumber := (word?_eq_none_iff _).mp hword
    rcases hof : ofName? (trimmed raw) with _ | v
    · refine .unknown hne hnumber fun v h => ?_
      cases h with
      | number n hcore hn =>
        have hlarge := hnumber n hcore
        have hrank := rank_le v
        unfold maxWord at hlarge
        omega
      | name name hname hcore =>
        have hsome := (ofName?_eq_some_iff (trimmed raw) v).mpr
          ⟨name, hname, by rwa [trimmed, String.toList_ofList]⟩
        cases hof.symm.trans hsome
    · obtain ⟨name, hname, hsame⟩ := (ofName?_eq_some_iff _ v).mp hof
      rw [trimmed, String.toList_ofList] at hsame
      exact .ok (.name name hname hsame)
  · rw [parse_number hword]
    obtain ⟨m, hcore, rfl, hfits⟩ := (word?_eq_some_iff _ n).mp hword
    by_cases hrank : m.value ≤ 5
    · obtain ⟨v, hv⟩ : ∃ v, all[m.value]? = some v :=
        ⟨_, List.getElem?_eq_getElem (Nat.lt_succ_of_le hrank)⟩
      rw [hv]
      exact .ok (.number m hcore ((all_getElem?_eq_some_iff _ v).mp hv))
    · rw [all_getElem?_eq_none (Nat.not_le.mp hrank)]
      exact .outOfRange hcore (Nat.not_le.mp hrank) hfits

/-- **A text is read in one way, and that is what is read.** -/
theorem parse_eq_iff (raw : String) (r : Except Refusal Verbosity) :
    parse raw = r ↔ Reads (trim raw.toList) r := by
  constructor
  · rintro rfl
    exact parse_reads raw
  · exact Reads.parse_eq

/-! ### Blanks -/

/-- The text is `core` with blanks around it. -/
def Around (raw : String) (core : List Char) : Prop :=
  ∃ front back : Blanks, raw.toList = front ++ (core ++ back)

lemma trim_toList_eq_iff (raw : String) (core : List Char) :
    trim raw.toList = core ↔ Trimmed core ∧ Around raw core := trim_eq_iff raw.toList core

lemma isBlank_of_letter {c : Char} (h : 'A' ≤ c ∧ c ≤ 'Z' ∨ 'a' ≤ c ∧ c ≤ 'z') :
    isBlank c = false := by
  have hle (a b : Char) : a ≤ b ↔ a.toNat ≤ b.toNat := Iff.rfl
  have hrange : 65 ≤ c.toNat ∧ c.toNat ≤ 90 ∨ 97 ≤ c.toNat ∧ c.toNat ≤ 122 := h
  simp [isBlank]
  omega

lemma SameLetters.letters {cs ds : List Char} (h : SameLetters cs ds)
    (hds : ∀ d ∈ ds, 'a' ≤ d ∧ d ≤ 'z') :
    ∀ c ∈ cs, 'A' ≤ c ∧ c ≤ 'Z' ∨ 'a' ≤ c ∧ c ≤ 'z' := by
  induction h with
  | nil => simp
  | cons hsame _ ih =>
    obtain ⟨hd, hds⟩ := List.forall_mem_cons.mp hds
    exact List.forall_mem_cons.mpr ⟨hsame.letter hd, ih hds⟩

lemma Spells.trimmed {v : Verbosity} {core : List Char} (h : Spells v core) : Trimmed core := by
  cases h with
  | number n hcore => exact hcore ▸ n.trimmed
  | name name hname hcore =>
    have hletters := hcore.letters (names_small v name hname).2
    exact ⟨fun c hc => isBlank_of_letter (hletters c (List.mem_of_mem_head? hc)),
      fun c hc => isBlank_of_letter (hletters c (List.mem_of_mem_getLast? hc))⟩

lemma parse_eq_ok_iff (raw : String) (v : Verbosity) :
    parse raw = .ok v ↔ ∃ core, Spells v core ∧ Around raw core := by
  rw [parse_eq_iff]
  constructor
  · rintro ⟨h⟩
    exact ⟨_, h, ((trim_toList_eq_iff raw _).mp rfl).2⟩
  · rintro ⟨core, h, haround⟩
    rw [(trim_toList_eq_iff raw core).mpr ⟨h.trimmed, haround⟩]
    exact .ok h

end Warden.Log.Verbosity
