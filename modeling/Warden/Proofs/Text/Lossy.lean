import Warden.Proofs.Text.Sequences

/-!
Reading bytes that need not be well-formed.

`Lossy` says how bytes are read, without a scan: characters whose bytes stand there, and a
replacement character for every maximal part of a sequence that breaks off. There is one such
reading (`Lossy.unique`), the one of the scan (`lossy_decode`), and what holds of it follows by
induction on its parts.
-/

namespace Warden.Text.Utf8

/-- Bytes `u` in front of `bs` that are no character: as many as could still have become one, or a
single one that no character begins with. -/
structure IllFormed (u bs : List UInt8) : Prop where
  ne_nil : u ≠ []
  no_char : ∀ c, ¬ encode c <+: u ++ bs
  opens : Opens u ∨ u.length = 1
  maximal : ∀ v, v <+: u ++ bs → Opens v → v.length ≤ u.length

/-- The reading of bytes as characters. -/
inductive Lossy : List UInt8 → List Char → Prop where
  | nil : Lossy [] []
  | whole (c : Char) {bs : List UInt8} {cs : List Char} (h : Lossy bs cs) :
    Lossy (encode c ++ bs) (c :: cs)
  | broken {u bs : List UInt8} {cs : List Char} (hu : IllFormed u bs) (h : Lossy bs cs) :
    Lossy (u ++ bs) (replacement :: cs)

/-! ### The reading is unique -/

lemma encode_ne_nil (c : Char) : encode c ≠ [] :=
  List.ne_nil_of_length_pos (by rw [String.length_utf8EncodeChar]; exact c.utf8Size_pos)

lemma IllFormed.length_eq {u u' bs bs' : List UInt8} (hu : IllFormed u bs) (hu' : IllFormed u' bs')
    (h : u ++ bs = u' ++ bs') : u.length ≤ u'.length := by
  have hle : u <+: u' ++ bs' := h ▸ List.prefix_append u bs
  rcases hu.opens with hopens | hone
  · exact hu'.maximal u hle hopens
  · have := List.length_pos_of_ne_nil hu'.ne_nil
    omega

/-- **Bytes have one reading.** -/
theorem Lossy.unique {bs : List UInt8} {cs cs' : List Char} (h : Lossy bs cs) (h' : Lossy bs cs') :
    cs = cs' := by
  induction h generalizing cs' with
  | nil =>
    generalize hbs : ([] : List UInt8) = bs at h'
    cases h' with
    | nil => rfl
    | whole c h' => exact absurd (List.append_eq_nil_iff.mp hbs.symm).1 (encode_ne_nil c)
    | broken hu h' => exact absurd (List.append_eq_nil_iff.mp hbs.symm).1 hu.ne_nil
  | @whole c bs cs h ih =>
    generalize hbs : encode c ++ bs = all at h'
    cases h' with
    | nil => exact absurd (List.append_eq_nil_iff.mp hbs).1 (encode_ne_nil c)
    | whole c' h' =>
      obtain rfl := encode_prefix_free hbs
      rw [ih (List.append_cancel_left hbs ▸ h')]
    | broken hu h' => exact absurd ⟨bs, hbs⟩ (hu.no_char c)
  | @broken u bs cs hu h ih =>
    generalize hbs : u ++ bs = all at h'
    cases h' with
    | nil => exact absurd (List.append_eq_nil_iff.mp hbs).1 hu.ne_nil
    | whole c h' => exact absurd ⟨_, hbs.symm⟩ (hu.no_char c)
    | broken hu' h' =>
      obtain ⟨rfl, rfl⟩ := List.append_inj hbs
        (Nat.le_antisymm (hu.length_eq hu' hbs) (hu'.length_eq hu hbs.symm))
      rw [ih h']

/-! ### The scan reads so -/

lemma Opens.of_prefix {u v : List UInt8} (h : Opens v) (huv : u <+: v) : Opens u := by
  obtain ⟨c, hc⟩ := h
  exact ⟨c, huv.trans hc⟩

/-- A sequence breaks off before a byte that it does not take, and at the end. -/
lemma Begun.Stands.illFormed {p : Begun} {u bs : List UInt8} (h : p.Stands u)
    (hbs : ∀ b ∈ bs.head?, ¬(p.lo ≤ b.toNat ∧ b.toNat ≤ p.hi)) : IllFormed u bs := by
  have hstop : ∀ v, v <+: u ++ bs → Opens v → v.length ≤ u.length := by
    intro v hv hopens
    by_contra hlen
    obtain ⟨t, rfl⟩ : u <+: v := List.prefix_of_prefix_length_le (List.prefix_append u bs) hv (by omega)
    cases t with
    | nil => simp at hlen
    | cons b t =>
      obtain ⟨rest, hrest⟩ := (List.prefix_append_right_inj u).mp hv
      refine hbs b (by simp [← hrest]) (h.of_opens (hopens.of_prefix ⟨t, ?_⟩))
      rw [List.append_assoc, List.singleton_append]
  refine ⟨h.ne_nil, fun c hc => ?_, .inl h.opens, hstop⟩
  -- a character is no longer than the sequence, so it is part of it
  have hlen := hstop _ hc ⟨c, List.prefix_refl _⟩
  exact h.not_encode c (List.prefix_of_prefix_length_le hc (List.prefix_append u bs) hlen)

lemma illFormed_bad {b : UInt8} (h : lead b = .bad) (bs : List UInt8) : IllFormed [b] bs := by
  have hstop : ∀ v, v <+: [b] ++ bs → Opens v → v = [] := by
    intro v hv hopens
    cases v with
    | nil => rfl
    | cons x t =>
      obtain ⟨rfl, -⟩ := List.cons_prefix_cons.mp hv
      exact absurd (hopens.of_prefix ⟨t, rfl⟩) (lead_bad h)
  refine ⟨List.cons_ne_nil b [], fun c hc => ?_, .inr rfl, fun v hv hopens => ?_⟩
  · exact encode_ne_nil c (hstop _ hc ⟨c, List.prefix_refl _⟩)
  · rw [hstop v hv hopens]
    exact Nat.zero_le 1

/-- What the scan makes of bytes behind the sequence that has begun, if there is one. -/
def resume (p : Option Begun) (bs : List UInt8) : List Char := finish (run ⟨[], p⟩ bs)

lemma start_out (out : List Char) (b : UInt8) :
    start out b = ⟨(start [] b).out ++ out, (start [] b).begun⟩ := by
  unfold start
  split <;> rfl

lemma step_out (out : List Char) (p : Option Begun) (b : UInt8) :
    step ⟨out, p⟩ b = ⟨(step ⟨[], p⟩ b).out ++ out, (step ⟨[], p⟩ b).begun⟩ := by
  cases p with
  | none => exact start_out out b
  | some p =>
    simp only [step]
    split
    · split <;> rfl
    · rw [start_out (replacement :: out), start_out [replacement], List.append_assoc]
      rfl

/-- What was read before stays in front. -/
lemma finish_run (out : List Char) (p : Option Begun) (bs : List UInt8) :
    finish (run ⟨out, p⟩ bs) = out.reverse ++ resume p bs := by
  induction bs generalizing out p with
  | nil => cases p <;> simp [finish, resume]
  | cons b bs ih =>
    have hfresh : resume p (b :: bs) =
        (step ⟨[], p⟩ b).out.reverse ++ resume (step ⟨[], p⟩ b).begun bs := ih _ _
    rw [run_cons, step_out, ih, hfresh, List.reverse_append, List.append_assoc]

lemma resume_step (p : Option Begun) (b : UInt8) (bs : List UInt8) :
    resume p (b :: bs) = (step ⟨[], p⟩ b).out.reverse ++ resume (step ⟨[], p⟩ b).begun bs :=
  finish_run (step ⟨[], p⟩ b).out (step ⟨[], p⟩ b).begun bs

lemma resume_cons (b : UInt8) (bs : List UInt8) :
    resume none (b :: bs) =
      match lead b with
      | .whole c => c :: resume none bs
      | .begun p => resume (some p) bs
      | .bad => replacement :: resume none bs := by
  simp only [resume_step, step, start]
  cases lead b <;> rfl

lemma resume_begun_cons (p : Begun) (b : UInt8) (bs : List UInt8) :
    resume (some p) (b :: bs) =
      if p.lo ≤ b.toNat ∧ b.toNat ≤ p.hi then
        if p.need = 1 then Char.ofNat (continued p.value b) :: resume none bs
        else resume (some ⟨p.need - 1, 0x80, 0xBF, continued p.value b⟩) bs
      else replacement :: resume none (b :: bs) := by
  simp only [resume_step, step]
  split
  · split <;> rfl
  · rw [start_out, List.reverse_append, List.append_assoc]
    rfl

/-- The scan gives the reading of bytes, and behind a sequence that has begun it gives that of the
sequence's bytes and the rest. -/
theorem lossy_resume (bs : List UInt8) :
    Lossy bs (resume none bs) ∧
      ∀ (p : Begun) (u : List UInt8), p.Stands u → Lossy (u ++ bs) (resume (some p) bs) := by
  induction bs with
  | nil => exact ⟨.nil, fun p u hp => .broken (hp.illFormed (by simp)) .nil⟩
  | cons b bs ih =>
    obtain ⟨ih, ihp⟩ := ih
    have hfresh : Lossy (b :: bs) (resume none (b :: bs)) := by
      rw [resume_cons]
      cases hb : lead b with
      | whole c =>
        have := ih.whole c
        rwa [lead_whole hb] at this
      | begun p => exact ihp p [b] (lead_begun hb).stands
      | bad => exact .broken (illFormed_bad hb bs) ih
    refine ⟨hfresh, fun p u hp => ?_⟩
    rw [resume_begun_cons]
    split
    next hrange =>
      rw [List.append_cons]
      split
      next hneed =>
        rw [← hp.completes hrange hneed]
        exact ih.whole _
      next hneed => exact ihp _ _ (hp.continues hrange hneed)
    next hrange =>
      -- the byte that breaks the sequence off is read afresh
      refine .broken (hp.illFormed ?_) hfresh
      rintro _ ⟨⟩
      exact hrange

/-- **Decoding is the reading of bytes.** -/
theorem lossy_iff (bs : List UInt8) (cs : List Char) : Lossy bs cs ↔ cs = decode bs := by
  have hdecode : Lossy bs (decode bs) := (lossy_resume bs).1
  constructor
  · exact fun h => h.unique hdecode
  · rintro rfl
    exact hdecode

/-! ### What every reading keeps -/

/-- Well-formed bytes are read as the characters they were written from. -/
lemma Lossy.of_chars (cs : List Char) : Lossy (cs.flatMap encode) cs := by
  induction cs with
  | nil => exact .nil
  | cons c cs ih => exact ih.whole c

/-- A character of ASCII is its byte, and all bytes of any other are out of ASCII. -/
lemma encode_ascii (c : Char) :
    ((encode c).filter (·.toNat < 0x80)).map UInt8.toNat = if c.toNat < 0x80 then [c.toNat] else [] := by
  have hmap : ((encode c).filter (·.toNat < 0x80)).map UInt8.toNat =
      ((encode c).map UInt8.toNat).filter (· < 0x80) := by
    rw [List.filter_map]
    rfl
  obtain ⟨n, hsized, he⟩ := encode_eq c
  have hlater : (digits n c.toNat).filter (· < 0x80) = [] := by
    refine List.filter_eq_nil_iff.mpr fun x hx => ?_
    have := digits_range n c.toNat x hx
    simp
    omega
  rw [hmap, he, List.filter_cons, hlater]
  rcases hsized.first with ⟨rfl, hfirst⟩ | hfirst
  · simp [mark] at hfirst ⊢
  · have hc : ¬ c.toNat < 0x80 := by
      unfold Sized at hsized
      omega
    rw [if_neg hc, if_neg (by simp; omega)]

lemma IllFormed.no_ascii {u bs : List UInt8} (h : IllFormed u bs) : ∀ x ∈ u, 0x80 ≤ x.toNat := by
  intro x hx
  by_contra hascii
  rw [Nat.not_le] at hascii
  have hwhole : encode (Char.ofNat x.toNat) = [x] := lead_whole (by simp [lead, hascii])
  obtain rfl : u = [x] := by
    rcases h.opens with ⟨c, hc⟩ | hlen
    · have hmem : x.toNat ∈ ((encode c).filter (·.toNat < 0x80)).map UInt8.toNat :=
        List.mem_map_of_mem (List.mem_filter.mpr ⟨hc.subset hx, by simpa using hascii⟩)
      rw [encode_ascii] at hmem
      split at hmem
      · rw [List.mem_singleton.mp hmem, Char.ofNat_toNat] at hwhole
        rw [hwhole] at hc
        exact hc.eq_of_length_le (List.length_pos_of_ne_nil h.ne_nil)
      · cases hmem
    · obtain ⟨y, rfl⟩ := List.length_eq_one_iff.mp hlen
      rw [List.mem_singleton.mp hx]
  exact h.no_char (Char.ofNat x.toNat) ⟨bs, by rw [hwhole]⟩

/-- **The reading keeps ASCII**: its characters of ASCII are the bytes of ASCII, in order. -/
theorem Lossy.ascii {bs : List UInt8} {cs : List Char} (h : Lossy bs cs) :
    (cs.filter (·.toNat < 0x80)).map Char.toNat = (bs.filter (·.toNat < 0x80)).map UInt8.toNat := by
  induction h with
  | nil => rfl
  | @whole c bs cs _ ih =>
    rw [List.filter_append, List.map_append, encode_ascii, List.filter_cons, ← ih]
    by_cases hc : c.toNat < 0x80 <;> simp [hc]
  | @broken u bs cs hu _ ih =>
    have hnone : u.filter (·.toNat < 0x80) = [] := by
      simpa using hu.no_ascii
    rw [List.filter_append, hnone, List.filter_cons_of_neg (by decide), ih, List.nil_append]

/-- A replacement takes three bytes, and stands for one at least. -/
theorem Lossy.length_le {bs : List UInt8} {cs : List Char} (h : Lossy bs cs) :
    (cs.flatMap encode).length ≤ 3 * bs.length := by
  induction h with
  | nil => simp
  | @whole c bs cs _ ih =>
    simp only [List.flatMap_cons, List.length_append]
    omega
  | @broken u bs cs hu _ ih =>
    have hreplacement : (encode replacement).length = 3 := rfl
    have hu := List.length_pos_of_ne_nil hu.ne_nil
    simp only [List.flatMap_cons, List.length_append]
    omega

/-- What is read in front is written in front, unless it is a replacement. -/
theorem Lossy.prefix_iff {bs : List UInt8} {cs as : List Char} (h : Lossy bs cs)
    (has : replacement ∉ as) : as <+: cs ↔ as.flatMap encode <+: bs := by
  induction h generalizing as with
  | nil =>
    cases as with
    | nil => simp
    | cons a as => simp
  | @whole c bs cs _ ih =>
    cases as with
    | nil => simp
    | cons a as =>
      have ih := ih (List.not_mem_of_not_mem_cons has)
      rw [List.cons_prefix_cons, List.flatMap_cons, ih]
      constructor
      · rintro ⟨rfl, h⟩
        exact (List.prefix_append_right_inj _).mpr h
      · rintro ⟨rest, h⟩
        rw [List.append_assoc] at h
        obtain rfl := encode_prefix_free h
        exact ⟨rfl, rest, List.append_cancel_left h⟩
  | @broken u bs cs hu _ ih =>
    cases as with
    | nil => simp
    | cons a as =>
      constructor
      · intro h
        obtain ⟨rfl, -⟩ := List.cons_prefix_cons.mp h
        exact absurd List.mem_cons_self has
      · rintro ⟨rest, h⟩
        rw [List.flatMap_cons, List.append_assoc] at h
        exact absurd ⟨_, h⟩ (hu.no_char a)

end Warden.Text.Utf8
