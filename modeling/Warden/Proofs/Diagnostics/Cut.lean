import Mathlib.Tactic.Common
import Warden.Diagnostics.Reader

/-!
The lines of a byte sequence, without a reader.

Bytes are cut into pieces behind every line feed. A piece stands for one item: the classified line
that is left when its line feed and one carriage return are taken off, or the news that too much
is left. The reader is measured against these definitions.
-/

namespace Warden.Diagnostics

open Warden.Log

/-- Cuts bytes behind every line feed; an empty last piece is dropped. -/
def cut : List UInt8 → List (List UInt8)
  | [] => []
  | b :: bs =>
    if b = lineFeed then [b] :: cut bs
    else
      match cut bs with
      | [] => [[b]]
      | p :: ps => (b :: p) :: ps

/-- Takes one `b` off the end, if there is one. -/
def withoutLast (b : UInt8) (p : List UInt8) : List UInt8 :=
  if p.getLast? = some b then p.dropLast else p

/-- A piece without its line feed, and then without one carriage return. -/
def bare (p : List UInt8) : List UInt8 := withoutLast carriageReturn (withoutLast lineFeed p)

/-- The item that a piece stands for. -/
def Item.ofPiece (p : List UInt8) : Item :=
  if (bare p).length ≤ maxLine then .line (.classify (Text.Utf8.decodeString (bare p)))
  else .failure (.lineTooLong maxLine)

/-- Whether a piece is a whole line, with its line feed. -/
def isTerminated (p : List UInt8) : Bool := p.getLast? == some lineFeed

/-- The pieces that are whole lines; the bytes behind the last line feed are left out. -/
def wholeLines (bs : List UInt8) : List (List UInt8) := (cut bs).filter isTerminated

/-! ### Bytes line by line -/

/-- Bytes are a tail without a line feed, or a line in front of other bytes. -/
theorem lineInduction {P : List UInt8 → Prop} (tail : ∀ l, lineFeed ∉ l → P l)
    (line : ∀ l bs, lineFeed ∉ l → P bs → P (l ++ lineFeed :: bs)) (bs : List UInt8) : P bs := by
  induction h : bs.length using Nat.strongRecOn generalizing bs with
  | ind n ih =>
    by_cases hb : lineFeed ∈ bs
    · obtain ⟨l, rest, rfl, hl⟩ := List.eq_append_cons_of_mem hb
      refine line l rest hl (ih rest.length ?_ rest rfl)
      simp only [List.length_append, List.length_cons] at h
      omega
    · exact tail bs hb

lemma cut_tail {l : List UInt8} (hl : lineFeed ∉ l) : cut l = if l = [] then [] else [l] := by
  induction l with
  | nil => rfl
  | cons b l ih =>
    rw [List.mem_cons, not_or] at hl
    rw [cut, if_neg (Ne.symm hl.1), ih hl.2]
    cases l <;> simp

lemma cut_line {l : List UInt8} (hl : lineFeed ∉ l) (bs : List UInt8) :
    cut (l ++ lineFeed :: bs) = (l ++ [lineFeed]) :: cut bs := by
  induction l with
  | nil => simp [cut]
  | cons b l ih =>
    rw [List.mem_cons, not_or] at hl
    rw [List.cons_append, cut, if_neg (Ne.symm hl.1), ih hl.2]
    rfl

/-- Nothing is lost, added or moved by cutting. -/
theorem flatten_cut (bs : List UInt8) : (cut bs).flatten = bs := by
  induction bs using lineInduction with
  | tail l hl => rw [cut_tail hl]; split <;> simp_all
  | line l bs hl ih => rw [cut_line hl]; simp [ih]

/-- A piece is not empty, and has no line feed but at its end. -/
theorem mem_cut {bs p : List UInt8} (h : p ∈ cut bs) : p ≠ [] ∧ lineFeed ∉ p.dropLast := by
  induction bs using lineInduction with
  | tail l hl =>
    rw [cut_tail hl] at h
    split at h
    · simp at h
    · rename_i hne
      rw [List.mem_singleton] at h
      subst h
      exact ⟨hne, fun hm => hl ((List.dropLast_sublist p).mem hm)⟩
  | line l bs hl ih =>
    rw [cut_line hl, List.mem_cons] at h
    rcases h with rfl | h
    · simp [hl]
    · exact ih h

lemma isTerminated_line (l : List UInt8) : isTerminated (l ++ [lineFeed]) = true := by
  simp [isTerminated]

lemma isTerminated_tail {l : List UInt8} (hl : lineFeed ∉ l) : isTerminated l = false := by
  cases h : isTerminated l with
  | false => rfl
  | true => exact absurd (List.mem_of_getLast? (by simpa [isTerminated] using h)) hl

lemma wholeLines_tail {l : List UInt8} (hl : lineFeed ∉ l) : wholeLines l = [] := by
  rw [wholeLines, cut_tail hl]
  split
  · rfl
  · simp [isTerminated_tail hl]

lemma wholeLines_line {l : List UInt8} (hl : lineFeed ∉ l) (bs : List UInt8) :
    wholeLines (l ++ lineFeed :: bs) = (l ++ [lineFeed]) :: wholeLines bs := by
  rw [wholeLines, cut_line hl, List.filter_cons_of_pos (isTerminated_line l)]
  rfl

/-! ### Terminators -/

lemma length_withoutLast (b : UInt8) (p : List UInt8) :
    p.length ≤ (withoutLast b p).length + 1 := by
  unfold withoutLast
  split
  · rw [List.length_dropLast]; omega
  · omega

lemma withoutLast_line (l : List UInt8) : withoutLast lineFeed (l ++ [lineFeed]) = l := by
  simp [withoutLast]

lemma withoutLast_tail {l : List UInt8} (hl : lineFeed ∉ l) : withoutLast lineFeed l = l :=
  if_neg fun h => hl (List.mem_of_getLast? h)

lemma bare_tail {l : List UInt8} (hl : lineFeed ∉ l) : bare l = withoutLast carriageReturn l := by
  rw [bare, withoutLast_tail hl]

/-- Two bytes more than allowed are too many, with any terminator. -/
lemma ofPiece_long {p : List UInt8} (h : maxLine + 2 ≤ (withoutLast lineFeed p).length) :
    Item.ofPiece p = .tooLong := by
  have := length_withoutLast carriageReturn (withoutLast lineFeed p)
  exact if_neg (by rw [bare]; omega)

/-- The reader takes terminators off as it is said here. -/
lemma chomp_eq (p : List UInt8) : chomp p = (isTerminated p, bare p) := by
  by_cases h : p.getLast? = some lineFeed <;> simp [chomp, isTerminated, bare, withoutLast, h]

end Warden.Diagnostics
