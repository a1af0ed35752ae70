import Mathlib.Tactic.Common
import Warden.Diagnostics.Relay
import Warden.Proofs.Diagnostics.Reading

/-!
What the reader is at.

Whether a line is collected or skipped can be told from the bytes and reads that have come, without
the reader. Taking from a buffer and skipping to the next line feed keep to it (`take_stage`,
`skipping_bytes`).
-/

namespace Warden.Diagnostics

/-- What the reader is at: a line of which some bytes have come, the rest of a line that is too
long, or nothing more. -/
inductive Stage where
  | line (l : List UInt8)
  | skipping
  | ended
  deriving DecidableEq

namespace Stage

/-- The stage behind a line that has been collected. -/
def behind (l : List UInt8) : Stage :=
  if l = [] then ended
  else if isTerminated l ∨ (bare l).length ≤ maxLine then line []
  else skipping

def byte : Stage → UInt8 → Stage
  | line l, b =>
    if b = lineFeed then line []
    else if l.length = maxLine + 1 then skipping
    else line (l ++ [b])
  | skipping, b => if b = lineFeed then line [] else skipping
  | ended, _ => ended

def bytes (p : Stage) (bs : List UInt8) : Stage := bs.foldl byte p

def read : Stage → Read → Stage
  | p, .data bs => p.bytes bs
  | line l, .fault f => if f.isInterrupted then line l else line []
  | skipping, .fault _ => line []
  | line l, .nothing => behind l
  | skipping, .nothing => line []
  | _, .crash => ended
  | ended, _ => ended

@[simp] lemma bytes_nil (p : Stage) : p.bytes [] = p := rfl

@[simp] lemma bytes_cons (p : Stage) (b : UInt8) (bs : List UInt8) :
    p.bytes (b :: bs) = (p.byte b).bytes bs := rfl

lemma bytes_append (p : Stage) (bs cs : List UInt8) :
    p.bytes (bs ++ cs) = (p.bytes bs).bytes cs :=
  List.foldl_append ..

@[simp] lemma ended_bytes (bs : List UInt8) : ended.bytes bs = ended := by
  induction bs with
  | nil => rfl
  | cons b bs ih => exact ih

@[simp] lemma ended_read (r : Read) : ended.read r = ended := by
  cases r with
  | data bs => exact ended_bytes bs
  | _ => rfl

end Stage

/-! ### Taking and skipping -/

/-- A line without a line feed, for which `room + 1` more bytes may be taken. -/
def HasRoom (room : Nat) (line : List UInt8) : Prop :=
  lineFeed ∉ line ∧ line.length + (room + 1) = maxLine + 2

lemma behind_terminated {l : List UInt8} (h : isTerminated l = true) :
    Stage.behind l = .line [] := by
  have hne : l ≠ [] := by
    rintro rfl
    cases h
  rw [Stage.behind, if_neg hne, if_pos (.inl h)]

/-- A line that fills the limit is skipped to its end. -/
lemma behind_full {l : List UInt8} (hl : lineFeed ∉ l) (h : l.length = maxLine + 2) :
    Stage.behind l = .skipping := by
  have hne : l ≠ [] := List.length_pos_iff.mp (by omega)
  have hlong := length_withoutLast carriageReturn l
  rw [← bare_tail hl] at hlong
  have hfits : ¬(isTerminated l = true ∨ (bare l).length ≤ maxLine) := by
    rw [isTerminated_tail hl]
    simp only [Bool.false_eq_true, false_or]
    omega
  rw [Stage.behind, if_neg hne, if_neg hfits]

/-- Taking keeps to the stages, whether it comes to a stop or to the end of the buffer. -/
lemma take_stage {room : Nat} {line : List UInt8} (h : HasRoom room line) (buffer : List UInt8) :
    match take (room + 1) line buffer with
    | .stop out rest => (Stage.line line.reverse).bytes buffer =
        (Stage.behind out.reverse).bytes rest
    | .more room' out => ∃ n, room' = n + 1 ∧ HasRoom n out ∧
        (Stage.line line.reverse).bytes buffer = .line out.reverse := by
  induction buffer generalizing room line with
  | nil => exact ⟨room, rfl, h, rfl⟩
  | cons b bs ih =>
    obtain ⟨hline, hlen⟩ := h
    rw [take]
    by_cases hb : b = lineFeed
    · rw [if_pos hb]
      simp only [Stage.bytes_cons, Stage.byte, if_pos hb]
      rw [behind_terminated]
      simp [isTerminated, hb]
    · rw [if_neg hb]
      have hline' : lineFeed ∉ b :: line :=
        fun hm => (List.mem_cons.mp hm).elim (fun h => hb h.symm) hline
      rcases room with _ | room
      · -- the byte fills the limit
        have hfull : line.reverse.length = maxLine + 1 := by
          rw [List.length_reverse]
          omega
        simp only [take, Stage.bytes_cons, Stage.byte, if_neg hb, if_pos hfull]
        rw [behind_full (fun hm => hline' (List.mem_reverse.mp hm))]
        rw [List.length_reverse, List.length_cons]
        omega
      · have hroom : line.reverse.length ≠ maxLine + 1 := by
          rw [List.length_reverse]
          omega
        have hstep : (Stage.line line.reverse).bytes (b :: bs) =
            (Stage.line (b :: line).reverse).bytes bs := by
          simp only [Stage.bytes_cons, Stage.byte, if_neg hb, if_neg hroom, List.reverse_cons]
        rw [hstep]
        exact ih ⟨hline', by rw [List.length_cons]; omega⟩

lemma hasRoom_nil : HasRoom (maxLine + 1) [] := ⟨List.not_mem_nil, by rw [List.length_nil]; omega⟩

/-- The bytes up to the next line feed, if there is one, and what the reader is at behind them. -/
lemma skipping_bytes (buffer : List UInt8) :
    Stage.skipping.bytes buffer =
      match buffer.dropWhile (· != lineFeed) with
      | _ :: rest => (Stage.line []).bytes rest
      | [] => .skipping := by
  induction buffer with
  | nil => rfl
  | cons b bs ih =>
    by_cases hb : b = lineFeed
    · simp [Stage.byte, hb]
    · have hdrop : (b :: bs).dropWhile (· != lineFeed) = bs.dropWhile (· != lineFeed) := by
        simp [hb]
      rw [hdrop, ← ih]
      simp [Stage.byte, hb]

/-! ### Behind a line -/

/-- What a reader is at behind a line decides how the line is finished. -/
lemma behind_cases {line : List UInt8} (hne : line ≠ []) :
    ((isTerminated line = true ∨ (bare line).length ≤ maxLine) ∧
      Stage.behind line = .line []) ∨
    (isTerminated line = false ∧ ¬(bare line).length ≤ maxLine ∧
      Stage.behind line = .skipping) := by
  by_cases h : isTerminated line = true ∨ (bare line).length ≤ maxLine
  · exact .inl ⟨h, by rw [Stage.behind, if_neg hne, if_pos h]⟩
  · refine .inr ⟨?_, fun hfit => h (.inr hfit), by rw [Stage.behind, if_neg hne, if_neg h]⟩
    exact Bool.eq_false_iff.mpr fun hterm => h (.inl hterm)

lemma finishLine_short {line : List UInt8}
    (h : isTerminated line = true ∨ (bare line).length ≤ maxLine) (rest : Reader) :
    rest.finishLine line = .item (.ofPiece line) rest :=
  h.elim (fun h => finishLine_terminated h rest) fun h => finishLine_fits h rest

end Warden.Diagnostics
