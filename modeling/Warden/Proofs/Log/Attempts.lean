import Mathlib.Tactic.Common
import Warden.Log.Sink

/-!
What a sink is asked for.

A sink may refuse an entry, but not the attempt to append it. A watched sink lists the attempts,
and answers as the sink that it watches. Of all attempts the memory sink keeps the first ones, as
many as it has room for, and refuses the others.
-/

namespace Warden.Log

variable {σ : Type}

lemma Sink.appendAll_append (k : Sink σ) (s : σ) (es fs : List Entry) :
    (k.appendAll s (es ++ fs)).1 = (k.appendAll (k.appendAll s es).1 fs).1 := by
  induction es generalizing s with
  | nil => rfl
  | cons e es ih => exact ih (k.append s e).1

lemma Sink.answers_append (k : Sink σ) (s : σ) (es fs : List Entry) :
    (k.appendAll s (es ++ fs)).2 =
      (k.appendAll s es).2 ++ (k.appendAll (k.appendAll s es).1 fs).2 := by
  induction es generalizing s with
  | nil => rfl
  | cons e es ih => exact congrArg ((k.append s e).2 :: ·) (ih (k.append s e).1)

lemma Sink.appendAll_snoc (k : Sink σ) (s : σ) (es : List Entry) (e : Entry) :
    k.appendAll s (es ++ [e]) =
      ((k.append (k.appendAll s es).1 e).1,
        (k.appendAll s es).2 ++ [(k.append (k.appendAll s es).1 e).2]) :=
  Prod.ext (k.appendAll_append s es [e]) (k.answers_append s es [e])

lemma Sink.length_answers (k : Sink σ) (s : σ) (es : List Entry) :
    (k.appendAll s es).2.length = es.length := by
  induction es generalizing s with
  | nil => rfl
  | cons e es ih => exact congrArg (· + 1) (ih (k.append s e).1)

/-- The sink, with a list of the entries that were tried on it. -/
def Sink.watched (k : Sink σ) : Sink (σ × List Entry) where
  append s e := (((k.append s.1 e).1, s.2 ++ [e]), (k.append s.1 e).2)

/-- Watching changes neither the sink nor its answers. -/
lemma Sink.watched_appendAll (k : Sink σ) (s : σ) (seen es : List Entry) :
    k.watched.appendAll (s, seen) es =
      (((k.appendAll s es).1, seen ++ es), (k.appendAll s es).2) := by
  induction es generalizing s seen with
  | nil => simp [appendAll]
  | cons e es ih =>
    have hfirst : k.watched.append (s, seen) e =
        (((k.append s e).1, seen ++ [e]), (k.append s e).2) := rfl
    simp only [appendAll, hfirst, ih, List.append_assoc, List.singleton_append]

namespace Memory

/-- The entries that a memory has room for, of those in `es`. -/
def fitting (m : Memory) (es : List Entry) : List Entry :=
  match m.capacity with
  | none => es
  | some n => es.take (n - m.entries.size)

lemma append_of_isFull {m : Memory} (h : m.isFull = true) (e : Entry) :
    sink.append m e = (m, some full) := by
  simp [sink, append, h]

lemma append_of_not_isFull {m : Memory} (h : m.isFull = false) (e : Entry) :
    sink.append m e = ({ m with entries := m.entries.push e }, none) := by
  simp [sink, append, h]

lemma fitting_nil (m : Memory) : m.fitting [] = [] := by
  unfold fitting
  split <;> simp

lemma fitting_of_isFull {m : Memory} (h : m.isFull = true) (es : List Entry) :
    m.fitting es = [] := by
  unfold isFull at h
  unfold fitting
  rcases hc : m.capacity with _ | n
  · simp [hc] at h
  · have hn : n ≤ m.entries.size := by simpa [hc] using h
    have hroom : n - m.entries.size = 0 := by omega
    simp only [hroom, List.take_zero]

lemma fitting_of_not_isFull {m : Memory} (h : m.isFull = false) (e : Entry) (es : List Entry) :
    m.fitting (e :: es) = e :: { m with entries := m.entries.push e }.fitting es := by
  unfold isFull at h
  unfold fitting
  rcases hc : m.capacity with _ | n
  · rfl
  · have hn : m.entries.size < n := by simpa [hc] using h
    have hroom : n - m.entries.size = (n - (m.entries.size + 1)) + 1 := by omega
    simp only [Array.size_push, hroom, List.take_succ_cons]

/-- The first entries are kept, as long as there is room, and the others are refused. -/
lemma appendAll_eq (m : Memory) (es : List Entry) :
    sink.appendAll m es =
      ({ m with entries := m.entries ++ (m.fitting es).toArray },
        List.replicate (m.fitting es).length none ++
          List.replicate (es.length - (m.fitting es).length) (some full)) := by
  induction es generalizing m with
  | nil =>
    rw [fitting_nil, Array.append_empty]
    rfl
  | cons e es ih =>
    have hrest : sink.appendAll m (e :: es) =
        ((sink.appendAll (sink.append m e).1 es).1,
          (sink.append m e).2 :: (sink.appendAll (sink.append m e).1 es).2) := rfl
    rw [hrest, ih]
    rcases hfull : m.isFull with _ | _
    · rw [append_of_not_isFull hfull, fitting_of_not_isFull hfull, List.length_cons,
        List.length_cons, Nat.add_sub_add_right]
      simp [List.replicate_succ]
    · rw [append_of_isFull hfull, fitting_of_isFull hfull, fitting_of_isFull hfull]
      rfl

/-- **A memory keeps the first entries that are tried on it, as long as there is room.** -/
theorem appendAll_entries (m : Memory) (es : List Entry) :
    (sink.appendAll m es).1.entries.toList = m.entries.toList ++ m.fitting es := by
  rw [appendAll_eq, Array.toList_append]

/-- How many of so many attempts an empty memory has room for. -/
def room (capacity : Option Nat) (attempts : Nat) : Nat :=
  match capacity with
  | none => attempts
  | some n => min n attempts

lemma room_le (capacity : Option Nat) (attempts : Nat) : room capacity attempts ≤ attempts := by
  rcases capacity with _ | n
  · exact Nat.le_refl attempts
  · exact Nat.min_le_right n attempts

/-- Once there was no room for an attempt, more attempts find no more room. -/
lemma room_of_lt {capacity : Option Nat} {attempts : Nat} (h : room capacity attempts < attempts)
    (more : Nat) : room capacity (attempts + more) = room capacity attempts := by
  rcases capacity with _ | n
  · exact absurd h (Nat.lt_irrefl attempts)
  · simp only [room] at h ⊢
    omega

lemma fitting_empty (capacity : Option Nat) (es : List Entry) :
    (empty capacity).fitting es = es.take (room capacity es.length) := by
  rcases capacity with _ | n
  · exact List.take_length.symm
  · simp [fitting, empty, room]

end Memory

end Warden.Log
