import Mathlib.Logic.Function.Basic
import Warden.Proofs.Log.Attempts

/-!
Writers that share a sink.

Each writer has entries to append, in an order of its own. A schedule says whose turn is next, and a
turn is one whole append, so that the sink sees all entries in one order. What a turn leaves as it
was said (`turn_serial`), and so a run (`run_serial`): the sink has been asked for the entries in
that order and for nothing else, and each writer has got on in its own. The schedules lead to every
order that merges what the writers have to append (`merges_iff`). Of what it is asked for, a memory
keeps the first entries and refuses all others (`Serial.entries`, `Serial.answers`).
-/

namespace Warden.Log

/-! ### Categories of a memory -/

namespace Memory

lemma mem_of (m : Memory) (c : Category) (e : Entry) :
    e ∈ m.of c ↔ e ∈ m.entries.toList ∧ e.category = c := by
  simp [of]

lemma count_of (m : Memory) (c : Category) (e : Entry) :
    (m.of c).count e = if e.category = c then m.entries.toList.count e else 0 := by
  split
  · next hc => exact List.count_filter (by simpa using hc)
  · next hc => exact List.count_eq_zero.mpr fun he => hc ((m.mem_of c e).mp he).2

/-- The parts of the categories hold each entry as often as the memory does. -/
lemma flatMap_of_perm (m : Memory) : (Category.all.flatMap m.of).Perm m.entries.toList := by
  rw [List.perm_iff_count]
  intro e
  simp only [Category.all, List.flatMap_cons, List.flatMap_nil, List.append_nil, List.count_append,
    count_of]
  rcases e.category <;> simp

end Memory

/-! ### Turns -/

/-- One append of a writer, and the answer of the sink. -/
structure Shared.Attempt (ι : Type) where
  writer : ι
  entry : Entry
  answer : Option SinkError

/-- A sink that writers share. -/
structure Shared (σ ι : Type) where
  sink : σ
  /-- What each writer has still to append. -/
  pending : ι → List Entry
  /-- The appends so far, as the sink has seen them. -/
  attempts : List (Shared.Attempt ι)

namespace Shared

variable {σ ι : Type}

def Attempt.call (a : Attempt ι) : ι × Entry := (a.writer, a.entry)

def Attempt.isAccepted (a : Attempt ι) : Bool := a.answer.isNone

/-- The entries that the sink was asked for, each with its writer. -/
def order (s : Shared σ ι) : List (ι × Entry) := s.attempts.map Attempt.call

/-- Writers before their first turn. -/
def start (s : σ) (programs : ι → List Entry) : Shared σ ι := ⟨s, programs, []⟩

variable [DecidableEq ι]

/-- The entries of one writer, of those of all. -/
def part (i : ι) (merged : List (ι × Entry)) : List Entry :=
  (merged.filter (·.1 = i)).map Prod.snd

/-- The sequence consists of the programs of the writers, each in its own order. -/
def Merges (programs : ι → List Entry) (merged : List (ι × Entry)) : Prop :=
  ∀ i, part i merged = programs i

/-- What a writer has tried to append. -/
def tried (s : Shared σ ι) (i : ι) : List Entry := part i s.order

/-- What a writer has appended. -/
def accepted (s : Shared σ ι) (i : ι) : List Entry :=
  part i ((s.attempts.filter Attempt.isAccepted).map Attempt.call)

variable (k : Sink σ)

/-- The next append of a writer, if it has any left. -/
def turn (s : Shared σ ι) (i : ι) : Shared σ ι :=
  match s.pending i with
  | [] => s
  | e :: es =>
    let (sink, answer) := k.append s.sink e
    ⟨sink, Function.update s.pending i es, s.attempts ++ [⟨i, e, answer⟩]⟩

def run (s : Shared σ ι) (schedule : List ι) : Shared σ ι := schedule.foldl (turn k) s

@[simp] lemma run_nil (s : Shared σ ι) : s.run k [] = s := rfl

@[simp] lemma run_cons (s : Shared σ ι) (i : ι) (schedule : List ι) :
    s.run k (i :: schedule) = (s.turn k i).run k schedule := rfl

lemma turn_of_nil {s : Shared σ ι} {i : ι} (h : s.pending i = []) : s.turn k i = s := by
  simp only [turn, h]

lemma turn_of_cons {s : Shared σ ι} {i : ι} {e : Entry} {es : List Entry}
    (h : s.pending i = e :: es) :
    s.turn k i = ⟨(k.append s.sink e).1, Function.update s.pending i es,
      s.attempts ++ [⟨i, e, (k.append s.sink e).2⟩]⟩ := by
  simp only [turn, h]

lemma turn_order {s : Shared σ ι} {i : ι} {e : Entry} {es : List Entry}
    (h : s.pending i = e :: es) : (s.turn k i).order = s.order ++ [(i, e)] := by
  rw [turn_of_cons k h, order, List.map_append]
  rfl

lemma turn_pending {s : Shared σ ι} {i : ι} {e : Entry} {es : List Entry}
    (h : s.pending i = e :: es) : (s.turn k i).pending = Function.update s.pending i es := by
  rw [turn_of_cons k h]

/-! ### One order for all -/

lemma part_append (i : ι) (xs ys : List (ι × Entry)) :
    part i (xs ++ ys) = part i xs ++ part i ys := by
  simp [part]

lemma part_self (i : ι) (e : Entry) (xs : List (ι × Entry)) :
    part i ((i, e) :: xs) = e :: part i xs := by
  simp [part]

lemma part_of_ne {i j : ι} (h : j ≠ i) (e : Entry) (xs : List (ι × Entry)) :
    part i ((j, e) :: xs) = part i xs := by
  simp [part, h]

/-- The sink was asked for what the writers have tried, and each of them has tried the first
entries of its program. -/
structure Serial (s₀ : σ) (programs : ι → List Entry) (s : Shared σ ι) : Prop where
  asked : k.appendAll s₀ (s.order.map Prod.snd) = (s.sink, s.attempts.map Attempt.answer)
  tried : ∀ i, s.tried i ++ s.pending i = programs i

lemma start_serial (s₀ : σ) (programs : ι → List Entry) :
    Serial k s₀ programs (start s₀ programs) := ⟨rfl, fun _ => rfl⟩

/-- What a writer has tried goes over from what is pending, entry by entry. -/
lemma turn_tried (s : Shared σ ι) (i j : ι) :
    (s.turn k i).tried j ++ (s.turn k i).pending j = s.tried j ++ s.pending j := by
  rcases hi : s.pending i with _ | ⟨e, es⟩
  · rw [turn_of_nil k hi]
  · rw [tried, turn_order k hi, turn_pending k hi, part_append, List.append_assoc]
    by_cases hij : j = i
    · rw [hij, part_self, Function.update_self, hi]
      rfl
    · rw [part_of_ne (Ne.symm hij), Function.update_of_ne hij]
      rfl

variable {k} {s₀ : σ} {programs : ι → List Entry}

lemma turn_serial {s : Shared σ ι} (h : Serial k s₀ programs s) (i : ι) :
    Serial k s₀ programs (s.turn k i) := by
  refine ⟨?_, fun j => (turn_tried k s i j).trans (h.tried j)⟩
  rcases hi : s.pending i with _ | ⟨e, es⟩
  · rw [turn_of_nil k hi]
    exact h.asked
  · rw [turn_order k hi, List.map_append]
    refine (k.appendAll_snoc s₀ (s.order.map Prod.snd) e).trans ?_
    rw [h.asked, turn_of_cons k hi, List.map_append]
    rfl

lemma run_serial {s : Shared σ ι} (h : Serial k s₀ programs s) (schedule : List ι) :
    Serial k s₀ programs (s.run k schedule) := by
  induction schedule generalizing s with
  | nil => exact h
  | cons i schedule ih => exact ih (turn_serial h i)

lemma run_attempts (s : Shared σ ι) (schedule : List ι) :
    ∃ as, (s.run k schedule).attempts = s.attempts ++ as := by
  induction schedule generalizing s with
  | nil => exact ⟨[], (List.append_nil _).symm⟩
  | cons i schedule ih =>
    obtain ⟨as, has⟩ := ih (s.turn k i)
    rcases hi : s.pending i with _ | ⟨e, es⟩
    · exact ⟨as, by rw [run_cons, has, turn_of_nil k hi]⟩
    · refine ⟨⟨i, e, (k.append s.sink e).2⟩ :: as, ?_⟩
      rw [run_cons, has, turn_of_cons k hi, List.append_assoc]
      rfl

/-- The writers of a merged sequence, one by one, try what it says. -/
lemma run_writers {s : Shared σ ι} {merged : List (ι × Entry)} (h : Merges s.pending merged) :
    (s.run k (merged.map Prod.fst)).order = s.order ++ merged ∧
      ∀ i, (s.run k (merged.map Prod.fst)).pending i = [] := by
  induction merged generalizing s with
  | nil => exact ⟨(List.append_nil _).symm, fun i => (h i).symm⟩
  | cons x merged ih =>
    obtain ⟨i, e⟩ := x
    have hi : s.pending i = e :: part i merged := by rw [← h i, part_self]
    have hrest : Merges (s.turn k i).pending merged := by
      intro j
      rw [turn_pending k hi]
      by_cases hij : j = i
      · rw [hij, Function.update_self]
      · rw [Function.update_of_ne hij, ← h j, part_of_ne (Ne.symm hij)]
    obtain ⟨horder, hpending⟩ := ih hrest
    refine ⟨?_, hpending⟩
    rw [List.map_cons, run_cons, horder, turn_order k hi, List.append_assoc]
    rfl

/-- The orders in which writers can get through their programs are all merged sequences of these. -/
lemma merges_iff (merged : List (ι × Entry)) :
    Merges programs merged ↔
      ∃ schedule, ((start s₀ programs).run k schedule).order = merged ∧
        ∀ i, ((start s₀ programs).run k schedule).pending i = [] := by
  constructor
  · intro h
    exact ⟨merged.map Prod.fst, run_writers (s := start s₀ programs) h⟩
  · rintro ⟨schedule, rfl, hpending⟩ i
    have htried := (run_serial (start_serial k s₀ programs) schedule).tried i
    rwa [hpending i, List.append_nil] at htried

/-! ### A memory for all -/

section

variable {capacity : Option Nat} {s : Shared Memory ι}

lemma Serial.entries (h : Serial Memory.sink (.empty capacity) programs s) :
    s.sink.entries.toList =
      (s.attempts.take (Memory.room capacity s.attempts.length)).map Attempt.entry := by
  have hcalls : s.order.map Prod.snd = s.attempts.map Attempt.entry := by
    rw [order, List.map_map]
    rfl
  have hsink : (Memory.sink.appendAll (.empty capacity) (s.order.map Prod.snd)).1 = s.sink :=
    congrArg Prod.fst h.asked
  rw [← hsink, Memory.appendAll_entries, Memory.fitting_empty, hcalls, List.length_map,
    List.map_take]
  rfl

lemma Serial.answers (h : Serial Memory.sink (.empty capacity) programs s) :
    let n := Memory.room capacity s.attempts.length
    s.attempts.map Attempt.answer =
      List.replicate n none ++ List.replicate (s.attempts.length - n) (some Memory.full) := by
  intro n
  have hle : n ≤ s.attempts.length := Memory.room_le capacity s.attempts.length
  have hasked := h.asked
  rw [Memory.appendAll_eq, Memory.fitting_empty, List.length_take, List.length_map, order,
    List.length_map, Nat.min_eq_left hle] at hasked
  exact (congrArg Prod.snd hasked).symm

lemma Serial.answer_of_mem_take (h : Serial Memory.sink (.empty capacity) programs s)
    {a : Attempt ι} (ha : a ∈ s.attempts.take (Memory.room capacity s.attempts.length)) :
    a.answer = none := by
  have hmem := List.mem_map_of_mem (f := Attempt.answer) ha
  rw [List.map_take, h.answers, List.take_left' (List.length_replicate ..)] at hmem
  exact List.eq_of_mem_replicate hmem

lemma Serial.answer_of_mem_drop (h : Serial Memory.sink (.empty capacity) programs s)
    {a : Attempt ι} (ha : a ∈ s.attempts.drop (Memory.room capacity s.attempts.length)) :
    a.answer = some Memory.full := by
  have hmem := List.mem_map_of_mem (f := Attempt.answer) ha
  rw [List.map_drop, h.answers, List.drop_left' (List.length_replicate ..)] at hmem
  exact List.eq_of_mem_replicate hmem

lemma Serial.filter_accepted (h : Serial Memory.sink (.empty capacity) programs s) :
    s.attempts.filter Attempt.isAccepted =
      s.attempts.take (Memory.room capacity s.attempts.length) := by
  set n := Memory.room capacity s.attempts.length
  have hkept : (s.attempts.take n).filter Attempt.isAccepted = s.attempts.take n := by
    refine List.filter_eq_self.mpr fun a ha => ?_
    rw [Attempt.isAccepted, h.answer_of_mem_take ha]
    rfl
  have hrefused : (s.attempts.drop n).filter Attempt.isAccepted = [] := by
    refine List.filter_eq_nil_iff.mpr fun a ha => ?_
    rw [Attempt.isAccepted, h.answer_of_mem_drop ha]
    exact Bool.false_ne_true
  calc s.attempts.filter Attempt.isAccepted
      = (s.attempts.take n ++ s.attempts.drop n).filter Attempt.isAccepted := by
        rw [List.take_append_drop]
    _ = s.attempts.take n := by
        rw [List.filter_append, hkept, hrefused, List.append_nil]

/-- Where an attempt was refused, there was no room. -/
lemma Serial.room_lt (h : Serial Memory.sink (.empty capacity) programs s) {a : Attempt ι}
    (ha : a ∈ s.attempts) (hanswer : a.answer ≠ none) :
    Memory.room capacity s.attempts.length < s.attempts.length := by
  by_contra hroom
  refine hanswer (h.answer_of_mem_take ?_)
  rwa [List.take_of_length_le (by omega)]

/-- Behind a refusal all is refused, and nothing changes. -/
lemma Serial.refused (h : Serial Memory.sink (.empty capacity) programs s) {a : Attempt ι}
    (ha : a ∈ s.attempts) (hanswer : a.answer ≠ none) (more : List ι) :
    (s.run Memory.sink more).sink.entries = s.sink.entries ∧
      ∃ refused, (s.run Memory.sink more).attempts = s.attempts ++ refused ∧
        ∀ b ∈ refused, b.answer = some Memory.full := by
  obtain ⟨as, has⟩ := run_attempts (k := Memory.sink) s more
  have hrun := run_serial h more
  have hlt := h.room_lt ha hanswer
  have hroom : Memory.room capacity (s.run Memory.sink more).attempts.length =
      Memory.room capacity s.attempts.length := by
    rw [has, List.length_append, Memory.room_of_lt hlt]
  refine ⟨?_, as, has, fun b hb => hrun.answer_of_mem_drop ?_⟩
  · rw [← Array.toList_inj, hrun.entries, h.entries, hroom, has,
      List.take_append_of_le_length (by omega)]
  · rw [hroom, has, List.drop_append_of_le_length (by omega)]
    exact List.mem_append_right _ hb

end

/-- **Of all that writers try to append to a memory they share, it keeps the first attempts.**
The schedules lead to every order that merges the programs of the writers. Wherever a schedule
has led, the memory holds the first attempts in their order, as many as it has room for, and
these are the ones that were accepted. Behind an attempt that was refused every other one is
refused, and the entries stay as they are. What a writer has appended is a prefix of what it has
tried, and this of its program. The categories divide the entries among them, each in the order
of the memory. -/
theorem first_attempts_kept (capacity : Option Nat) (programs : ι → List Entry) :
    let init := start (Memory.empty capacity) programs
    (∀ merged, Merges programs merged ↔
      ∃ schedule, (init.run Memory.sink schedule).order = merged ∧
        ∀ i, (init.run Memory.sink schedule).pending i = []) ∧
    ∀ schedule,
      let s := init.run Memory.sink schedule
      let stored := s.sink.entries.toList
      (∀ n, capacity = some n → stored.length ≤ n) ∧
      stored = (s.order.map Prod.snd).take (Memory.room capacity s.order.length) ∧
      stored = (s.attempts.filter Attempt.isAccepted).map Attempt.entry ∧
      (∀ a ∈ s.attempts, a.answer ≠ none → ∀ more,
        (s.run Memory.sink more).sink.entries = s.sink.entries ∧
        ∃ refused, (s.run Memory.sink more).attempts = s.attempts ++ refused ∧
          ∀ b ∈ refused, b.answer = some Memory.full) ∧
      (∀ i, s.accepted i <+: s.tried i ∧ s.tried i ++ s.pending i = programs i) ∧
      (Category.all.flatMap s.sink.of).Perm stored ∧
      ∀ c, (s.sink.of c).Sublist stored ∧ ∀ e, e ∈ s.sink.of c ↔ e ∈ stored ∧ e.category = c := by
  intro init
  refine ⟨merges_iff, fun schedule => ?_⟩
  intro s stored
  have h : Serial Memory.sink (.empty capacity) programs s :=
    run_serial (start_serial _ _ _) schedule
  refine ⟨fun n hn => ?_, ?_, ?_, fun a ha hanswer => h.refused ha hanswer, fun i => ⟨?_, h.tried i⟩,
    s.sink.flatMap_of_perm, fun c => ⟨List.filter_sublist, s.sink.mem_of c⟩⟩
  · calc stored.length
        = ((s.attempts.take (Memory.room capacity s.attempts.length)).map Attempt.entry).length :=
          congrArg List.length h.entries
      _ ≤ Memory.room capacity s.attempts.length := by
          rw [List.length_map]
          exact List.length_take_le ..
      _ ≤ n := by
          rw [hn]
          exact Nat.min_le_left n _
  · rw [order, List.length_map, List.map_map, ← List.map_take]
    exact h.entries
  · rw [h.filter_accepted]
    exact h.entries
  · rw [accepted, h.filter_accepted]
    exact (((List.take_prefix _ _).map _).filter _).map _

/-- The entries of two writers, one that relays lines and one that tells of the agent's end. -/
def lineAndCrash : Bool → List Entry
  | false => [⟨.relayed, .info, "a"⟩, ⟨.relayed, .error, "b"⟩]
  | true => [⟨.stopFailure, .error, "c"⟩, ⟨.stopFailure, .error, "d"⟩]

/-- The second line finds no room. The last turn but one is that of a writer with nothing left. -/
theorem first_attempts_kept_two_writers :
    let init := start (Memory.empty (some 2)) lineAndCrash
    let s := init.run Memory.sink [false, true, false, false, true]
    s.sink.entries.toList = [⟨.relayed, .info, "a"⟩, ⟨.stopFailure, .error, "c"⟩] ∧
      s.accepted false <+: s.tried false ∧ s.tried false = lineAndCrash false ∧
      ∀ more, (s.run Memory.sink more).sink.entries = s.sink.entries := by
  intro init s
  obtain ⟨-, hrun⟩ := first_attempts_kept (some 2) lineAndCrash
  obtain ⟨-, hstored, -, hrefused, hparts, -⟩ := hrun [false, true, false, false, true]
  refine ⟨hstored.trans rfl, (hparts false).1, ?_, fun more => ?_⟩
  · have hpending : s.pending false = [] := rfl
    have htried := (hparts false).2
    rwa [hpending, List.append_nil] at htried
  · have hlast : (⟨false, ⟨.relayed, .error, "b"⟩, some Memory.full⟩ : Attempt Bool) ∈ s.attempts :=
      .tail _ (.tail _ (.head _))
    exact (hrefused _ hlast (by simp) more).1

end Shared

end Warden.Log
