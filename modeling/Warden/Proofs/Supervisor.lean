import Mathlib.Tactic.Common
import Warden.Supervisor

/-!
What becomes of a supervisor.

A supervisor without an agent makes one attempt to start it: it fails in one of three ways and
stays as it is, or attaches the agent (`Supervisor.start_attempted`). With an agent it refuses at
once (`Supervisor.start_attached`). From then on nothing changes but by a move of the agent: its
stream delivers, its forwarder turns, its waiter goes its way (`Supervisor.move_of_some`).
-/

namespace Warden

open Agent Log Diagnostics

/-! ### Moves of an agent -/

/-- What can happen to an attached agent: at its stream, by its forwarder, and by its waiter. -/
inductive Attached.Move where
  | deliver (d : Read)
  | close
  | relay
  | exit (result : Except Fault Exit)
  | lose
  | announce (late : Bool)

/-- The forwarder behind a move. -/
def Diagnostics.Forwarder.move (f : Forwarder) : Attached.Move → Forwarder
  | .deliver d => f.feed [d]
  | .close => f.close
  | .relay => f.turn.2
  | .exit _ | .lose | .announce _ => f

/-- The entries that a move adds to the log. -/
def Diagnostics.Forwarder.relayed (f : Forwarder) : Attached.Move → List Entry
  | .relay => f.turn.1.toList.map Item.entry
  | _ => []

namespace Attached

/-- What a move does to the recorded exit and to the waiter, and what is announced. The waiter
learns once how the agent ended, and announces once what it has learned; or it dies before. -/
inductive Shift (b c : Attached) : Move → Option (Except Fault Exit) → Prop where
  | stay {m : Move} (hx : c.exit = b.exit) (hw : c.waiter = b.waiter) : Shift b c m none
  | learn {result : Except Fault Exit} (hb : b.waiter = .waiting)
    (hx : c.exit = some (Supervisor.recorded result)) (hw : c.waiter = .draining result) :
    Shift b c (.exit result) none
  | die (hb : b.waiter = .waiting) (hx : c.exit = b.exit) (hw : c.waiter = .lost) :
    Shift b c .lose none
  | tell {late : Bool} {result : Except Fault Exit} (hb : b.waiter = .draining result)
    (hx : c.exit = b.exit) (hw : c.waiter = .announced)
    (hend : late = false → b.forwarder.isReading = false) :
    Shift b c (.announce late) (some result)

/-- `c` is the agent of `b` behind a move. -/
structure Moves (b : Attached) (m : Move) (c : Attached) (told : Option (Except Fault Exit)) :
    Prop where
  pid : c.pid = b.pid
  forwarder : c.forwarder = b.forwarder.move m
  shift : b.Shift c m told

end Attached

namespace Supervisor

variable {σ : Type}

/-! ### One start -/

/-- The PID that a start has returned. -/
def Started.pid? (c : Started σ) : Option Nat := c.result.toOption

/-- What a start may come to that finds no agent: its answer, what it asks for, in order, and the
supervisor behind it. -/
inductive Attempted (s : Supervisor σ) (w : Surroundings) : Started σ → Prop where
  | astray {f : Fault} (hdir : w.directory = .error f) :
    Attempted s w ⟨.error (.locate f), [.directory], s⟩
  | missing {dir : String} (hdir : w.directory = .ok dir)
    (hpath : w.launchable (Agent.path w.platform dir s.agent) = false) :
    Attempted s w ⟨.error (.notFound (Agent.path w.platform dir s.agent)),
      [.directory, .launchable (Agent.path w.platform dir s.agent)], s⟩
  | refused {dir : String} {f : Fault} (hdir : w.directory = .ok dir)
    (hpath : w.launchable (Agent.path w.platform dir s.agent) = true)
    (hlaunch : w.launch (.ofName w.platform s.agent dir s.arguments) = .error f) :
    Attempted s w ⟨.error (.launch (Agent.path w.platform dir s.agent) f),
      [.directory, .launchable (Agent.path w.platform dir s.agent),
        .launch (.ofName w.platform s.agent dir s.arguments)], s⟩
  | launched {dir : String} {pid : Nat} {r : Reader} (hdir : w.directory = .ok dir)
    (hpath : w.launchable (Agent.path w.platform dir s.agent) = true)
    (hlaunch : w.launch (.ofName w.platform s.agent dir s.arguments) = .ok (pid, r)) :
    Attempted s w ⟨.ok pid,
      [.directory, .launchable (Agent.path w.platform dir s.agent),
        .launch (.ofName w.platform s.agent dir s.arguments)], s.attach pid r⟩

lemma start_attempted {s : Supervisor σ} (h : s.attached = none) (w : Surroundings) :
    s.Attempted w (s.start w) := by
  have hcommand (dir : String) :
      (Command.ofName w.platform s.agent dir s.arguments).path =
        Agent.path w.platform dir s.agent := rfl
  unfold start
  simp only [h, hcommand]
  rcases hdir : w.directory with f | dir
  · exact .astray hdir
  · simp only
    rcases hpath : w.launchable (Agent.path w.platform dir s.agent) with _ | _
    · exact .missing hdir hpath
    · simp only [if_true]
      rcases hlaunch : w.launch (.ofName w.platform s.agent dir s.arguments) with f | ⟨pid, r⟩
      · exact .refused hdir hpath hlaunch
      · exact .launched hdir hpath hlaunch

lemma start_attached {s : Supervisor σ} {a : Attached} (h : s.attached = some a)
    (w : Surroundings) : s.start w = ⟨.error (.alreadyRunning a.pid), [], s⟩ := by
  unfold start
  rw [h]

/-- The agent is launched only from a directory that was located, and where it may be. -/
lemma Attempted.launch {s : Supervisor σ} {w : Surroundings} {c : Started σ} (h : s.Attempted w c)
    {cmd : Command} (hc : .launch cmd ∈ c.inquiries) :
    ∃ dir, w.directory = .ok dir ∧ w.launchable (Agent.path w.platform dir s.agent) = true ∧
      cmd = .ofName w.platform s.agent dir s.arguments := by
  cases h with
  | astray | missing => simp at hc
  | refused hdir hpath => exact ⟨_, hdir, hpath, by simpa using hc⟩
  | launched hdir hpath => exact ⟨_, hdir, hpath, by simpa using hc⟩

/-- An agent that is found where it may be launched is launched. -/
lemma Attempted.launch_mem {s : Supervisor σ} {w : Surroundings} {c : Started σ}
    (h : s.Attempted w c) {dir : String} (hdir : w.directory = .ok dir)
    (hpath : w.launchable (Agent.path w.platform dir s.agent) = true) :
    .launch (.ofName w.platform s.agent dir s.arguments) ∈ c.inquiries := by
  cases h with
  | astray hdir' => cases hdir.symm.trans hdir'
  | missing hdir' hpath' =>
    cases hdir.symm.trans hdir'
    cases hpath.symm.trans hpath'
  | refused hdir' =>
    cases hdir.symm.trans hdir'
    simp
  | launched hdir' =>
    cases hdir.symm.trans hdir'
    simp

/-- A start that finds all it asks for succeeds. -/
lemma Attempted.pid_of_launch {s : Supervisor σ} {w : Surroundings} {c : Started σ}
    (h : s.Attempted w c) {dir : String} {pid : Nat} {r : Reader} (hdir : w.directory = .ok dir)
    (hpath : w.launchable (Agent.path w.platform dir s.agent) = true)
    (hlaunch : w.launch (.ofName w.platform s.agent dir s.arguments) = .ok (pid, r)) :
    c.pid? = some pid := by
  cases h with
  | astray hdir' => cases hdir.symm.trans hdir'
  | missing hdir' hpath' =>
    cases hdir.symm.trans hdir'
    cases hpath.symm.trans hpath'
  | refused hdir' _ hlaunch' =>
    cases hdir.symm.trans hdir'
    cases hlaunch.symm.trans hlaunch'
  | launched hdir' _ hlaunch' =>
    cases hdir.symm.trans hdir'
    cases hlaunch.symm.trans hlaunch'
    rfl

/-- The supervisor holds the agent that a start has returned, or stays as it is. -/
lemma Attempted.pid_eq {s : Supervisor σ} {w : Surroundings} {c : Started σ}
    (h : s.Attempted w c) (hs : s.attached = none) : c.supervisor.pid? = c.pid? := by
  cases h with
  | astray | missing | refused =>
    rw [Supervisor.pid?, hs]
    rfl
  | launched => rfl

lemma Attempted.keeps {s : Supervisor σ} {w : Surroundings} {c : Started σ}
    (h : s.Attempted w c) :
    c.supervisor.agent = s.agent ∧ c.supervisor.arguments = s.arguments := by
  cases h <;> exact ⟨rfl, rfl⟩

/-- A start that succeeds has attached the agent. -/
lemma attach_of_start {s : Supervisor σ} {w : Surroundings} {pid : Nat}
    (h : (s.start w).result = .ok pid) : ∃ r, (s.start w).supervisor = s.attach pid r := by
  rcases hs : s.attached with _ | a
  · have hattempt := start_attempted hs w
    generalize s.start w = c at h hattempt
    cases hattempt with
    | astray | missing | refused => cases h
    | launched =>
      cases h
      exact ⟨_, rfl⟩
  · rw [start_attached hs] at h
    cases h

/-! ### The tasks of the agent -/

section
variable (s : Supervisor σ)

lemma onAttached_of_none {s : Supervisor σ} (h : s.attached = none) (f : Attached → Attached) :
    s.onAttached f = s := by
  obtain ⟨agent, arguments, policy, sink, attached⟩ := s
  obtain rfl : attached = none := h
  rfl

lemma onAttached_of_some {s : Supervisor σ} {a : Attached} (h : s.attached = some a)
    (f : Attached → Attached) : s.onAttached f = { s with attached := some (f a) } := by
  rw [onAttached, h]
  rfl

lemma onAttached_of_eq {s : Supervisor σ} {a : Attached} (h : s.attached = some a)
    {f : Attached → Attached} (hf : f a = a) : s.onAttached f = s := by
  obtain ⟨agent, arguments, policy, sink, attached⟩ := s
  obtain rfl : attached = some a := h
  rw [onAttached_of_some rfl, hf]

/-- An exit is recorded only while the waiter has learned nothing. -/
lemma recordExit_cases (result : Except Fault Exit) :
    s.recordExit result = s ∨ ∃ a, s.attached = some a ∧ a.waiter = .waiting ∧
      s.recordExit result = { s with
        attached := some
          { a with exit := some (recorded result), waiter := .draining result } } := by
  rcases h : s.attached with _ | a
  · exact .inl (onAttached_of_none h _)
  · rcases hw : a.waiter with _ | _ | _ | _
    · refine .inr ⟨a, rfl, hw, ?_⟩
      rw [recordExit, onAttached_of_some h, hw]
    all_goals exact .inl (onAttached_of_eq h (by rw [hw]))

/-- The waiter dies only while it has learned nothing. -/
lemma loseWaiter_cases :
    s.loseWaiter = s ∨ ∃ a, s.attached = some a ∧ a.waiter = .waiting ∧
      s.loseWaiter = { s with attached := some { a with waiter := .lost } } := by
  rcases h : s.attached with _ | a
  · exact .inl (onAttached_of_none h _)
  · rcases hw : a.waiter with _ | _ | _ | _
    · refine .inr ⟨a, rfl, hw, ?_⟩
      rw [loseWaiter, onAttached_of_some h, hw]
    all_goals exact .inl (onAttached_of_eq h (by rw [hw]))

/-- The waiter announces what it has learned, and only that. -/
lemma announce_cases (late : Bool) :
    s.announce late = (s, none) ∨ ∃ a result, s.attached = some a ∧ a.waiter = .draining result ∧
      (late = false → a.forwarder.isReading = false) ∧
      s.announce late =
        ({ s with attached := some { a with waiter := .announced } }, some result) := by
  rcases h : s.attached with _ | a
  · left
    rw [announce, h]
  · rcases hw : a.waiter with _ | result | _ | _
    · left
      simp only [announce, h, hw]
    · rcases hready : late || !a.forwarder.isReading with _ | _
      · left
        simp [announce, h, hw, hready]
      · refine .inr ⟨a, result, rfl, hw, fun hlate => ?_, ?_⟩
        · simpa [hlate] using hready
        · simp only [announce, h, hw, hready, if_true]
    · left
      simp only [announce, h, hw]
    · left
      simp only [announce, h, hw]

/-- A turn of the forwarder changes the forwarder, and the sink if it relays an item. -/
lemma relayOne_cases (k : Sink σ) :
    s.relayOne k = s ∧ s.attached = none ∨ ∃ a, s.attached = some a ∧
      s.relayOne k = { s with
        attached := some { a with forwarder := a.forwarder.turn.2 }
        sink := (k.appendAll s.sink (a.forwarder.turn.1.toList.map Item.entry)).1 } := by
  rcases h : s.attached with _ | a
  · left
    rw [relayOne, h]
    exact ⟨rfl, rfl⟩
  · right
    refine ⟨a, rfl, ?_⟩
    simp only [relayOne, h]
    rcases a.forwarder.turn with ⟨_ | i, f⟩ <;> rfl

end

/-- All that can happen to an attached agent, and what is announced by it. -/
def move (k : Sink σ) (s : Supervisor σ) :
    Attached.Move → Supervisor σ × Option (Except Fault Exit)
  | .deliver d => (s.feed [d], none)
  | .close => (s.closeStream, none)
  | .relay => (s.relayOne k, none)
  | .exit result => (s.recordExit result, none)
  | .lose => (s.loseWaiter, none)
  | .announce late => s.announce late

lemma move_of_none (k : Sink σ) {s : Supervisor σ} (h : s.attached = none) (m : Attached.Move) :
    s.move k m = (s, none) := by
  cases m with
  | deliver | close | exit | lose => exact congrArg (·, none) (onAttached_of_none h _)
  | relay =>
    obtain ⟨hsame, -⟩ | ⟨a, ha, -⟩ := s.relayOne_cases k
    · exact congrArg (·, none) hsame
    · cases h.symm.trans ha
  | announce late =>
    obtain hsame | ⟨a, result, ha, -⟩ := s.announce_cases late
    · exact hsame
    · cases h.symm.trans ha

/-- **A move changes the agent as it should, and the sink by what is relayed.** -/
theorem move_of_some (k : Sink σ) {s : Supervisor σ} {b : Attached} (hb : s.attached = some b)
    (m : Attached.Move) : ∃ c, b.Moves m c (s.move k m).2 ∧ (s.move k m).1 =
      { s with attached := some c, sink := (k.appendAll s.sink (b.forwarder.relayed m)).1 } := by
  have hsame : s = { s with attached := some b } := by
    rw [← hb]
  cases m with
  | deliver d =>
    exact ⟨{ b with forwarder := b.forwarder.feed [d] }, ⟨rfl, rfl, .stay rfl rfl⟩,
      onAttached_of_some hb _⟩
  | close =>
    exact ⟨{ b with forwarder := b.forwarder.close }, ⟨rfl, rfl, .stay rfl rfl⟩,
      onAttached_of_some hb _⟩
  | relay =>
    obtain ⟨-, hnone⟩ | ⟨a, ha, hrelay⟩ := s.relayOne_cases k
    · cases hb.symm.trans hnone
    · obtain rfl : b = a := Option.some.inj (hb.symm.trans ha)
      exact ⟨{ b with forwarder := b.forwarder.turn.2 }, ⟨rfl, rfl, .stay rfl rfl⟩, hrelay⟩
  | exit result =>
    obtain hstay | ⟨a, ha, hw, hlearn⟩ := s.recordExit_cases result
    · exact ⟨b, ⟨rfl, rfl, .stay rfl rfl⟩, hstay.trans hsame⟩
    · obtain rfl : b = a := Option.some.inj (hb.symm.trans ha)
      exact ⟨{ b with exit := some (recorded result), waiter := .draining result },
        ⟨rfl, rfl, .learn hw rfl rfl⟩, hlearn⟩
  | lose =>
    obtain hstay | ⟨a, ha, hw, hdie⟩ := s.loseWaiter_cases
    · exact ⟨b, ⟨rfl, rfl, .stay rfl rfl⟩, hstay.trans hsame⟩
    · obtain rfl : b = a := Option.some.inj (hb.symm.trans ha)
      exact ⟨{ b with waiter := .lost }, ⟨rfl, rfl, .die hw rfl rfl⟩, hdie⟩
  | announce late =>
    obtain hstay | ⟨a, result, ha, hw, hend, htell⟩ := s.announce_cases late
    · refine ⟨b, ⟨rfl, rfl, ?_⟩, (congrArg Prod.fst hstay).trans hsame⟩
      rw [move, hstay]
      exact .stay rfl rfl
    · obtain rfl : b = a := Option.some.inj (hb.symm.trans ha)
      refine ⟨{ b with waiter := .announced }, ⟨rfl, rfl, ?_⟩, congrArg Prod.fst htell⟩
      rw [move, htell]
      exact .tell hw rfl rfl hend

end Supervisor

end Warden
