import Warden.Agent.Command
import Warden.Service.Stop
import Warden.Diagnostics.Relay

/-!
The supervisor of one agent.

It launches the agent once and keeps it attached for good. Two tasks belong to an attached agent:
the forwarder relays its diagnostic stream, and the waiter records its exit, lets the forwarder
finish, for a while, and then announces the exit. The exit is recorded once.
-/

namespace Warden

open Agent Log Diagnostics

/-- The task that waits for the agent's exit. -/
inductive Waiter where
  | waiting
  /-- The exit is recorded; the forwarder may still be relaying. -/
  | draining (result : Except Fault Exit)
  | announced
  /-- The task died before it learned anything. -/
  | lost

/-- Whether the task may still announce an exit. -/
def Waiter.isOpen : Waiter → Bool
  | .waiting | .draining _ => true
  | .announced | .lost => false

structure Attached where
  pid : Nat
  exit : Option Exit
  forwarder : Forwarder
  waiter : Waiter

/-- What a supervisor asks of its surroundings when it starts an agent. -/
inductive Inquiry where
  | directory
  | launchable (path : String)
  | launch (c : Command)
  deriving DecidableEq, Repr

structure Surroundings where
  platform : Platform
  directory : Except Fault String
  launchable : String → Bool
  /-- The PID and the diagnostic stream of a launched agent. -/
  launch : Command → Except Fault (Nat × Reader)

/-- A supervisor whose sink has state `σ`. -/
structure Supervisor (σ : Type) where
  agent : String
  arguments : List String
  policy : StopPolicy
  sink : σ
  attached : Option Attached

namespace Supervisor

variable {σ : Type}

def idle (agent : String) (arguments : List String) (policy : StopPolicy) (sink : σ) :
    Supervisor σ :=
  ⟨agent, arguments, policy, sink, none⟩

def pid? (s : Supervisor σ) : Option Nat := s.attached.map (·.pid)

/-- The recorded exit of the attached agent. -/
def exit? (s : Supervisor σ) : Option Exit := s.attached.bind (·.exit)

/-! ### Starting -/

structure Started (σ : Type) where
  result : Except SpawnError Nat
  inquiries : List Inquiry
  supervisor : Supervisor σ

def attach (s : Supervisor σ) (pid : Nat) (r : Reader) : Supervisor σ :=
  { s with attached := some ⟨pid, none, .reading r, .waiting⟩ }

def start (s : Supervisor σ) (w : Surroundings) : Started σ :=
  match s.attached with
  | some a => ⟨.error (.alreadyRunning a.pid), [], s⟩
  | none =>
    match w.directory with
    | .error f => ⟨.error (.locate f), [.directory], s⟩
    | .ok dir =>
      let c := Command.ofName w.platform s.agent dir s.arguments
      if w.launchable c.path then
        let asked := [.directory, .launchable c.path, .launch c]
        match w.launch c with
        | .error f => ⟨.error (.launch c.path f), asked, s⟩
        | .ok (pid, r) => ⟨.ok pid, asked, s.attach pid r⟩
      else ⟨.error (.notFound c.path), [.directory, .launchable c.path], s⟩

/-- What is told about a start that succeeded. -/
def startedRecord (s : Supervisor σ) (pid : Nat) : Record :=
  .info s!"Agent '{s.agent}' started with PID {pid}"

/-! ### The attached agent -/

def onAttached (s : Supervisor σ) (f : Attached → Attached) : Supervisor σ :=
  { s with attached := s.attached.map f }

/-- The agent's stream delivers. -/
def feed (s : Supervisor σ) (rs : List Read) : Supervisor σ :=
  s.onAttached fun a => { a with forwarder := a.forwarder.feed rs }

/-- The agent's stream is closed at its other end. -/
def closeStream (s : Supervisor σ) : Supervisor σ :=
  s.onAttached fun a => { a with forwarder := a.forwarder.close }

/-- One turn of the forwarder. -/
def relayOne (k : Sink σ) (s : Supervisor σ) : Supervisor σ :=
  match s.attached with
  | none => s
  | some a =>
    let (i, f) := a.forwarder.turn
    { s with
      attached := some { a with forwarder := f }
      sink := match i with
        | none => s.sink
        | some i => (k.append s.sink i.entry).1 }

/-- How many turns the forwarder can take before it waits or is over. -/
def turns (s : Supervisor σ) : Nat :=
  match s.attached with
  | none => 0
  | some a => a.forwarder.settle.1.length + 1

/-- The exit that is recorded when waiting gives `result`. -/
def recorded : Except Fault Exit → Exit
  | .ok x => x
  | .error _ => .unknown

/-- The waiter learns how the agent ended and records it. -/
def recordExit (s : Supervisor σ) (result : Except Fault Exit) : Supervisor σ :=
  s.onAttached fun a =>
    match a.waiter with
    | .waiting => { a with exit := some (recorded result), waiter := .draining result }
    | _ => a

/-- The waiter dies. -/
def loseWaiter (s : Supervisor σ) : Supervisor σ :=
  s.onAttached fun a =>
    match a.waiter with
    | .waiting => { a with waiter := .lost }
    | _ => a

/-- The waiter announces the exit, once the forwarder is over or, if `late`, in any case. -/
def announce (s : Supervisor σ) (late : Bool) : Supervisor σ × Option (Except Fault Exit) :=
  match s.attached with
  | none => (s, none)
  | some a =>
    match a.waiter with
    | .draining result =>
      if late || !a.forwarder.isReading then
        ({ s with attached := some { a with waiter := .announced } }, some result)
      else (s, none)
    | _ => (s, none)

end Supervisor

end Warden
