import Warden.Service.Loop
import Warden.Supervisor

/-!
One run of a service, with all its tasks.

The control loop, the forwarder and the waiter share the sink, the recorded exit and the inbox.
An act is one step of one of them, or of the world around them: the host, the agent and its
stream, the answers to the signals sent. The acts may come in any order; one that is not possible
at its time changes nothing.
-/

namespace Warden.Service

open Agent Log Diagnostics

inductive Act where
  /-- The host sends a request. -/
  | request (r : Request)
  /-- The host gives up its end of the inbox. -/
  | hangUp
  /-- The host stops listening to the statuses. -/
  | deafen
  /-- The agent's stream delivers. -/
  | deliver (r : Read)
  /-- The agent's stream is closed. -/
  | close
  /-- The forwarder takes a turn. -/
  | relay
  /-- The agent's exit becomes known and is recorded. -/
  | exit (result : Except Fault Exit)
  /-- The waiter dies. -/
  | lose
  /-- The waiter announces the exit behind the forwarder's end. -/
  | announce
  /-- The waiter announces the exit although the forwarder is not over. -/
  | announceLate
  /-- The loop takes the next event. -/
  | receive
  /-- The loop reads the clock and looks for the recorded exit. -/
  | look (now : Nat)
  /-- The interrupt returns, and if it has not failed the clock is read. -/
  | interrupted (result : Except Fault Nat)
  /-- The kill returns. -/
  | killed (result : Except Fault Unit)

/-- A run in progress. `trace` lists what the loop has done, `heard` the statuses that somebody
listened to. -/
structure Run (σ : Type) where
  supervisor : Supervisor σ
  inbox : List Event
  /-- Whether the host still holds its end of the inbox. -/
  host : Bool
  /-- Whether the host listens to the statuses. -/
  listens : Bool
  course : Loop.Course
  trace : List Effect
  heard : List Status

namespace Run

variable {σ : Type}

def isOver (r : Run σ) : Bool :=
  match r.course with
  | .ended _ => true
  | .serving _ => false

def outcome? (r : Run σ) : Option Outcome :=
  match r.course with
  | .ended o => some o
  | .serving _ => none

def records (r : Run σ) : List Record := Service.records r.trace

/-- What the loop reports, tells and records when it starts the agent. -/
def startEffects (s : Supervisor σ) : Except SpawnError Nat → List Effect
  | .ok pid => [.report .startPending, .tell (s.startedRecord pid), .report .running]
  | .error e =>
    [.report .startPending, .tell (.error s!"Failed to start agent: {e.message}"),
      Loop.failure .startFailure e.message]

def startCourse (s : Supervisor σ) : Except SpawnError Nat → Loop.Course
  | .ok pid => .serving (.ofAgent pid s.policy)
  | .error _ => .ended .startFailed

variable (k : Sink σ)

/-- Does what the loop asks for. -/
def carryOut (r : Run σ) (step : Loop.Course × List Effect) : Run σ :=
  let (sink, done) := performAll k r.supervisor.sink step.2
  { r with
    supervisor := { r.supervisor with sink }
    course := step.1
    trace := r.trace ++ done
    heard := if r.listens then r.heard ++ statuses done else r.heard }

/-- A fresh run of a supervisor's agent, up to its first event. -/
def start (s : Supervisor σ) (w : Surroundings) : Run σ × List Inquiry :=
  let started := s.start w
  let r : Run σ := {
    supervisor := started.supervisor
    inbox := [], host := true, listens := true
    course := startCourse s started.result
    trace := [], heard := [] }
  (r.carryOut k (r.course, startEffects s started.result), started.inquiries)

/-- Nobody can send an event any more. -/
def isDisconnected (r : Run σ) : Bool :=
  !r.host && match r.supervisor.attached with
    | none => true
    | some a => !a.waiter.isOpen

def input (r : Run σ) (i : Loop.Input) : Run σ := r.carryOut k (r.course.step i)

def isListening (r : Run σ) : Bool :=
  match r.course with
  | .serving l => l.phase == .listening
  | .ended _ => false

def receive (r : Run σ) : Run σ :=
  if r.isListening then
    match r.inbox with
    | e :: es => { r with inbox := es }.input k (.event e r.supervisor.exit?)
    | [] => if r.isDisconnected then r.input k .disconnected else r
  else r

/-- An event reaches the inbox, which is gone once the loop is over. -/
def post (r : Run σ) (e : Event) : Run σ :=
  if r.isOver then r else { r with inbox := r.inbox ++ [e] }

def announce (r : Run σ) (late : Bool) : Run σ :=
  match r.supervisor.announce late with
  | (s, some result) => { r with supervisor := s }.post (.agentGone result)
  | (_, none) => r

def step (r : Run σ) : Act → Run σ
  | .request q => if r.host then r.post (.request q) else r
  | .hangUp => { r with host := false }
  | .deafen => { r with listens := false }
  | .deliver d => { r with supervisor := r.supervisor.feed [d] }
  | .close => { r with supervisor := r.supervisor.closeStream }
  | .relay => { r with supervisor := r.supervisor.relayOne k }
  | .exit result => { r with supervisor := r.supervisor.recordExit result }
  | .lose => { r with supervisor := r.supervisor.loseWaiter }
  | .announce => r.announce false
  | .announceLate => r.announce true
  | .receive => r.receive k
  | .look now => r.input k (.reply (.looked now r.supervisor.exit?))
  | .interrupted result => r.input k (.reply (.interrupted result))
  | .killed result => r.input k (.reply (.killed result))

def run (r : Run σ) (as : List Act) : Run σ := as.foldl (step k) r

@[simp] theorem run_nil (r : Run σ) : run k r [] = r := rfl

@[simp] theorem run_cons (r : Run σ) (a : Act) (as : List Act) :
    run k r (a :: as) = run k (step k r a) as := rfl

theorem run_append (r : Run σ) (as bs : List Act) :
    run k r (as ++ bs) = run k (run k r as) bs := by
  simp [run, List.foldl_append]

/-- The forwarder relays all that it can. -/
def settle (r : Run σ) : Run σ := r.run k (List.replicate r.supervisor.turns .relay)

end Run

end Warden.Service
