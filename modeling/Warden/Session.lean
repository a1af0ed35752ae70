import Warden.Supervisor

/-!
A supervisor and the stop requests made of it.

The owner of a supervisor starts and stops the agent, one call at a time. A start returns at once.
A stop goes on while the agent writes, ends and is announced. The acts may come in any order; one
that is not possible at its time changes nothing.
-/

namespace Warden

open Agent Log Diagnostics Service

/-- One request to stop the agent, and what it has done. -/
structure Attempt where
  progress : Stop.Progress
  deeds : List Effect

namespace Attempt

/-- A request made while `agent` is attached, if one is. -/
def begin (agent : Option Attached) : Attempt :=
  let (progress, deeds) := Stop.start (agent.map (·.exit))
  ⟨progress, deeds⟩

def isPending (t : Attempt) : Bool :=
  match t.progress with
  | .pending _ => true
  | .done _ => false

/-- What a request to stop the agent `pid` makes of a reply. One that it does not wait for changes
nothing. -/
def hear (pid : Nat) (policy : StopPolicy) (t : Attempt) (r : Stop.Reply) : Attempt :=
  match t.progress with
  | .done _ => t
  | .pending p =>
    let (progress, deeds) := Stop.step pid policy p r
    ⟨progress, t.deeds ++ deeds⟩

end Attempt

inductive Session.Act where
  /-- The owner starts the agent. -/
  | start (w : Surroundings)
  /-- The owner requests a stop. -/
  | stop
  /-- The agent's stream delivers. -/
  | deliver (r : Read)
  /-- The agent's stream is closed. -/
  | close
  /-- The forwarder takes a turn. -/
  | relay
  /-- The agent's exit becomes known and is recorded. -/
  | exit (result : Except Fault Exit)
  /-- The waiter dies. -/
  | lose
  /-- The waiter announces the exit, if `late` although the forwarder is not over. -/
  | announce (late : Bool)
  /-- The stop reads the clock and looks for the recorded exit. -/
  | look (now : Nat)
  /-- The interrupt returns, and if it has not failed the clock is read. -/
  | interrupted (result : Except Fault Nat)
  /-- The kill returns. -/
  | killed (result : Except Fault Unit)

/-- A supervisor in use. -/
structure Session (σ : Type) where
  supervisor : Supervisor σ
  /-- The stop requests so far, the latest first. -/
  attempts : List Attempt
  /-- What the waiter has announced. -/
  announced : List (Except Fault Exit)

namespace Session

variable {σ : Type}

def new (s : Supervisor σ) : Session σ := ⟨s, [], []⟩

/-- Whether a stop request is under way. -/
def isBusy (s : Session σ) : Bool := s.attempts.head?.any Attempt.isPending

def start (s : Session σ) (w : Surroundings) : Session σ :=
  if s.isBusy then s else { s with supervisor := (s.supervisor.start w).supervisor }

def stop (s : Session σ) : Session σ :=
  if s.isBusy then s else { s with attempts := .begin s.supervisor.attached :: s.attempts }

def hear (s : Session σ) (r : Stop.Reply) : Session σ :=
  match s.attempts, s.supervisor.attached with
  | t :: ts, some a => { s with attempts := t.hear a.pid s.supervisor.policy r :: ts }
  | _, _ => s

def announce (s : Session σ) (late : Bool) : Session σ :=
  match s.supervisor.announce late with
  | (supervisor, some r) => { s with supervisor, announced := s.announced ++ [r] }
  | (_, none) => s

variable (k : Sink σ)

def step (s : Session σ) : Act → Session σ
  | .start w => s.start w
  | .stop => s.stop
  | .deliver r => { s with supervisor := s.supervisor.feed [r] }
  | .close => { s with supervisor := s.supervisor.closeStream }
  | .relay => { s with supervisor := s.supervisor.relayOne k }
  | .exit result => { s with supervisor := s.supervisor.recordExit result }
  | .lose => { s with supervisor := s.supervisor.loseWaiter }
  | .announce late => s.announce late
  | .look now => s.hear (.looked now s.supervisor.exit?)
  | .interrupted result => s.hear (.interrupted result)
  | .killed result => s.hear (.killed result)

def run (s : Session σ) (as : List Act) : Session σ := as.foldl (step k) s

@[simp] theorem run_nil (s : Session σ) : run k s [] = s := rfl

@[simp] theorem run_cons (s : Session σ) (a : Act) (as : List Act) :
    run k s (a :: as) = run k (step k s a) as := rfl

end Session

end Warden
