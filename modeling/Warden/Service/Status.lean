import Warden.Agent.Exit
import Warden.Failure

/-!
What a service and its manager tell each other.

The manager sends requests; the service answers with statuses. A status says in which state the
service is, which requests it accepts, and with which code it ends. The outcome of a run decides
that code and the exit code of the program.
-/

namespace Warden

namespace Service

inductive State where
  | startPending | running | stopPending | stopped
  deriving DecidableEq, Repr

def State.text : State → String
  | startPending => "start_pending"
  | running => "running"
  | stopPending => "stop_pending"
  | stopped => "stopped"

inductive Request where
  | interrogate | stop | shutdown
  deriving DecidableEq, Repr

def Request.text : Request → String
  | interrogate => "interrogate"
  | stop => "stop"
  | shutdown => "shutdown"

/-- The requests a service accepts beside interrogation. -/
structure Accepted where
  stop : Bool
  shutdown : Bool
  deriving DecidableEq, Repr

def Accepted.none : Accepted := ⟨false, false⟩

def Accepted.both : Accepted := ⟨true, true⟩

/-- A code of the system, or one of this service's own. -/
inductive ExitCode where
  | system (n : Nat)
  | specific (n : Nat)
  deriving DecidableEq, Repr

def ExitCode.ok : ExitCode := .system 0

def ExitCode.text : ExitCode → String
  | system n => s!"Win32({n})"
  | specific n => s!"ServiceSpecific({n})"

structure Status where
  state : State
  accepts : Accepted
  code : ExitCode
  deriving DecidableEq, Repr

namespace Status

def startPending : Status := ⟨.startPending, .none, .ok⟩

def running : Status := ⟨.running, .both, .ok⟩

/-- Requests stay accepted while a stop is under way. -/
def stopPending : Status := ⟨.stopPending, .both, .ok⟩

def stopped (c : ExitCode) : Status := ⟨.stopped, .none, c⟩

end Status

inductive Outcome where
  /-- The agent is gone. -/
  | stopped
  /-- The agent could not be started. -/
  | startFailed
  /-- The agent ignored the interrupt and could not be killed. -/
  | killFailed
  deriving DecidableEq, Repr

namespace Outcome

def text : Outcome → String
  | stopped => "Stopped"
  | startFailed => "StartFailed"
  | killFailed => "KillFailed"

def isSpecific : Outcome → Bool
  | stopped => false
  | _ => true

def code : Outcome → Nat
  | stopped => 0
  | startFailed => 1
  | killFailed => 2

/-- The code the last status carries. -/
def exitCode (o : Outcome) : ExitCode :=
  if o.isSpecific then .specific o.code else .ok

end Outcome

/-- The exit code of the program when its host is done. -/
def processCode : Except HostError Outcome → Nat
  | .ok o => min o.code 255
  | .error _ => 1

/-- What reaches the service from outside: a request, or the news that the agent is gone. -/
inductive Event where
  | request (r : Request)
  | agentGone (result : Except Fault Agent.Exit)

end Service

end Warden
