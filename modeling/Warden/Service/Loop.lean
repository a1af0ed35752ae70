import Warden.Service.Stop

/-!
The control loop of a service.

The loop listens for events. An interrogation repeats the last status. A request to stop is
reported, carried out and judged: a stop that could not be delivered puts the service back to
running, and an agent that could not be killed ends it. The news that the agent is gone ends it
too; an unsuccessful exit that nobody asked for is recorded. The last status, with the code of
the outcome, is reported exactly once, on every way out.
-/

namespace Warden.Service

open Warden.Agent Warden.Log

inductive Loop.Phase where
  | listening
  | stopping (p : Stop.Phase)
  deriving DecidableEq, Repr

/-- A loop that serves the agent `pid`. -/
structure Loop where
  pid : Nat
  policy : StopPolicy
  phase : Loop.Phase
  /-- The last status reported. -/
  current : Status
  /-- Whether a request to stop has succeeded. -/
  stopping : Bool

namespace Loop

inductive Course where
  | serving (l : Loop)
  | ended (o : Outcome)

inductive Input where
  /-- An event, and the agent's recorded exit at that time. -/
  | event (e : Event) (exit : Option Exit)
  /-- Nobody is left who could send an event. -/
  | disconnected
  | reply (r : Stop.Reply)

def failure (c : Category) (message : String) : Effect := .append ⟨c, .error, message⟩

def finish (o : Outcome) (before : List Effect) : Course × List Effect :=
  (.ended o,
    before ++ [.tell (.info s!"Service finished: {o.text}"), .report (.stopped o.exitCode)])

/-- The loop after a request to stop has got as far as `p`. -/
def afterStop (l : Loop) (p : Stop.Progress) : Course × List Effect :=
  match p with
  | .pending p => (.serving { l with phase := .stopping p }, [])
  | .done (.ok ()) => (.serving { l with phase := .listening, stopping := true }, [])
  | .done (.error e) =>
    let told := [.tell (.error e.message), failure .stopFailure e.message]
    if e.isRecoverable then
      (.serving { l with phase := .listening, current := .running }, told ++ [.report .running])
    else finish .killFailed told

def requestStop (l : Loop) (r : Request) (exit : Option Exit) : Course × List Effect :=
  let (p, es) := Stop.start (some exit)
  let (c, fs) := { l with current := .stopPending }.afterStop p
  (c, .tell (.info s!"Received {r.text} request; stopping agent") :: .report .stopPending :: es
    ++ fs)

/-- What is told and recorded about the agent's end. -/
def farewell (stopping : Bool) : Except Fault Exit → List Effect
  | .ok x =>
    if x.success || stopping then [.tell (.info s!"Agent exited with {x.text}")]
    else
      [.tell (.warn s!"Agent exited unexpectedly with {x.text}"),
        failure .stopFailure s!"agent exited with {x.text}"]
  | .error f =>
    [.tell (.error s!"Failed to wait for agent: {f.text}"), failure .stopFailure f.text]

/-- An input that does not belong to the loop's phase changes nothing. -/
def step (l : Loop) (i : Input) : Course × List Effect :=
  match l.phase, i with
  | .listening, .event (.request .interrogate) _ => (.serving l, [.report l.current])
  | .listening, .event (.request r) exit => l.requestStop r exit
  | .listening, .event (.agentGone result) _ => finish .stopped (farewell l.stopping result)
  | .listening, .disconnected =>
    finish .stopped [.tell (.warn "Service inbox closed unexpectedly")]
  | .stopping p, .reply r =>
    let (p, es) := Stop.step l.pid l.policy p r
    let (c, fs) := l.afterStop p
    (c, es ++ fs)
  | _, _ => (.serving l, [])

def Course.step : Course → Input → Course × List Effect
  | serving l, i => l.step i
  | ended o, _ => (ended o, [])

/-- All inputs in order, with the effects of all of them. -/
def Course.run : Course → List Input → Course × List Effect
  | c, [] => (c, [])
  | c, i :: is =>
    let (c, es) := c.step i
    let (c, fs) := c.run is
    (c, es ++ fs)

/-- The loop of an agent that has just been started. -/
def ofAgent (pid : Nat) (policy : StopPolicy) : Loop :=
  ⟨pid, policy, .listening, .running, false⟩

end Loop

end Warden.Service
