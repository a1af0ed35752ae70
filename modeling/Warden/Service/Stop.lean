import Warden.Service.Effect

/-!
One request to stop the agent.

The agent is interrupted and given a budget of time to exit. Until the clock reaches the deadline
the request looks for the exit and sleeps between two looks; if the first look behind the deadline
finds none either, the agent is killed. The request ends at once, without a signal, when no agent is
attached or its exit is already recorded. An interrupt that fails ends the request, and so does a
kill, failed or not.
-/

namespace Warden

/-- The times of a stop: for the exit, between two looks at it, and for the stream's tail. -/
structure StopPolicy where
  timeout : Span
  poll : Span
  drain : Span
  deriving DecidableEq, Repr

namespace StopPolicy

/-- How long the forwarder may take to relay the tail of the stream. -/
def drainTimeout : Span := .ofSecs 2

def default : StopPolicy := ⟨.ofSecs 10, .ofSecs 1, drainTimeout⟩

end StopPolicy

namespace Service.Stop

open Agent Log

/-- What a request waits for. -/
inductive Phase where
  | interrupting
  /-- The recorded exit, until the clock reaches the deadline. -/
  | awaiting (deadline : Nat)
  | killing
  deriving DecidableEq, Repr

inductive Progress where
  | pending (p : Phase)
  | done (result : Except StopError Unit)

/-- What a request gets. Times are in nanoseconds of the clock. -/
inductive Reply where
  /-- The interrupt has failed, or it has not and the clock is read. -/
  | interrupted (result : Except Fault Nat)
  /-- The clock is read, and then the recorded exit looked for. -/
  | looked (now : Nat) (exit : Option Exit)
  | killed (result : Except Fault Unit)

/-- The start of a request, given the agent's recorded exit if an agent is attached. -/
def start : Option (Option Exit) → Progress × List Effect
  | some none => (.pending .interrupting, [.interrupt])
  | some (some _) | none => (.done (.ok ()), [])

def exited (pid : Nat) (x : Exit) : Record :=
  .info s!"Agent (PID {pid}) stopped with {x.text}"

def spent (pid : Nat) (budget : Span) : Record :=
  .warn s!"Agent (PID {pid}) did not exit within {budget.text} of interrupt; killing"

def step (pid : Nat) (policy : StopPolicy) : Phase → Reply → Progress × List Effect
  | .interrupting, .interrupted (.ok now) =>
    (.pending (.awaiting (now + policy.timeout.nanos)), [])
  | .interrupting, .interrupted (.error f) => (.done (.error (.interrupt pid f)), [])
  | .awaiting _, .looked _ (some x) => (.done (.ok ()), [.tell (exited pid x)])
  | .awaiting deadline, .looked now none =>
    if now < deadline then (.pending (.awaiting deadline), [.sleep policy.poll])
    else (.pending .killing, [.tell (spent pid policy.timeout), .kill])
  | .killing, .killed (.ok ()) => (.done (.ok ()), [])
  | .killing, .killed (.error f) => (.done (.error (.kill pid f)), [])
  | p, _ => (.pending p, [])

section
variable (pid : Nat) (policy : StopPolicy) {deadline now : Nat}

theorem step_early (h : now < deadline) :
    step pid policy (.awaiting deadline) (.looked now none) =
      (.pending (.awaiting deadline), [.sleep policy.poll]) :=
  if_pos h

theorem step_late (h : deadline ≤ now) :
    step pid policy (.awaiting deadline) (.looked now none) =
      (.pending .killing, [.tell (spent pid policy.timeout), .kill]) :=
  if_neg (Nat.not_lt.mpr h)

end

end Service.Stop

end Warden
