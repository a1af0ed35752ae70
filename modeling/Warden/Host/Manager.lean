import Warden.Service.Status

/-!
A host with a service manager.

The manager calls the service's handler with controls; the handler passes three of them on as
requests and refuses the others. Every status becomes a report to the manager, in the manager's own
terms: pending reports are numbered within a sequence of them and carry a hint how long the next may
take; all others carry zeros. The manager may refuse a report, which changes nothing about the next.
A run whose start failed is reported as stopped by the host's bridge, since the loop does not.
-/

namespace Warden.Host

open Service

/-- What the manager may ask of a service. -/
inductive Control where
  | stop | shutdown | interrogate | pause | continue | paramChange | preshutdown
  /-- One of the controls about the machine, its users and its hardware, by name. -/
  | other (name : String)
  deriving DecidableEq, Repr

inductive Answer where
  | noError | notImplemented
  deriving DecidableEq, Repr

namespace Control

def request? : Control → Option Request
  | stop => some .stop
  | shutdown => some .shutdown
  | interrogate => some .interrogate
  | _ => none

/-- The handler's answer, which does not depend on whether the loop still runs. -/
def answer (c : Control) : Answer :=
  if c.request?.isSome then .noError else .notImplemented

end Control

/-! ### Reports to the manager -/

/-- How long the manager may have to wait for the next report. -/
def pendingHint : Span := .ofSecs 15

/-- The states of a service as the manager knows them. -/
inductive ManagerState where
  | startPending | running | stopPending | stopped
  deriving DecidableEq, Repr

/-- The codes with which a service ends as the manager knows them. -/
inductive ManagerCode where
  | win32 (n : Nat)
  | serviceSpecific (n : Nat)
  deriving DecidableEq, Repr

structure StatusReport where
  /-- What kind of service it is, in the manager's bits. -/
  service : Nat
  state : ManagerState
  /-- The controls that the service accepts, in the manager's bits. -/
  controls : Nat
  code : ManagerCode
  checkpoint : Nat
  hint : Span
  process : Option Nat
  deriving DecidableEq

/-- A service that has a process of its own. -/
def ownProcess : Nat := 0x10

def acceptStop : Nat := 0x1

def acceptShutdown : Nat := 0x4

def managerState : State → ManagerState
  | .startPending => .startPending
  | .running => .running
  | .stopPending => .stopPending
  | .stopped => .stopped

def managerControls (a : Accepted) : Nat :=
  let stop := if a.stop then acceptStop else 0
  if a.shutdown then stop ||| acceptShutdown else stop

def managerCode : ExitCode → ManagerCode
  | .system n => .win32 n
  | .specific n => .serviceSpecific n

def isPending (s : Status) : Bool := s.state == .startPending || s.state == .stopPending

/-- The checkpoint behind `n` when a status is reported. -/
def checkpoint (n : Nat) (s : Status) : Nat := if isPending s then n + 1 else 0

/-- The report of a status that has reached a checkpoint. -/
def reportAt (n : Nat) (s : Status) : StatusReport where
  service := ownProcess
  state := managerState s.state
  controls := managerControls s.accepts
  code := managerCode s.code
  checkpoint := n
  hint := if 0 < n then pendingHint else .zero
  process := none

/-- A report and whether the manager took it. -/
structure Submission where
  report : StatusReport
  taken : Bool
  deriving DecidableEq

/-- The submissions of statuses behind the checkpoint `n`; `manager` answers them by number. -/
def submissionsFrom (n : Nat) (manager : Nat → Bool) : List Status → List Submission
  | [] => []
  | s :: ss =>
    let m := checkpoint n s
    ⟨reportAt m s, manager 0⟩ :: submissionsFrom m (fun i => manager (i + 1)) ss

def submissions (manager : Nat → Bool) (ss : List Status) : List Submission :=
  submissionsFrom 0 manager ss

/-- The statuses reported to the manager in a run with the given outcome. -/
def reported (ss : List Status) : Option Outcome → List Status
  | some .startFailed => ss ++ [.stopped Outcome.startFailed.exitCode]
  | _ => ss

def alreadyStarted : HostError := .io (.ofMessage "service dispatcher already started")

def neverRan : HostError := .io (.ofMessage "service entry point never ran")

end Warden.Host
