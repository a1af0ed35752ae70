import Warden.Service.Run

/-!
An agent that follows a script.

The script says how launching it goes, what it writes, and how it reacts to each interrupt and
each kill. The n-th call takes the n-th line of its list, and the last line is repeated. Only the
first end of a launched agent counts.
-/

namespace Warden.Rehearsal

open Agent Log Diagnostics

/-- How an agent's end is learned. -/
inductive Fate where
  | exits (result : Except Fault Exit)
  /-- The task that waits for it dies. -/
  | lost

inductive Reaction where
  /-- The call succeeds and the agent goes on. -/
  | ignores
  /-- The call fails. -/
  | refuses (cause : Fault)
  /-- The call succeeds; the agent writes its last output and ends. -/
  | ends (last : List Read) (fate : Fate)

structure Script where
  directory : Except Fault String
  launchable : String → Bool
  /-- For each launch why it fails, if it does. -/
  launch : List (Command → Option Fault)
  pid : Nat
  output : Command → List Read
  /-- Whether the stream stays open when the agent ends. -/
  holdOpen : Bool
  interrupt : List Reaction
  kill : List Reaction

def nth {α : Type} (xs : List α) (n : Nat) (other : α) : α :=
  match xs[n]? with
  | some x => x
  | none => xs.getLast?.getD other

/-- A script and how far it has been played. -/
structure Actor where
  script : Script
  launchCalls : Nat
  launches : Nat
  interrupts : Nat
  kills : Nat
  /-- Whether the agent has ended. -/
  gone : Bool
  paths : List String

namespace Actor

def ofScript (s : Script) : Actor := ⟨s, 0, 0, 0, 0, false, []⟩

def counters (a : Actor) : List Nat := [a.launches, a.interrupts, a.kills]

def surroundings (a : Actor) : Surroundings where
  platform := .unix
  directory := a.script.directory
  launchable := a.script.launchable
  launch c :=
    match nth a.script.launch a.launchCalls (fun _ => none) c with
    | some f => .error f
    | none => .ok (a.script.pid, .ofReads (a.script.output c) false)

def pathOf? : Inquiry → Option String
  | .directory => none
  | .launchable p => some p
  | .launch c => some s!"{c.path} in {c.directory}"

def isLaunch : Inquiry → Bool
  | .launch .. => true
  | _ => false

/-- Notes what a start asked for. -/
def note (a : Actor) (asked : List Inquiry) (launched : Bool) : Actor :=
  { a with
    launchCalls := a.launchCalls + asked.countP isLaunch
    launches := a.launches + (if launched then 1 else 0)
    paths := a.paths ++ asked.filterMap pathOf? }

/-- The answer of a call, and the agent's last output and end if it causes one. -/
def react : Reaction → Except Fault Unit × Option (List Read × Fate)
  | .ignores => (.ok (), none)
  | .refuses f => (.error f, none)
  | .ends last fate => (.ok (), some (last, fate))

/-- The clock stands still at zero while an agent is interrupted. -/
def delivered (answer : Except Fault Unit) : Except Fault Nat := answer.map fun _ => 0

def onInterrupt (a : Actor) : Actor × Except Fault Unit × Option (List Read × Fate) :=
  ({ a with interrupts := a.interrupts + 1 },
    react (nth a.script.interrupt a.interrupts (.ends [] (.exits (.ok (.exited 0))))))

def onKill (a : Actor) : Actor × Except Fault Unit × Option (List Read × Fate) :=
  ({ a with kills := a.kills + 1 },
    react (nth a.script.kill a.kills (.ends [] (.exits (.ok (.signaled 9))))))

end Actor

end Warden.Rehearsal
