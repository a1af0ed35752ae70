import Warden.Service.Run

/-!
An agent that acts by the clock.

The clock is virtual and counts milliseconds from the launch. The agent writes its output at
once. It exits at a time of its own, or some time after it was interrupted, whichever is earlier;
a kill ends it at once. Time passes only while the loop waits: within a stop up to the look that
sees the exit or the one that ends the budget, and otherwise up to the exit.
-/

namespace Warden.Rehearsal

open Agent Log Diagnostics Service

structure Mock where
  output : List Read
  exitsAfter : Option Nat
  /-- The time between the interrupt and the exit; without it interrupts are ignored. -/
  exitsOnInterrupt : Option Nat
  interruptFails : Bool
  killFails : Bool
  exit : Exit
  missing : Bool
  launchError : Option Fault.Kind

namespace Mock

def pid : Nat := 40000

def directory : String := "/opt/agent"

def surroundings (m : Mock) : Surroundings where
  platform := .unix
  directory := .ok directory
  launchable _ := !m.missing
  launch _ :=
    match m.launchError with
    | some kind => .error (.kind kind (some "mock launch failure"))
    | none => .ok (pid, .ofReads m.output true)

structure Clock where
  run : Run Memory
  now : Nat
  /-- When the agent exits, as things stand. -/
  due : Option Nat
  launches : Nat
  interrupts : Nat
  kills : Nat

/-- The time as the loop reads it. -/
def Clock.nanos (c : Clock) : Nat := (Span.ofMillis c.now).nanos

def acts (c : Clock) (as : List Act) : Clock := { c with run := c.run.run Memory.sink as }

def exits (c : Clock) (x : Exit) : Clock := acts c [.exit (.ok x), .announce]

/-- The earlier of two times, of which the first may be missing. -/
def earlier (t : Option Nat) (u : Nat) : Nat := (t.map (min u)).getD u

def roundUp (n step : Nat) : Nat := if step = 0 then n else (n + step - 1) / step * step

def interrupt (m : Mock) (c : Clock) : Clock :=
  let c := { c with interrupts := c.interrupts + 1 }
  if m.interruptFails then
    acts c [.interrupted (.error (.kind .permissionDenied (some "interrupt refused")))]
  else
    let due := match m.exitsOnInterrupt with
      | none => c.due
      | some d => some (earlier c.due (c.now + d))
    acts { c with due } [.interrupted (.ok c.nanos)]

/-- The loop looks for the exit. -/
def looks (c : Clock) : Clock := acts c [.look c.nanos]

/-- Waits for the exit within a stop. -/
def await (m : Mock) (policy : StopPolicy) (c : Clock) : Clock :=
  let last := c.now + roundUp policy.timeout.millis policy.poll.millis
  match c.due with
  | some d =>
    if d ≤ last then
      let seen := c.now + roundUp (d - c.now) policy.poll.millis
      looks (exits { c with now := seen } m.exit)
    else looks { c with now := last }
  | none => looks { c with now := last }

def kill (m : Mock) (c : Clock) : Clock :=
  let c := { c with kills := c.kills + 1 }
  if m.killFails then
    acts c [.killed (.error (.kind .permissionDenied (some "kill refused")))]
  else acts (exits c (.signaled 9)) [.killed (.ok ())]

def respond (m : Mock) (policy : StopPolicy) (c : Clock) : Clock :=
  match c.run.course with
  | .serving { phase := .stopping .interrupting, .. } => interrupt m c
  | .serving { phase := .stopping (.awaiting _), .. } => await m policy c
  | .serving { phase := .stopping .killing, .. } => kill m c
  | _ => c

/-- The loop handles one event, and waits for the exit when there is none. An exit whose time has
come is noticed first. -/
def handle (m : Mock) (policy : StopPolicy) (c : Clock) : Clock :=
  let c := match c.due with
    | none => c
    | some d =>
      if c.run.inbox.isEmpty || d ≤ c.now then exits { c with now := max c.now d } m.exit else c
  Nat.repeat (respond m policy) 3 (acts c [.receive])

/-- Runs a service with this agent; the requests are sent before it starts. -/
def play (m : Mock) (agent : String) (policy : StopPolicy) (capacity : Option Nat)
    (qs : List Request) : Clock :=
  let (run, _) := Run.start Memory.sink (.idle agent [] policy (.empty capacity)) m.surroundings
  let run := (run.settle Memory.sink).run Memory.sink (qs.map .request)
  let c : Clock := ⟨run, 0, m.exitsAfter, if run.isOver then 0 else 1, 0, 0⟩
  Nat.repeat (handle m policy) (qs.length + 2) c

def counters (c : Clock) : List Nat := [c.launches, c.interrupts, c.kills]

end Mock

end Warden.Rehearsal
