import Warden.Rehearsal.Script
import Warden.Session

/-!
A supervisor alone with a scripted agent.

The cues start and stop the agent, let it write, or let it end. Starts and stops give their
results; an announced exit is noted with the cue of the start that asked for it.
-/

namespace Warden.Rehearsal

open Agent Log Diagnostics Service

structure Solo where
  actor : Actor
  session : Session Memory
  records : List Record
  /-- The cue that launched the agent. -/
  launchedAt : Nat

namespace Solo

def supervisor (s : Solo) : Supervisor Memory := s.session.supervisor

def acts (s : Solo) (as : List Session.Act) : Solo :=
  { s with session := s.session.run Memory.sink as }

def relayAll (s : Solo) : Solo := s.acts (List.replicate s.supervisor.turns .relay)

/-- The agent ends, unless there is none or it has ended before. -/
def deliver (s : Solo) (fate : Fate) : Solo × Bool :=
  if s.supervisor.attached.isNone || s.actor.gone then (s, false)
  else
    let s := { s with actor.gone := true }
    let s := if s.actor.script.holdOpen then s else (s.acts [.close]).relayAll
    match fate with
    | .lost => (s.acts [.lose], true)
    | .exits result => (s.acts [.exit result, .announce true], true)

def write (s : Solo) (rs : List Read) : Solo × Bool :=
  ((s.acts (rs.map .deliver)).relayAll, s.supervisor.attached.isSome)

def start (s : Solo) (cue : Nat) : Solo × Except SpawnError Nat :=
  let w := s.actor.surroundings
  let started := s.supervisor.start w
  match started.result with
  | .error e => ({ s with actor := s.actor.note started.inquiries false }, .error e)
  | .ok pid =>
    let t := (s.acts [.start w]).relayAll
    ({ t with
        actor := s.actor.note started.inquiries true
        records := s.records ++ [s.supervisor.startedRecord pid]
        launchedAt := cue },
      .ok pid)

/-- Lets the agent end as a call demands. -/
def answer (s : Solo) (a : Actor × Except Fault Unit × Option (List Read × Fate)) : Solo :=
  let s := { s with actor := a.1 }
  match a.2.2 with
  | none => s
  | some (last, fate) => ((s.write last).1.deliver fate).1

/-- Answers what the latest request waits for. -/
def respond (s : Solo) : Solo :=
  match s.session.attempts with
  | { progress := .pending .interrupting, .. } :: _ =>
    let a := s.actor.onInterrupt
    (s.answer a).acts [.interrupted (Actor.delivered a.2.1)]
  | { progress := .pending (.awaiting deadline), .. } :: _ => s.acts [.look deadline]
  | { progress := .pending .killing, .. } :: _ =>
    let a := s.actor.onKill
    (s.answer a).acts [.killed a.2.1]
  | _ => s

/-- Plays a stop request to its end; it has at most three phases. -/
def stop (s : Solo) : Solo × Except StopError Unit :=
  let t := Nat.repeat respond 3 (s.acts [.stop])
  match t.session.attempts with
  | { progress := .done r, deeds, .. } :: _ =>
    ({ t with records := t.records ++ Service.records deeds }, r)
  | _ => (t, .ok ())

inductive Cue where
  | start
  | stop
  | exit (fate : Fate)
  | write (rs : List Read)

inductive Result where
  | started (r : Except SpawnError Nat)
  | stopped (r : Except StopError Unit)
  | delivered (b : Bool)

/-- What can be seen after a cue. -/
structure Sight where
  result : Result
  pid : Option Nat
  exit : Option Exit
  counters : List Nat
  announced : List (Nat × Except Fault Exit)
  entries : List Entry

def act (s : Solo) (n : Nat) : Cue → Solo × Result
  | .start => (s.start n).map id .started
  | .stop => s.stop.map id .stopped
  | .exit fate => (s.deliver fate).map id .delivered
  | .write rs => (s.write rs).map id .delivered

def play (s : Solo) (n : Nat) : List Cue → List Sight × Solo
  | [] => ([], s)
  | c :: cs =>
    let (t, result) := s.act n c
    let seen : Sight := {
      result
      pid := t.supervisor.pid?
      exit := t.supervisor.exit?
      counters := t.actor.counters
      announced := t.session.announced.map (t.launchedAt, ·)
      entries := t.supervisor.sink.entries.toList.drop s.supervisor.sink.entries.size }
    let (rest, last) := t.play (n + 1) cs
    (seen :: rest, last)

def new (agent : String) (policy : StopPolicy) (capacity : Option Nat) (script : Script) : Solo :=
  ⟨.ofScript script, .new (.idle agent [] policy (.empty capacity)), [], 0⟩

end Solo

end Warden.Rehearsal
