import Warden.Rehearsal.Script

/-!
A service with a scripted agent.

A scene plays a run as a sequence of acts. After every cue the loop handles all that is in its
inbox; an end that a signal causes is announced behind the events that are there already. Requests
of a cue are followed by one more interrogation, the probe, whose answer shows the status.
-/

namespace Warden.Rehearsal

open Agent Log Diagnostics Service

structure Scene (σ : Type) where
  actor : Actor
  run : Run σ

namespace Scene

variable {σ : Type} (k : Sink σ)

def acts (s : Scene σ) (as : List Act) : Scene σ := { s with run := s.run.run k as }

def settle (s : Scene σ) : Scene σ := { s with run := s.run.settle k }

def write (s : Scene σ) (rs : List Read) : Scene σ := (s.acts k (rs.map .deliver)).settle k

/-- The agent ends, unless there is none or it has ended before. -/
def deliver (s : Scene σ) (fate : Fate) : Scene σ × Bool :=
  if s.run.supervisor.attached.isNone || s.actor.gone then (s, false)
  else
    let s := { s with actor.gone := true }
    let s := if s.actor.script.holdOpen then s else (s.acts k [.close]).settle k
    match fate with
    | .lost => (s.acts k [.lose], true)
    | .exits result => (s.acts k [.exit result, .announce, .announceLate], true)

/-- Lets the agent end as a call demands. -/
def answer (s : Scene σ) (a : Actor × Except Fault Unit × Option (List Read × Fate)) : Scene σ :=
  let s := { s with actor := a.1 }
  match a.2.2 with
  | none => s
  | some (last, fate) => ((s.write k last).deliver k fate).1

/-- Answers what the loop waits for within a stop. -/
def respond (s : Scene σ) : Scene σ :=
  match s.run.course with
  | .serving { phase := .stopping .interrupting, .. } =>
    let a := s.actor.onInterrupt
    (s.answer k a).acts k [.interrupted (Actor.delivered a.2.1)]
  | .serving { phase := .stopping (.awaiting deadline), .. } =>
    s.acts k [.look deadline]
  | .serving { phase := .stopping .killing, .. } =>
    let a := s.actor.onKill
    (s.answer k a).acts k [.killed a.2.1]
  | _ => s

/-- The loop handles one event; a stop has at most three phases. -/
def handle (s : Scene σ) : Scene σ := Nat.repeat (respond k) 3 (s.acts k [.receive])

/-- The loop handles `n` events. -/
def handleMany (n : Nat) (s : Scene σ) : Scene σ := Nat.repeat (handle k) n s

/-- The loop handles all events, also the one of an end that they cause. -/
def handleAll (s : Scene σ) : Scene σ := s.handleMany k (s.run.inbox.length + 2)

/-- A run begins, with a fresh inbox. -/
def raise (actor : Actor) (sup : Supervisor σ) : Scene σ :=
  let (run, asked) := Run.start k sup actor.surroundings
  Scene.settle k ⟨actor.note asked (!run.isOver), run⟩

inductive Cue where
  | requests (qs : List Request)
  | exit (fate : Fate)
  | write (rs : List Read)
  | hangUp
  /-- Requests, and perhaps an end, while nobody listens to the statuses. -/
  | deaf (qs : List Request) (fate : Option Fate)

inductive Result where
  | nothing
  /-- For each request whether it was sent. -/
  | sent (qs : List (Request × Bool))
  | delivered (b : Bool)

/-- What can be seen after a cue. -/
structure Sight where
  result : Result
  statuses : List Status
  /-- The answer to the probe. -/
  probe : Option Status
  outcome : Option Outcome
  entries : List Entry
  counters : List Nat

structure Played (σ : Type) where
  scene : Scene σ
  result : Result
  statuses : List Status
  probe : Option Status

/-- The statuses heard between two moments of a run. -/
def between (s t : Scene σ) : List Status := t.run.heard.drop s.run.heard.length

def request (s : Scene σ) (qs : List Request) : Played σ :=
  if !s.run.host then ⟨s, .sent [], [], none⟩
  else if s.run.isOver then ⟨s, .sent (qs.map (·, false)), [], none⟩
  else
    let t := (s.acts k (qs.map .request ++ [.request .interrogate])).handleMany k qs.length
    let result := .sent (qs.map (·, true))
    if t.run.isOver then ⟨t, result, s.between t, none⟩
    else
      let u := t.handle k
      let v := u.handleAll k
      ⟨v, result, s.between t ++ u.between v, u.run.heard.getLast?⟩

def act (s : Scene σ) : Cue → Played σ
  | .requests qs => s.request k qs
  | .exit fate =>
    let (t, b) := s.deliver k fate
    let u := t.handleAll k
    ⟨u, .delivered b, s.between u, none⟩
  | .write rs =>
    let t := (s.write k rs).handleAll k
    ⟨t, .delivered s.run.supervisor.attached.isSome, s.between t, none⟩
  | .hangUp =>
    let t := (s.acts k [.hangUp]).handleAll k
    ⟨t, .nothing, s.between t, none⟩
  | .deaf qs fate =>
    let t := (s.acts k (.deafen :: qs.map .request)).handleAll k
    let u := match fate with
      | none => t
      | some f => (t.deliver k f).1.handleAll k
    ⟨u, .nothing, s.between u, none⟩

/-! ### Scenes with a memory sink -/

def entriesSince (s t : Scene Memory) : List Entry :=
  t.run.supervisor.sink.entries.toList.drop s.run.supervisor.sink.entries.size

def play (s : Scene Memory) : List Cue → List Sight × Scene Memory
  | [] => ([], s)
  | c :: cs =>
    let p := s.act Memory.sink c
    let t := p.scene
    let seen : Sight := {
      result := p.result
      statuses := p.statuses
      probe := p.probe
      outcome := if s.run.isOver then none else t.run.outcome?
      entries := s.entriesSince t
      counters := t.actor.counters }
    let (rest, last) := t.play cs
    (seen :: rest, last)

/-- The sight of a run's beginning. -/
def opening (before : Supervisor Memory) (s : Scene Memory) : Sight := {
  result := .nothing
  statuses := s.run.heard
  probe := none
  outcome := s.run.outcome?
  entries := s.run.supervisor.sink.entries.toList.drop before.sink.entries.size
  counters := s.actor.counters }

/-- Runs of one service, each with its own cues, until one does not come to its end. -/
structure Season where
  runs : List (List Sight)
  /-- Whether every run came to its end. -/
  finished : Bool
  records : List Record
  actor : Actor

def season (actor : Actor) (sup : Supervisor Memory) : List (List Cue) → Season
  | [] => ⟨[], true, [], actor⟩
  | cs :: rest =>
    let s := raise Memory.sink actor sup
    let (sights, t) := s.play cs
    let sights := opening sup s :: sights
    if t.run.isOver then
      let later := season t.actor t.run.supervisor rest
      { later with runs := sights :: later.runs, records := t.run.records ++ later.records }
    else ⟨[sights], false, t.run.records, t.actor⟩

end Scene

end Warden.Rehearsal
