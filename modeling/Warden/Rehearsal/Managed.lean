import Warden.Host.Bridge
import Warden.Host.EventLog
import Warden.Rehearsal.Sketch

/-!
A program under a service manager.

The manager calls the entry point of the service once in the life of the program, sends controls
while the agent waits, and others when the service is over. The host may refuse the statuses, the
opening of the event log, the reports for it, or to call the entry point at all.
-/

namespace Warden.Rehearsal

open Host Log Service

/-- What the host refuses. -/
structure Refusals where
  /-- The entry point is never called. -/
  silent : Bool
  status : Bool
  source : Bool
  report : Bool

/-- What the host has seen of a program. -/
structure Life where
  result : Except HostError Outcome
  again : Option (Except HostError Outcome)
  dispatched : List String
  registered : List String
  sources : List String
  closed : Nat
  consoles : Nat
  statuses : List Submission
  reports : List Report
  handled : List Answer
  late : List Answer

/-- What a service run shows, apart from its log. -/
def seen {σ : Type} (no : Refusals) (r : Run σ) : Outcome × List Submission :=
  (r.outcome?.getD .stopped, submitted (fun _ => !no.status) r)

/-- The program's life: the service is run once, with controls while it waits and others later. -/
def live (s : Settings) (a : Sketch) (w : Place) (program : String) (no : Refusals)
    (controls late : List Control) (again : Bool) : Life :=
  let life : Life := {
    result := .error neverRan
    again := if again then some (.error alreadyStarted) else none
    dispatched := [s.service]
    registered := [], sources := [], closed := 0, consoles := 0, statuses := [], reports := []
    handled := [], late := [] }
  if no.silent then life
  else
    let waits := a.isWaiting && (w.kind == .executable)
    let requests := if waits then controls.filterMap Control.request? else []
    let served (o : Outcome) (statuses : List Submission) : Life := { life with
      result := .ok o
      registered := [s.service]
      consoles := 1
      statuses
      handled := if waits then (handleAll (some []) controls).2 else []
      late := (handleAll none late).2 }
    match s.sink with
    | .console =>
      let (o, statuses) := seen no (a.play Console.sink .empty w s program requests)
      served o statuses
    | .system =>
      match EventLog.openSource s.service no.source no.report with
      | .error e => { life with result := .error (.sink e) }
      | .ok log =>
        let r := a.play EventLog.sink log w s program requests
        let (o, statuses) := seen no r
        { served o statuses with
          sources := [s.service]
          closed := 1
          reports := r.supervisor.sink.reports.toList }

end Warden.Rehearsal
