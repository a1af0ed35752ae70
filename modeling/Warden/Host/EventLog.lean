import Warden.Log.Sink
import Warden.Text.Quoted
import Warden.Text.Units

/-!
The event log of a host.

A source is opened under a name; every append to it becomes one report in sixteen-bit units, which
the host may refuse. A text that holds NUL has no such form and is refused before the host is asked.
-/

namespace Warden.Host

open Log

/-- What the host is asked to record. -/
structure Report where
  /-- The source by its handle. -/
  source : Nat
  kind : Nat
  /-- A number of the source's own, of which it makes no use. -/
  category : Nat
  event : Nat
  /-- The texts, each in its units. -/
  strings : List (List Nat)
  deriving DecidableEq, Repr

/-- An open source. The host answers reports by number: with a fault, or by recording them. -/
structure EventLog where
  handle : Nat
  refusal : Nat → Option Fault
  /-- How many reports the host has been asked to record. -/
  asked : Nat
  /-- The reports that it has recorded. -/
  reports : Array Report

namespace EventLog

def accessDenied : Fault := .os 13

/-- The answer of a host that denies access or does not. -/
def denied (b : Bool) : Option Fault := if b then some accessDenied else none

/-- The units of a text with the closing zero. -/
def wide (s : String) : Except SinkError (List Nat) :=
  match Text.wide? s.toList with
  | some us => .ok us
  | none => .error (.encoding ("interior NUL in '" ++ Text.escaped s ++ "'"))

/-- Opens a source. The host gives its handle or refuses it; `refusal` are its answers to the
reports. -/
def register (name : String) (opened : Except Fault Nat) (refusal : Nat → Option Fault) :
    Except SinkError EventLog :=
  match wide name with
  | .error e => .error e
  | .ok _ =>
    match opened with
    | .error f => .error (.write f)
    | .ok handle => .ok ⟨handle, refusal, 0, #[]⟩

/-- Opens the first source on a host that denies it or not, and all reports or none. -/
def openSource (name : String) (refused refusesReports : Bool) : Except SinkError EventLog :=
  register name (if refused then .error accessDenied else .ok 1) fun _ => denied refusesReports

/-- The host's number for a level. -/
def kind : Level → Nat
  | .info => 4
  | .warning => 2
  | .error => 1

/-- Asks the host to record a report. -/
def ask (l : EventLog) (r : Report) : EventLog × Option SinkError :=
  let asked := { l with asked := l.asked + 1 }
  match l.refusal l.asked with
  | some f => (asked, some (.write f))
  | none => ({ asked with reports := l.reports.push r }, none)

def append (l : EventLog) (e : Entry) : EventLog × Option SinkError :=
  match wide e.message with
  | .error f => (l, some f)
  | .ok units => l.ask ⟨l.handle, kind e.level, 0, e.category.code, [units]⟩

def sink : Sink EventLog := ⟨append⟩

end EventLog

end Warden.Host
