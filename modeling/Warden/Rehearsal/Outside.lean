import Warden.Host.Notify
import Warden.Host.Program
import Warden.Options.Parse
import Warden.Rehearsal.Sketch

/-!
The program as it is seen from outside, from its arguments to its exit code.

Misused options end it with their message. Settings that are refused end it with code 1. Otherwise
the service runs, and the outcome decides the code.
-/

namespace Warden.Rehearsal

open Host Log Options Service

/-- What can be seen of the program from outside. -/
structure Outside where
  exitCode : Nat
  /-- The first line of its complaint. -/
  complaint : Option String
  notifications : List String
  /-- The relayed records that pass the filter, with their categories. -/
  relayed : List (Record × Category)
  /-- The last record of the program itself, if it passes the filter. -/
  own : List Record

/-- Runs the service of the settings on a host that may refuse every thread. -/
def serve (s : Settings) (a : Sketch) (w : Place) (program : String) (noThreads : Bool)
    (signals : List Signal) : Except HostError Outcome × List Status × List (Record × Category) :=
  let requests := if a.isWaiting then signals.map Signal.request else []
  let nothing (e : HostError) := (.error e, [], [])
  let done {σ : Type} (r : Run σ) (lines : List (Record × Category)) :=
    (.ok (r.outcome?.getD .stopped), r.heard, lines)
  match s.sink with
  | .console =>
    if noThreads then nothing (.io (.os 11))
    else
      let r := a.play Console.sink .empty w s program requests
      done r r.supervisor.sink.lines.toList
  | .system =>
    match Syslog.openAs s.service with
    | .error e => nothing (.sink e)
    | .ok log =>
      if noThreads then nothing (.io (.os 11))
      else done (a.play Syslog.sink log w s program requests) []

def runProgram (env : Env) (directives : Option String) (arguments : List String) (a : Sketch)
    (w : Place) (program : String) (noThreads : Bool) (signals : List Signal) : Outside :=
  match Options.parse env arguments with
  | .error e =>
    ⟨e.exitCode, if e.exitCode = 0 then none else some (headline e.text), [], [], []⟩
  | .ok o =>
    match Settings.ofOptions o with
    | .error e => ⟨1, some (headline s!"Error: {e.detail}"), [], [], []⟩
    | .ok s =>
      let f := filter o.verbosity directives
      let (result, statuses, lines) := serve s a w program noThreads signals
      { exitCode := processCode result
        complaint := none
        notifications := statuses.map notification
        relayed := lines.filterMap fun (r, c) => (shown? f agentOrigin r).map (·, c)
        own := (shown? f programOrigin (lastRecord result)).toList }

end Warden.Rehearsal
