import Warden.Options.Basic
import Warden.Supervisor
import Warden.Text.Blank
import Warden.Text.Numeral

/-!
Settings for one service run.

Settings come from options by checking them in a fixed order: the service's name, the agent's
name, the two durations, and last that the poll interval is not zero and fits the stop timeout.
A duration is a numeral and a unit, or a numeral of seconds; a value that exceeds 64 bits of
milliseconds is the largest that fits.
-/

namespace Warden

namespace Duration

inductive Unit where
  | milli | second | minute | hour
  deriving DecidableEq, Repr

/-- Milliseconds per unit. -/
def Unit.millis : Unit → Nat
  | milli => 1
  | second => 1000
  | minute => 60000
  | hour => 3600000

/-- The amount and the unit of a duration; the unit is looked for at the end of the text. -/
def split (cs : List Char) : List Char × Unit :=
  match cs.reverse with
  | 's' :: 'm' :: ds => (Text.trim ds.reverse, .milli)
  | 's' :: ds => (Text.trim ds.reverse, .second)
  | 'm' :: ds => (Text.trim ds.reverse, .minute)
  | 'h' :: ds => (Text.trim ds.reverse, .hour)
  | _ => (cs, .second)

def parse (raw : String) : Except ConfigError Span :=
  let (amount, unit) := split (Text.trim raw.toList)
  match Text.word? amount with
  | some n => .ok (.ofMillis (min (n * unit.millis) Text.maxWord))
  | none => .error (.invalidDuration raw)

end Duration

structure Settings where
  service : String
  agent : String
  /-- Where the agent lives; if not given, beside the running program. -/
  directory : Option String
  arguments : List String
  policy : StopPolicy
  sink : SinkKind
  deriving DecidableEq, Repr

namespace Settings

/-- The directory of the agent, given the running program's. -/
def home (s : Settings) (program : String) : String := s.directory.getD program

/-- The supervisor of the agent, which does not run yet. -/
def supervisor {σ : Type} (s : Settings) (sink : σ) : Supervisor σ :=
  .idle s.agent s.arguments s.policy sink

/-- The agent's name, by default the service's. -/
def agentName (service : String) : Option String → Except ConfigError String
  | none => .ok service
  | some raw =>
    let name := Text.trimmed raw
    if name.isEmpty then .error (.empty "Agent name") else .ok name

def ofOptions (o : Options) : Except ConfigError Settings :=
  let service := Text.trimmed o.service
  if service.isEmpty then .error (.empty "Service name")
  else
    match agentName service o.agent, Duration.parse o.stopTimeout,
        Duration.parse o.pollInterval with
    | .error e, _, _ | .ok _, .error e, _ | .ok _, .ok _, .error e => .error e
    | .ok agent, .ok timeout, .ok poll =>
      if poll.nanos = 0 ∨ timeout.nanos < poll.nanos then .error (.pollInterval poll timeout)
      else .ok {
        service, agent
        directory := o.directory
        arguments := o.arguments
        policy := ⟨timeout, poll, StopPolicy.drainTimeout⟩
        sink := o.sink }

end Settings

end Warden
