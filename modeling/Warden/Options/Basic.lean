import Warden.Log.Verbosity

/-!
The options of the program.

Each option takes one value. Four of them may also be given by a variable of the environment.
-/

namespace Warden

/-- Where relayed lines and failures are recorded. -/
inductive SinkKind where
  /-- The system log of the host. -/
  | system
  /-- The program's own output. -/
  | console
  deriving DecidableEq, Repr

namespace SinkKind

def name : SinkKind → String
  | system => "system"
  | console => "console"

def parse? (s : String) : Option SinkKind :=
  if s = "system" then some system else if s = "console" then some console else none

/-- What is said of a text that names no sink. -/
def refusal : String := "Matching variant not found"

end SinkKind

structure Options where
  verbosity : Option Log.Verbosity
  service : String
  agent : Option String
  directory : Option String
  stopTimeout : String
  pollInterval : String
  sink : SinkKind
  arguments : List String
  deriving DecidableEq, Repr

namespace Options

def defaultService : String := "mackerel-agent"

def default : Options := {
  verbosity := none
  service := defaultService
  agent := none
  directory := none
  stopTimeout := "10s"
  pollInterval := "1s"
  sink := .system
  arguments := [] }

/-- An option that takes a value. -/
inductive Name where
  | logLevel | serviceName | agent | agentDir | stopTimeout | pollInterval | sink
  deriving DecidableEq, Repr

namespace Name

def all : List Name := [logLevel, serviceName, agent, agentDir, stopTimeout, pollInterval, sink]

def long : Name → String
  | logLevel => "log-level"
  | serviceName => "service-name"
  | agent => "agent"
  | agentDir => "agent-dir"
  | stopTimeout => "stop-timeout"
  | pollInterval => "poll-interval"
  | sink => "sink"

/-- What the value is called. -/
def value : Name → String
  | logLevel => "LEVEL"
  | serviceName => "SERVICE_NAME"
  | agent => "AGENT"
  | agentDir => "DIR"
  | stopTimeout => "DURATION"
  | pollInterval => "DURATION"
  | sink => "SINK"

/-- The option as it is shown: `--name <VALUE>`. -/
def usage (n : Name) : String := s!"--{n.long} <{n.value}>"

/-- The variable that may give the value. -/
def envVar? : Name → Option String
  | logLevel => some "SYSG_WRAPPER_LOG_LEVEL"
  | serviceName => some "SYSG_WRAPPER_SERVICE"
  | agent => some "SYSG_WRAPPER_AGENT"
  | agentDir => some "SYSG_WRAPPER_AGENT_DIR"
  | stopTimeout | pollInterval | sink => none

/-- The value of an option that is not given, for those that have one. -/
def default? : Name → Option String
  | serviceName => some defaultService
  | stopTimeout => some "10s"
  | pollInterval => some "1s"
  | sink => some SinkKind.system.name
  | logLevel | agent | agentDir => none

def summary : Name → String
  | logLevel => "Override the logging verbosity of the wrapper itself"
  | serviceName => "Name the service is registered under; also the system log source"
  | agent => "Agent executable name without extension (defaults to the service name)"
  | agentDir => "Directory holding the agent (defaults to the wrapper's own directory)"
  | stopTimeout =>
    "How long the agent may take to exit after the interrupt before it is killed"
  | pollInterval => "How often to check for the agent's exit while stopping"
  | sink => "Where agent output is recorded: system or console"

end Name

end Options

end Warden
