import Warden.Fault
import Warden.Span
import Warden.Text.Quoted

/-!
What can go wrong, by concern, and how it is told.

Every cause has one message. `causes` lists the messages of the faults behind a failure, outermost
first; a failure to stop is recoverable when only the interrupt could not be delivered.
-/

namespace Warden

/-- Failures to launch the agent. -/
inductive SpawnError where
  | locate (cause : Fault)
  | notFound (path : String)
  | launch (path : String) (cause : Fault)
  | alreadyRunning (pid : Nat)
  deriving DecidableEq, Repr

namespace SpawnError

def message : SpawnError → String
  | locate f => s!"Failed to locate executable directory: {f.text}"
  | notFound p => s!"Agent executable not found: {p}"
  | launch p f => s!"Failed to start agent '{p}': {f.text}"
  | alreadyRunning pid => s!"Agent is already running with PID {pid}"

def causes : SpawnError → List String
  | locate f | launch _ f => [f.text]
  | notFound _ | alreadyRunning _ => []

end SpawnError

/-- Failures to stop the agent. -/
inductive StopError where
  | interrupt (pid : Nat) (cause : Fault)
  | kill (pid : Nat) (cause : Fault)
  deriving DecidableEq, Repr

namespace StopError

def message : StopError → String
  | interrupt pid f => s!"Failed to interrupt agent (PID {pid}): {f.text}"
  | kill pid f => s!"Failed to kill agent (PID {pid}): {f.text}"

def causes : StopError → List String
  | interrupt _ f | kill _ f => [f.text]

/-- The service can go on after an interrupt that could not be delivered. -/
def isRecoverable : StopError → Bool
  | interrupt .. => true
  | kill .. => false

end StopError

/-- Failures of a log destination. -/
inductive SinkError where
  | encoding (reason : String)
  | write (cause : Fault)
  deriving DecidableEq, Repr

namespace SinkError

def message : SinkError → String
  | encoding r => s!"Log message could not be encoded: {r}"
  | write f => s!"Failed to write to system log: {f.text}"

def causes : SinkError → List String
  | encoding _ => []
  | write f => [f.text]

end SinkError

/-- Failures to split the diagnostic stream into lines. -/
inductive StreamError where
  | lineTooLong (limit : Nat)
  | read (cause : Fault)
  deriving DecidableEq, Repr

namespace StreamError

def message : StreamError → String
  | lineTooLong n => s!"Diagnostic line exceeds {n} bytes; line dropped"
  | read f => s!"Reading diagnostic stream failed: {f.text}"

def causes : StreamError → List String
  | lineTooLong _ => []
  | read f => [f.text]

/-- A read that failed ends the relay; an over-long line does not. -/
def isFinal : StreamError → Bool
  | lineTooLong _ => false
  | read _ => true

end StreamError

/-- Settings that are refused. -/
inductive ConfigError where
  | invalidDuration (raw : String)
  | empty (what : String)
  | pollInterval (poll timeout : Span)
  deriving DecidableEq, Repr

namespace ConfigError

def message : ConfigError → String
  | invalidDuration raw => s!"Invalid duration value: '{raw}'"
  | empty what => s!"{what} cannot be empty"
  | pollInterval p t =>
    s!"Poll interval {p.text} must be non-zero and not exceed stop timeout {t.text}"

/-- The cause with its parts spelled out, as the program prints it before it gives up. -/
def detail : ConfigError → String
  | invalidDuration raw => "InvalidDuration(" ++ Text.quoted raw ++ ")"
  | empty what => "Empty(" ++ Text.quoted what ++ ")"
  | pollInterval p t => "PollInterval \x7b poll: " ++ p.text ++ ", timeout: " ++ t.text ++ " \x7d"

end ConfigError

/-- Failures of the bridge to the host's service manager. -/
inductive HostError where
  | io (cause : Fault)
  | sink (cause : SinkError)
  | systemCall (number : Nat)
  deriving DecidableEq, Repr

namespace HostError

def message : HostError → String
  | io f => s!"Host I/O failed: {f.text}"
  | sink e => s!"Failed to open system log: {e.message}"
  | systemCall n => s!"System call failed: {Warden.systemCall n}"

end HostError

end Warden
