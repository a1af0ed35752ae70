import Warden.Service.Status

/-!
A host that controls services by signals.

Four signals stand for requests; each status is told to the manager as a notification.
-/

namespace Warden.Host

open Service

inductive Signal where
  | term | int | hup | usr1
  deriving DecidableEq, Repr

def Signal.request : Signal → Request
  | term | int => .stop
  | hup => .shutdown
  | usr1 => .interrogate

/-- The notification of a status. -/
def notification (s : Status) : String :=
  match s.state with
  | .startPending => "STATUS=Starting agent"
  | .running => "READY=1\nSTATUS=Agent running"
  | .stopPending => "STOPPING=1\nSTATUS=Stopping agent"
  | .stopped => s!"STATUS=Agent stopped ({s.code.text})"

end Warden.Host
