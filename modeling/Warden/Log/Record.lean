import Warden.Log.Entry

/-!
The program's own log lines.

A record has an importance and a text. Records that stand for system log entries also name the
entry's category.
-/

namespace Warden.Log

inductive Importance where
  | info | warn | error
  deriving DecidableEq, Repr

namespace Importance

def text : Importance → String
  | info => "INFO"
  | warn => "WARN"
  | error => "ERROR"

def ofLevel : Level → Importance
  | .info => info
  | .warning => warn
  | .error => error

end Importance

structure Record where
  importance : Importance
  text : String
  deriving DecidableEq, Repr

namespace Record

def info (t : String) : Record := ⟨.info, t⟩

def warn (t : String) : Record := ⟨.warn, t⟩

def error (t : String) : Record := ⟨.error, t⟩

end Record

end Warden.Log
