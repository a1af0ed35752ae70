import Warden.Log.Record
import Warden.Text.Blank
import Warden.Text.Numeral

/-!
How much the program tells about itself.

A verbosity is given by one of its names, in any case, or by its rank from 0 to 5; blanks around
it do not matter.
-/

namespace Warden.Log

inductive Verbosity where
  | off | error | warn | info | debug | trace
  deriving DecidableEq, Repr

namespace Verbosity

def all : List Verbosity := [off, error, warn, info, debug, trace]

/-- The accepted names, the proper one first. -/
def names : Verbosity → List String
  | off => ["off"]
  | error => ["error", "err"]
  | warn => ["warn", "warning"]
  | info => ["info", "information"]
  | debug => ["debug"]
  | trace => ["trace"]

def name : Verbosity → String
  | off => "off"
  | error => "error"
  | warn => "warn"
  | info => "info"
  | debug => "debug"
  | trace => "trace"

def rank : Verbosity → Nat
  | off => 0
  | error => 1
  | warn => 2
  | info => 3
  | debug => 4
  | trace => 5

inductive Refusal where
  | blank
  | outOfRange (n : Nat)
  | unknown (text : String)
  deriving DecidableEq, Repr

def Refusal.message : Refusal → String
  | blank => "log level cannot be empty"
  | outOfRange n => s!"log level {n} out of range (0-5)"
  | unknown t => s!"invalid log level '{t}'"

def lowercase (s : String) : String := String.ofList (s.toList.map Char.toLower)

def ofName? (s : String) : Option Verbosity := all.find? fun v => v.names.contains (lowercase s)

def parse (raw : String) : Except Refusal Verbosity :=
  let text := Text.trimmed raw
  if text.isEmpty then .error .blank
  else
    match Text.word? text.toList with
    | some n =>
      match all[n]? with
      | some v => .ok v
      | none => .error (.outOfRange n)
    | none =>
      match ofName? text with
      | some v => .ok v
      | none => .error (.unknown text)

/-- Whether records of an importance are told. -/
def admits (v : Verbosity) : Importance → Bool
  | .error => 1 ≤ v.rank
  | .warn => 2 ≤ v.rank
  | .info => 3 ≤ v.rank

end Verbosity

end Warden.Log
