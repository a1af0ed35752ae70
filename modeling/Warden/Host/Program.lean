import Warden.Log.Filter
import Warden.Service.Status
import Warden.Text.Quoted

/-!
What the program tells about itself.

Its records go through a filter: the one given by the option, or else the one of the environment
if it is well formed, or else all but details. The last record tells how the service ended.
-/

namespace Warden.Host

open Log Service

/-- The origin of records that stand for system log entries. -/
def agentOrigin : String := "agent"

/-- The origin of the program's own records. -/
def programOrigin : String := "sysg_wrapper"

/-- The filter for an option and a list of directives from the environment. -/
def filter (verbosity : Option Verbosity) (directives : Option String) : Filter :=
  match verbosity with
  | some v => .all v
  | none => (directives.bind Filter.parse?).getD (.all .info)

/-- The last record of a program whose host is done. -/
def lastRecord : Except HostError Outcome → Record
  | .ok o => .info s!"Service exited: {o.text}"
  | .error e => .error s!"Service host failed: {e.message}"

/-- The characters before the first line feed, and before a carriage return in front of it. -/
def headlineChars : List Char → List Char
  | [] | '\n' :: _ | '\r' :: '\n' :: _ => []
  | c :: cs => c :: headlineChars cs

/-- The first line of a complaint. -/
def headline (s : String) : String := String.ofList (headlineChars s.toList)

/-- A character as records show it: what could control a terminal is spelled out. -/
def legibleChar (c : Char) : List Char :=
  if c = '\x1b' then "\\x1b".toList
  else if c = '\x07' then "\\x07".toList
  else if c = '\x08' then "\\x08".toList
  else if c = '\x0c' then "\\x0c".toList
  else if c = '\x7f' then "\\x7f".toList
  else if 0x80 ≤ c.toNat ∧ c.toNat ≤ 0x9f then Text.codePoint c
  else [c]

def legible (s : String) : String := String.ofList (s.toList.flatMap legibleChar)

/-- The record as it is printed, if the filter admits it from its origin. -/
def shown? (f : Filter) (origin : String) (r : Record) : Option Record :=
  if f.admits origin r.importance then some { r with text := legible r.text } else none

end Warden.Host
