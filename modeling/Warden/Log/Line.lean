import Warden.Log.Entry

/-!
Lines of diagnostic output and their severity.

A prefixed line starts with a date, a time and a word, each followed by one space:
`dddd/dd/dd dd:dd:dd WORD `. The word names a severity, in capitals; any other word is an unknown
severity. A line without the prefix has none and is recorded as an error, since it is most likely
part of a crash report.
-/

namespace Warden.Log

inductive Severity where
  | trace | debug | info | warning | error | critical
  /-- The prefix is there but its word names no severity. -/
  | unknown
  deriving DecidableEq, Repr

namespace Severity

def ofWord (w : String) : Severity :=
  if w = "TRACE" then trace
  else if w = "DEBUG" then debug
  else if w = "INFO" then info
  else if w = "WARNING" then warning
  else if w = "ERROR" then error
  else if w = "CRITICAL" then critical
  else unknown

def level : Severity → Level
  | trace | debug | info => .info
  | warning => .warning
  | error | critical | unknown => .error

end Severity

/-- The date and time of a prefix: `d` stands for a digit, all else for itself. -/
def stampShape : List Char := "dddd/dd/dd dd:dd:dd ".toList

/-- Takes a text of the given shape off the front. -/
def afterShape : List Char → List Char → Option (List Char)
  | [], cs => some cs
  | _ :: _, [] => none
  | p :: ps, c :: cs =>
    if (if p = 'd' then c.isDigit else c == p) then afterShape ps cs else none

def isWordChar (c : Char) : Bool := c.isAlphanum || c == '_'

/-- The word of a prefix, if the text starts with one. -/
def prefixWord? (cs : List Char) : Option (List Char) :=
  match afterShape stampShape cs with
  | none => none
  | some rest =>
    match rest.takeWhile isWordChar, rest.dropWhile isWordChar with
    | w :: ws, ' ' :: _ => some (w :: ws)
    | _, _ => none

def severity? (raw : String) : Option Severity :=
  (prefixWord? raw.toList).map fun w => Severity.ofWord (String.ofList w)

/-- A line without its terminator, and the severity its prefix names. -/
structure Line where
  raw : String
  severity : Option Severity
  deriving DecidableEq, Repr

namespace Line

def classify (raw : String) : Line := ⟨raw, severity? raw⟩

def level (l : Line) : Level := (l.severity.map Severity.level).getD .error

def entry (l : Line) : Entry := ⟨.relayed, l.level, l.raw⟩

end Line

end Warden.Log
