import Warden.Log.Verbosity

/-!
Which records are told, by where they come from.

A filter is a list of directives separated by commas. A directive is a verbosity for every origin,
`origin=verbosity` for the origins that start with a text, or an origin alone, for which all is
told. A record obeys the directive with the longest matching origin. Verbosities are written as
names, in any case, or ranks. An empty list admits errors alone; a malformed one is no filter.
-/

namespace Warden.Log

structure Directive where
  origin : String
  verbosity : Verbosity
  deriving DecidableEq, Repr

abbrev Filter := List Directive

namespace Filter

def all (v : Verbosity) : Filter := [⟨"", v⟩]

/-- Reads the verbosity of a directive. -/
def verbosity? (s : String) : Option Verbosity :=
  match Text.word? s.toList with
  | some n => Verbosity.all[n]?
  | none => Verbosity.all.find? fun v => v.name == Verbosity.lowercase s

def isOriginStart (c : Char) : Bool :=
  c.isAlphanum || c == '-' || c == ':' || c == '_' || 0x80 ≤ c.toNat

/-- The parts before and behind the first equals sign. -/
def atEquals (cs : List Char) : List Char × Option (List Char) :=
  match cs.dropWhile (· != '=') with
  | [] => (cs, none)
  | _ :: rest => (cs.takeWhile (· != '='), some rest)

/-- Reads a directive that begins as an origin does. -/
def directiveOf? (cs : List Char) : Option Directive :=
  match atEquals cs with
  | (_, none) =>
    let text := String.ofList cs
    some (match verbosity? text with
      | some v => ⟨"", v⟩
      | none => ⟨text, .trace⟩)
  | (origin, some level) =>
    let origin := String.ofList origin
    if level.isEmpty then some ⟨origin, .trace⟩
    else (verbosity? (String.ofList level)).map fun v => ⟨origin, v⟩

/-- Reads one directive. Blanks belong to it, but may not begin one with an equals sign. -/
def directive? (raw : String) : Option Directive :=
  let cs := raw.toList
  let body := Text.trimStart cs
  if !body.head?.any isOriginStart || cs.contains '[' then none
  else if body.length < cs.length && cs.contains '=' then none
  else directiveOf? cs

def parse? (raw : String) : Option Filter := do
  let ds ← ((raw.splitOn ",").filter (· != "")).mapM directive?
  pure (if ds.isEmpty then all .error else ds)

/-- The directive for an origin: the longest that matches, of equal ones the last. -/
def directiveFor (f : Filter) (origin : String) : Option Directive :=
  (f.filter fun d => d.origin.toList.isPrefixOf origin.toList).foldl
    (fun best d =>
      match best with
      | some b => if b.origin.length ≤ d.origin.length then some d else some b
      | none => some d)
    none

def admits (f : Filter) (origin : String) (i : Importance) : Bool :=
  match f.directiveFor origin with
  | some d => d.verbosity.admits i
  | none => false

end Filter

end Warden.Log
