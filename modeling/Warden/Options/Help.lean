import Warden.Options.Basic

/-!
The help and version texts.

The help lists every option in one column and says what it means in another, followed by the
variable that may give it, with that variable's value, and by its default.
-/

namespace Warden.Options

/-- The variables of the environment. -/
abbrev Env := String → Option String

def program : String := "sysg-wrapper"

def version : String := s!"{program} 0.1.0\n"

def left (n : Name) : String := "      " ++ n.usage

/-- The width of the first column. -/
def columnWidth : Nat := (Name.all.map fun n => (left n).length).foldl max 0

def blanks (n : Nat) : List Char := List.replicate n ' '

/-- A text for the second column, in which every line begins. -/
def indented (r : String) : String :=
  String.ofList (r.toList.flatMap fun c => if c = '\n' then c :: blanks (columnWidth + 2) else [c])

def row (l r : String) : String :=
  l ++ String.ofList (blanks (columnWidth + 2 - l.length)) ++ indented r ++ "\n"

def envNote (env : Env) (n : Name) : String :=
  match n.envVar? with
  | none => ""
  | some v => s!" [env: {v}=" ++ (env v).getD "" ++ "]"

def defaultNote (n : Name) : String :=
  match n.default? with
  | none => ""
  | some d => s!" [default: {d}]"

def optionRow (env : Env) (n : Name) : String :=
  row (left n) (n.summary ++ envNote env n ++ defaultNote n)

def help (env : Env) : String :=
  "Runs an agent as a managed OS service, relaying its stderr to the system log\n\n"
    ++ s!"Usage: {program} [OPTIONS] [-- <AGENT_ARGS>...]\n\n"
    ++ "Arguments:\n  [AGENT_ARGS]...  Arguments passed through to the agent\n\n"
    ++ "Options:\n"
    ++ String.join (Name.all.map (optionRow env))
    ++ row "  -h, --help" "Print help"
    ++ row "  -V, --version" "Print version"

end Warden.Options
