import Warden.Options.Help
import Warden.Text.Plain

/-!
Reading the options from the arguments.

Arguments are read from left to right. An option takes its value from behind an equals sign or
from the next argument, unless that starts with a dash and is more than a dash; it may be given
once. A value that stands in an argument of its own is judged when the next option begins or the
options end. Everything behind the first free `--` is for the agent. A flag for the help or the
version ends the reading where it stands. Variables of the environment stand in for options that
are not given, and are judged in the order of the options.
-/

namespace Warden.Options

inductive UsageError where
  | help (text : String)
  | version
  | missingValue (n : Name)
  | invalidValue (n : Name) (value reason : String)
  | repeated (n : Name)
  | unexpected (argument : String)
  /-- A flag that takes no value was given one. -/
  | unexpectedValue (flag value : String)
  deriving DecidableEq, Repr

namespace UsageError

def message : UsageError → String
  | help t => t
  | version => Options.version
  | missingValue n => s!"error: a value is required for '{n.usage}' but none was supplied"
  | invalidValue n v r => s!"error: invalid value '{v}' for '{n.usage}': {r}"
  | repeated n => s!"error: the argument '{n.usage}' cannot be used multiple times"
  | unexpected a => s!"error: unexpected argument '{a}' found"
  | unexpectedValue f v =>
    s!"error: unexpected value '{v}' for '{f}' found; no more were expected"

/-- The message as it is shown. -/
def text (e : UsageError) : String := Text.plain e.message

/-- Help and version are no misuse. -/
def exitCode : UsageError → Nat
  | help _ | version => 0
  | _ => 2

end UsageError

/-- The values accepted so far. -/
abbrev Given := List (Name × String)

def Given.get? (g : Given) (n : Name) : Option String := g.lookup n

/-- Whether an option takes a value. -/
def check (n : Name) (v : String) : Except UsageError Unit :=
  match n with
  | .logLevel =>
    match Log.Verbosity.parse v with
    | .ok _ => .ok ()
    | .error e => .error (.invalidValue n v e.message)
  | .sink =>
    match SinkKind.parse? v with
    | some _ => .ok ()
    | none => .error (.invalidValue n v SinkKind.refusal)
  | .agentDir => if v.isEmpty then .error (.missingValue n) else .ok ()
  | _ => .ok ()

def accept (g : Given) (n : Name) (v : String) : Except UsageError Given :=
  if (g.get? n).isSome then .error (.repeated n)
  else
    match check n v with
    | .ok () => .ok (g ++ [(n, v)])
    | .error e => .error e

/-- An option that has begun, and its value if that has been read. -/
abbrev Pending := Option (Name × Option String)

/-- Judges the option that has begun. -/
def settle (g : Given) : Pending → Except UsageError Given
  | none => .ok g
  | some (n, none) => .error (.missingValue n)
  | some (n, some v) => accept g n v

inductive Argument where
  | endOfOptions
  | option (n : Name) (value : Option String)
  | helpFlag
  | versionFlag
  | flagWithValue (flag value : String)
  | unknown (shown : String)
  | value (v : String)

def long (name : String) (value : Option String) : Argument :=
  match Name.all.find? (·.long == name) with
  | some n => .option n value
  | none =>
    if name = "help" ∨ name = "version" then
      match value with
      | some v => .flagWithValue s!"--{name}" v
      | none => if name = "help" then .helpFlag else .versionFlag
    else .unknown s!"--{name}"

def Argument.ofString (a : String) : Argument :=
  match a.toList with
  | ['-', '-'] => .endOfOptions
  | '-' :: '-' :: cs =>
    match cs.dropWhile (· != '=') with
    | [] => long (String.ofList cs) none
    | _ :: v => long (String.ofList (cs.takeWhile (· != '='))) (some (String.ofList v))
  | '-' :: c :: _ =>
    if c = 'h' then .helpFlag
    else if c = 'V' then .versionFlag
    else .unknown (String.ofList ['-', c])
  | _ => .value a

/-- The accepted options and the agent's arguments. -/
def scan (env : Env) (g : Given) (p : Pending) :
    List String → Except UsageError (Given × List String)
  | [] => (settle g p).map (·, [])
  | a :: as =>
    match Argument.ofString a with
    | .endOfOptions => (settle g p).map (·, as)
    | .option n none =>
      match settle g p with
      | .error e => .error e
      | .ok g => scan env g (some (n, none)) as
    | .option n (some v) =>
      match settle g p with
      | .error e => .error e
      | .ok g =>
        match accept g n v with
        | .error e => .error e
        | .ok g => scan env g none as
    | .helpFlag =>
      match settle g p with
      | .error e => .error e
      | .ok _ => .error (.help (help env))
    | .versionFlag =>
      match settle g p with
      | .error e => .error e
      | .ok _ => .error .version
    | .flagWithValue f v => .error (.unexpectedValue f v)
    | .unknown s => .error (.unexpected s)
    | .value v =>
      match p with
      | some (n, none) => scan env g (some (n, some v)) as
      | _ => .error (.unexpected v)

/-- Fills in from the environment what is not given. -/
def fill (env : Env) (g : Given) : List Name → Except UsageError Given
  | [] => .ok g
  | n :: ns =>
    match g.get? n, n.envVar?.bind env with
    | none, some v =>
      match accept g n v with
      | .error e => .error e
      | .ok g => fill env g ns
    | _, _ => fill env g ns

/-- The options with the given values, and defaults for the others. -/
def assemble (g : Given) (arguments : List String) : Options := {
  verbosity := (g.get? .logLevel).bind fun v => (Log.Verbosity.parse v).toOption
  service := (g.get? .serviceName).getD default.service
  agent := g.get? .agent
  directory := g.get? .agentDir
  stopTimeout := (g.get? .stopTimeout).getD default.stopTimeout
  pollInterval := (g.get? .pollInterval).getD default.pollInterval
  sink := ((g.get? .sink).bind SinkKind.parse?).getD default.sink
  arguments }

def parse (env : Env) (as : List String) : Except UsageError Options :=
  match scan env [] none as with
  | .error e => .error e
  | .ok (g, arguments) =>
    match fill env g Name.all with
    | .error e => .error e
    | .ok g => .ok (assemble g arguments)

end Warden.Options
