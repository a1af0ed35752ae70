import Warden.Rehearsal.Place
import Warden.Rehearsal.Scene
import Warden.Settings
import Warden.Text.Units

/-!
A sketched agent: what it prints, and how it ends.

The agent prints its arguments, its working directory and some lines, as it is told. Then it ends
by itself or waits. A waiting agent takes an interrupt as the end, ignores it, or prints some
lines more and ends; a kill always ends it.
-/

namespace Warden.Rehearsal

open Agent Log Diagnostics Service

inductive OnInterrupt where
  | dies
  | ignores
  | ends (print : List String) (exit : Exit)

structure Sketch where
  printArguments : Bool
  printDirectory : Bool
  print : List String
  /-- The end by itself; without it the agent waits. -/
  ending : Option Exit
  onInterrupt : OnInterrupt

namespace Sketch

def isWaiting (a : Sketch) : Bool := a.ending.isNone

def write (lines : List String) : List Read :=
  lines.map fun l => .data (l ++ "\n").toUTF8.toList

/-- Where a command runs, as the agent sees it. -/
def workingDirectory (w : Place) (c : Command) : String :=
  ((w.directory? c.directory).map Place.path).getD c.directory

def output (a : Sketch) (w : Place) (c : Command) : List Read :=
  write ((if a.printArguments then c.arguments.map fun x => "arg=" ++ x else [])
    ++ (if a.printDirectory then ["cwd=" ++ workingDirectory w c] else [])
    ++ a.print)

def reaction : OnInterrupt → Reaction
  | .dies => .ends [] (.exits (.ok (.signaled 2)))
  | .ignores => .ignores
  | .ends print exit => .ends (write print) (.exits (.ok exit))

def noFile : Fault := .os 2

/-- Why a command cannot be launched, though there is a file at its path. -/
def launchFault? (w : Place) (c : Command) : Option Fault :=
  if c.arguments.any fun a => Text.hasNul a.toList then
    some (.kind .invalidInput (some "nul byte found in provided data"))
  else if (w.directory? c.directory).isNone then some noFile
  else
    match w.kind with
    | .forbidden => some (.os 13)
    | .noInterpreter => some noFile
    | _ => none

/-- The script of the agent when it is looked for in `home`. -/
def script (a : Sketch) (w : Place) (home : String) : Script := {
  directory := .ok home
  launchable := w.isFile
  launch := [launchFault? w]
  pid := 1000
  output := a.output w
  holdOpen := false
  interrupt := [reaction a.onInterrupt]
  kill := [.ends [] (.exits (.ok (.signaled 9)))] }

/-- A run of a service with the agent. Requests to an agent that does not wait come too late. -/
def play {σ : Type} (k : Sink σ) (sink : σ) (a : Sketch) (w : Place) (s : Settings)
    (program : String) (qs : List Request) : Run σ :=
  let scene := Scene.raise k (.ofScript (a.script w (s.home program))) (s.supervisor sink)
  let scene := match a.ending with
    | some x => (scene.deliver k (.exits (.ok x))).1
    | none => scene.acts k (qs.map .request)
  (scene.handleAll k).run

end Sketch

end Warden.Rehearsal
