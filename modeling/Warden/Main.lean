import Warden.Diagnostics.Relay
import Warden.Host.Program
import Warden.Options.Parse
import Warden.Settings

/-!
The program at the end of an agent's diagnostic stream.

It reads its options and its settings, and relays what it reads from standard input as the agent's
diagnostics. The records that pass the filter are printed when the sink is the console.
-/

namespace Warden.Program

open Log Diagnostics Host

/-- The variables that may give options. -/
def environment : IO Options.Env := do
  let names := Options.Name.all.filterMap Options.Name.envVar?
  let given ← names.mapM fun v => return (v, ← IO.getEnv v)
  return fun v => (given.lookup v).join

def print (f : Filter) (origin : String) (r : Record) (rest : String) : IO Unit :=
  match shown? f origin r with
  | some r => IO.println s!"{r.importance.text} {origin}: {r.text}{rest}"
  | none => return

def printEntry (f : Filter) (e : Entry) : IO Unit :=
  print f agentOrigin (Console.record e) s!" event_id={e.category.code}"

/-- Relays the stream until it ends. -/
partial def follow (input : IO.FS.Stream) (append : Entry → IO Unit) (task : Forwarder) :
    IO Unit := do
  let bytes ← input.read bufferSize.toUSize
  let task := if bytes.isEmpty then task.close else task.feed [.data bytes.toList]
  let (items, task) := task.settle
  for i in items do
    append i.entry
  if task.isReading then follow input append task

def serve (f : Filter) (s : Settings) : IO UInt32 := do
  let append : Entry → IO Unit := match s.sink with
    | .console => printEntry f
    | .system => fun _ => return
  follow (← IO.getStdin) append (.reading (.ofReads [] false))
  let result : Except HostError Service.Outcome := .ok .stopped
  print f programOrigin (lastRecord result) ""
  return (Service.processCode result).toUInt32

end Warden.Program

open Warden in
/-- Misused options and refused settings end the program with a complaint. -/
def main (arguments : List String) : IO UInt32 := do
  match Options.parse (← Program.environment) arguments with
  | .error e =>
    if e.exitCode = 0 then IO.print e.text else IO.eprintln e.text
    return e.exitCode.toUInt32
  | .ok o =>
    match Settings.ofOptions o with
    | .error e =>
      IO.eprintln s!"Error: {e.detail}"
      return 1
    | .ok s => Program.serve (Host.filter o.verbosity none) s
