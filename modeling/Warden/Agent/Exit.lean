/-!
How an agent ended.

An exit carries a code, a signal, or neither when the end could not be observed. Only code zero
is a success.
-/

namespace Warden.Agent

structure Exit where
  code : Option Int
  signal : Option Int
  deriving DecidableEq, Repr

namespace Exit

def exited (code : Int) : Exit := ⟨some code, none⟩

def signaled (signal : Int) : Exit := ⟨none, some signal⟩

/-- The exit recorded when waiting for the agent failed. -/
def unknown : Exit := ⟨none, none⟩

def success (e : Exit) : Bool := e.code == some 0

def text (e : Exit) : String :=
  match e.code, e.signal with
  | some c, _ => s!"exit status {c}"
  | none, some s => s!"terminated by signal {s}"
  | none, none => "unknown exit status"

/-- Reads a wait status, a two's complement word: its low seven bits are zero for a normal exit,
whose code is the next byte, and otherwise the signal, unless they are all set. -/
def ofWaitStatus (status : Int) : Exit :=
  let low := status % 128
  if low = 0 then exited (status / 256 % 256)
  else if low < 127 then signaled low
  else unknown

end Exit

end Warden.Agent
