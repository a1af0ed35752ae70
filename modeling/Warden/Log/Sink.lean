import Warden.Failure
import Warden.Log.Entry
import Warden.Log.Record

/-!
Destinations of the system log.

A sink answers an append by accepting or refusing it, and may change its own state either way.
The memory sink keeps what it accepts, up to a capacity. The console sink turns every entry into
a record. The syslog sink carries only the level and the text, with NUL replaced.
-/

namespace Warden.Log

/-- A destination with state `σ`; the answer of an append is `none` when it is accepted. -/
structure Sink (σ : Type) where
  append : σ → Entry → σ × Option SinkError

/-- Appends entries in order, with the answer to each. -/
def Sink.appendAll {σ : Type} (k : Sink σ) : σ → List Entry → σ × List (Option SinkError)
  | s, [] => (s, [])
  | s, e :: es =>
    let (s, a) := k.append s e
    let (s, as) := k.appendAll s es
    (s, a :: as)

/-! ### Memory -/

structure Memory where
  capacity : Option Nat
  entries : Array Entry

namespace Memory

def empty (capacity : Option Nat) : Memory := ⟨capacity, #[]⟩

def isFull (m : Memory) : Bool :=
  match m.capacity with
  | none => false
  | some n => n ≤ m.entries.size

def full : SinkError := .write (.ofMessage "memory sink full")

def append (m : Memory) (e : Entry) : Memory × Option SinkError :=
  if m.isFull then (m, some full) else ({ m with entries := m.entries.push e }, none)

def sink : Sink Memory := ⟨append⟩

def of (m : Memory) (c : Category) : List Entry :=
  m.entries.toList.filter (·.category == c)

end Memory

/-! ### Console -/

/-- The records written so far, each with the entry's category. -/
structure Console where
  lines : Array (Record × Category)

namespace Console

def empty : Console := ⟨#[]⟩

def record (e : Entry) : Record := ⟨.ofLevel e.level, e.message⟩

def append (c : Console) (e : Entry) : Console × Option SinkError :=
  (⟨c.lines.push (record e, e.category)⟩, none)

def sink : Sink Console := ⟨append⟩

end Console

/-! ### Syslog -/

/-- Opened under an identity, which must not hold NUL; remembers the texts it was given. -/
structure Syslog where
  identity : String
  lines : Array (Level × String)

namespace Syslog

/-- The number of bytes before the first NUL. -/
def nulAt? (s : String) : Option Nat :=
  if s.toList.contains '\x00' then
    some (String.ofList (s.toList.takeWhile (· != '\x00'))).utf8ByteSize
  else none

def openAs (identity : String) : Except SinkError Syslog :=
  match nulAt? identity with
  | some n => .error (.encoding s!"nul byte found in provided data at position: {n}")
  | none => .ok ⟨identity, #[]⟩

def withoutNul (s : String) : String :=
  String.ofList (s.toList.map fun c => if c = '\x00' then '\ufffd' else c)

def append (k : Syslog) (e : Entry) : Syslog × Option SinkError :=
  ({ k with lines := k.lines.push (e.level, withoutNul e.message) }, none)

def sink : Sink Syslog := ⟨append⟩

end Syslog

end Warden.Log
