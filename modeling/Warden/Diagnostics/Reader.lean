import Warden.Failure
import Warden.Log.Line
import Warden.Text.Utf8

/-!
Splitting a byte stream into lines.

A stream is the list of what its reads deliver. The reader holds one buffer, filled by one read
whenever it is empty, so a read of more than `bufferSize` bytes reaches it in pieces. A line ends
at a line feed, at a read that delivers nothing, or at the end of a closed stream; the line feed
and one carriage return before it are dropped. At most `maxLine + 2` bytes are collected for a
line. If more than `maxLine` remain without the terminator, the rest of the line is skipped and
the line is reported as too long.

An interrupted read is tried again while a line is collected, but not while one is skipped. Any
other fault ends the line and loses its bytes; reading may go on after it.
-/

namespace Warden.Diagnostics

open Warden.Log

/-- What one read delivers. -/
inductive Read where
  | data (bytes : List UInt8)
  | fault (cause : Fault)
  /-- Nothing, as at the end of the stream; later reads may deliver again. -/
  | nothing
  /-- The reading thread dies. -/
  | crash
  deriving DecidableEq

/-- The longest line, in bytes without its terminator. -/
def maxLine : Nat := 64 * 1024

def bufferSize : Nat := 8192

def lineFeed : UInt8 := 10

def carriageReturn : UInt8 := 13

/-- Cuts bytes into pieces of `bufferSize`; there is no empty piece. -/
def pieces (bytes : List UInt8) : List (List UInt8) :=
  if bytes.isEmpty then [] else bytes.take bufferSize :: pieces (bytes.drop bufferSize)
termination_by bytes.length
decreasing_by
  rename_i h
  cases bytes with
  | nil => simp at h
  | cons b bs => simp only [List.length_drop, List.length_cons, bufferSize]; omega

/-- The reads that fill the buffer. -/
def Read.fills : Read → List Read
  | .data bytes => (pieces bytes).map .data
  | r => [r]

structure Reader where
  buffer : List UInt8
  reads : List Read
  /-- Whether the stream ends after the reads; otherwise a further read would wait. -/
  closed : Bool

namespace Reader

def ofReads (reads : List Read) (closed : Bool) : Reader := ⟨[], reads.flatMap Read.fills, closed⟩

/-- More reads behind those that are still to come. -/
def feed (r : Reader) (reads : List Read) : Reader :=
  { r with reads := r.reads ++ reads.flatMap Read.fills }

def close (r : Reader) : Reader := { r with closed := true }

def weight : Read → Nat
  | .data bytes => bytes.length + 1
  | _ => 1

def weights : List Read → Nat
  | [] => 0
  | r :: rs => weight r + weights rs

/-- The bytes and reads still to come. -/
def size (r : Reader) : Nat := r.buffer.length + weights r.reads

end Reader

/-- How an attempt to read something ends. -/
inductive Got (α : Type) where
  | ok (a : α) (rest : Reader)
  | fault (cause : Fault) (rest : Reader)
  /-- The next read would wait. -/
  | waiting
  | crashed

/-- Bytes taken from one buffer: up to a line feed or the limit, or all of them. -/
inductive Taken where
  | stop (line rest : List UInt8)
  | more (room : Nat) (line : List UInt8)

/-- Moves bytes to `line`, last first, up to and including a line feed and at most `room`. -/
def take : Nat → List UInt8 → List UInt8 → Taken
  | 0, line, buffer => .stop line buffer
  | room + 1, line, [] => .more (room + 1) line
  | room + 1, line, b :: bs =>
    if b = lineFeed then .stop (b :: line) bs else take room (b :: line) bs

/-- Collects a line with its line feed. An empty line stands for the end of the stream. -/
def collect (closed : Bool) (room : Nat) (line buffer : List UInt8) :
    List Read → Got (List UInt8)
  | [] =>
    match take room line buffer with
    | .stop line rest => .ok line.reverse ⟨rest, [], closed⟩
    | .more _ line => if closed then .ok line.reverse ⟨[], [], closed⟩ else .waiting
  | r :: reads =>
    match take room line buffer with
    | .stop line rest => .ok line.reverse ⟨rest, r :: reads, closed⟩
    | .more room line =>
      match r with
      | .data bytes => collect closed room line bytes reads
      | .fault f =>
        if f.isInterrupted then collect closed room line [] reads
        else .fault f ⟨[], reads, closed⟩
      | .nothing => .ok line.reverse ⟨[], reads, closed⟩
      | .crash => .crashed

/-- Skips to behind the next line feed, or to the end. -/
def skip (closed : Bool) (buffer : List UInt8) : List Read → Got Unit
  | [] =>
    match buffer.dropWhile (· != lineFeed) with
    | _ :: rest => .ok () ⟨rest, [], closed⟩
    | [] => if closed then .ok () ⟨[], [], closed⟩ else .waiting
  | r :: reads =>
    match buffer.dropWhile (· != lineFeed) with
    | _ :: rest => .ok () ⟨rest, r :: reads, closed⟩
    | [] =>
      match r with
      | .data bytes => skip closed bytes reads
      | .fault f => .fault f ⟨[], reads, closed⟩
      | .nothing => .ok () ⟨[], reads, closed⟩
      | .crash => .crashed

/-- Whether a collected line ends in a line feed, and the line without its terminator. -/
def chomp (line : List UInt8) : Bool × List UInt8 :=
  let terminated := line.getLast? == some lineFeed
  let body := if terminated then line.dropLast else line
  (terminated, if body.getLast? == some carriageReturn then body.dropLast else body)

/-- A classified line, or the failure that stands in its place. -/
inductive Item where
  | line (l : Line)
  | failure (e : StreamError)
  deriving DecidableEq

namespace Item

/-- The item of a line without its terminator. -/
def ofBytes (body : List UInt8) : Item := .line (.classify (Text.Utf8.decodeString body))

def tooLong : Item := .failure (.lineTooLong maxLine)

/-- The entry that records the item. -/
def entry : Item → Entry
  | line l => l.entry
  | failure e => ⟨.forwarder, .error, e.message⟩

def isLine : Item → Bool
  | line _ => true
  | failure _ => false

/-- Whether the relay ends behind the item. -/
def isFinal : Item → Bool
  | line _ => false
  | failure e => e.isFinal

end Item

/-- What the reader yields next. -/
inductive Next where
  | item (i : Item) (rest : Reader)
  | ended
  | waiting
  | crashed

/-- The item of a collected line; an over-long line is skipped to its end. -/
def Reader.finishLine (line : List UInt8) (rest : Reader) : Next :=
  let (terminated, body) := chomp line
  if body.length ≤ maxLine then .item (.ofBytes body) rest
  else if terminated then .item .tooLong rest
  else
    match skip rest.closed rest.buffer rest.reads with
    | .ok () rest => .item .tooLong rest
    | .fault f rest => .item (.failure (.read f)) rest
    | .waiting => .waiting
    | .crashed => .crashed

def Reader.next (r : Reader) : Next :=
  match collect r.closed (maxLine + 2) [] r.buffer r.reads with
  | .ok [] _ => .ended
  | .ok line rest => finishLine line rest
  | .fault f rest => .item (.failure (.read f)) rest
  | .waiting => .waiting
  | .crashed => .crashed

end Warden.Diagnostics
