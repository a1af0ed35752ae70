/-!
Spans of time and how they are written.

A span is a number of nanoseconds. It is written in the largest of the units s, ms, µs and ns
that gives an integer part of at least one, with the exact fraction and no trailing zeros.
-/

namespace Warden

structure Span where
  nanos : Nat
  deriving DecidableEq, Repr

namespace Span

def zero : Span := ⟨0⟩

def ofMillis (n : Nat) : Span := ⟨n * 1000000⟩

def ofSecs (n : Nat) : Span := ⟨n * 1000000000⟩

/-- Whole milliseconds, rounded down. -/
def millis (s : Span) : Nat := s.nanos / 1000000

/-- The fraction `n / 10 ^ places`, with its point, without trailing zeros. -/
def fraction (places n : Nat) : List Char :=
  let ds := Nat.toDigits 10 n
  let padded := List.replicate (places - ds.length) '0' ++ ds
  match (padded.reverse.dropWhile (· == '0')).reverse with
  | [] => []
  | kept => '.' :: kept

/-- The units in which a span may be written, with their powers of ten in nanoseconds. -/
def units : List (Nat × String) := [(9, "s"), (6, "ms"), (3, "µs")]

def textIn (n : Nat) : List (Nat × String) → String
  | [] => s!"{n}ns"
  | (places, unit) :: rest =>
    let size := 10 ^ places
    if size ≤ n then
      let rest := if n % size = 0 then [] else fraction places (n % size)
      s!"{n / size}" ++ String.ofList rest ++ unit
    else textIn n rest

def text (s : Span) : String := textIn s.nanos units

end Span

end Warden
