/-!
Text in sixteen-bit units.

A character below `0x10000` is one unit; any other is a high surrogate followed by a low one.
`wide?` puts a zero unit behind the text, so a text that holds NUL has no wide form. Units are read
one by one: a unit that is no surrogate is a character, a high surrogate and a low one behind it are
another, and a surrogate that stands otherwise is none.
-/

namespace Warden.Text

def charUnits (c : Char) : List Nat :=
  if c.toNat < 0x10000 then [c.toNat]
  else
    let v := c.toNat - 0x10000
    [0xD800 + v / 0x400, 0xDC00 + v % 0x400]

def units (cs : List Char) : List Nat := cs.flatMap charUnits

def hasNul (cs : List Char) : Bool := cs.any (· == '\x00')

/-- The units of a text and the closing zero, unless the text itself holds a zero. -/
def wide? (cs : List Char) : Option (List Nat) :=
  if hasNul cs then none else some (units cs ++ [0])

/-- The first unit of a pair. -/
def isHigh (u : Nat) : Bool := 0xD800 ≤ u && u < 0xDC00

/-- The second unit of a pair. -/
def isLow (u : Nat) : Bool := 0xDC00 ≤ u && u < 0xE000

/-- The character of a pair. -/
def ofPair (u v : Nat) : Char := .ofNat (0x10000 + (u - 0xD800) * 0x400 + (v - 0xDC00))

/-- The text of units, unless a surrogate stands alone or a unit has more than sixteen bits. -/
def ofUnits? : List Nat → Option (List Char)
  | [] => some []
  | u :: us =>
    if isHigh u then
      match us with
      | [] => none
      | v :: vs => if isLow v then (ofUnits? vs).map (ofPair u v :: ·) else none
    else if isLow u || 0x10000 ≤ u then none
    else (ofUnits? us).map (Char.ofNat u :: ·)

end Warden.Text
