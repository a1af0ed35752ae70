/-!
Decimal numerals.

A numeral is an optional plus sign and at least one ASCII digit; leading zeros are allowed.
A word is a numeral whose value fits 64 bits.
-/

namespace Warden.Text

def digitsValue (ds : List Char) : Nat :=
  ds.foldl (fun n d => 10 * n + (d.toNat - '0'.toNat)) 0

def unsigned : List Char → List Char
  | '+' :: ds => ds
  | ds => ds

def numeral? (cs : List Char) : Option Nat :=
  let ds := unsigned cs
  if ds.isEmpty || !ds.all Char.isDigit then none else some (digitsValue ds)

/-- The largest value of a 64-bit word. -/
def maxWord : Nat := 0xFFFFFFFFFFFFFFFF

def word? (cs : List Char) : Option Nat :=
  (numeral? cs).filter (· ≤ maxWord)

end Warden.Text
