/-!
Text without the control sequences of terminals.

An escape character begins a sequence. One that opens a bracket ends with its final character, one
that carries a string runs up to the next escape, and any other is over after a character or two.
Outside of sequences only tab, line feed, form feed and carriage return stay of the control
characters.
-/

namespace Warden.Text

namespace Plain

inductive Mode where
  | ground
  | escape
  /-- An escape whose final character is still to come. -/
  | designating
  | bracket
  /-- A string; some end with a bell. -/
  | string (bell : Bool)
  deriving DecidableEq

def isKeptControl (c : Char) : Bool := c == '\t' || c == '\n' || c == '\x0c' || c == '\r'

/-- The mode behind an escape and a character that is no control. -/
def opened (c : Char) : Mode :=
  if c = '[' then .bracket
  else if c = ']' then .string true
  else if c = 'P' ∨ c = 'X' ∨ c = '^' ∨ c = '_' then .string false
  else if c.toNat < 0x30 then .designating
  else .ground

/-- The mode behind a character, and whether the character stays. -/
def step (m : Mode) (c : Char) : Mode × Bool :=
  let n := c.toNat
  if n = 0x1B then (.escape, false)
  else if n = 0x18 ∨ n = 0x1A then (.ground, false)
  else if 0x80 ≤ n then (.ground, true)
  else
    match m with
    | .string bell => (if bell ∧ n = 7 then .ground else m, false)
    | .ground => (.ground, isKeptControl c || (0x20 ≤ n && n < 0x7F))
    | _ =>
      if isKeptControl c then (.ground, true)
      else if n < 0x20 ∨ n = 0x7F then (m, false)
      else
        match m with
        | .escape => (opened c, false)
        | .designating => (if n < 0x30 then m else .ground, false)
        | _ => (if n < 0x40 then m else .ground, false)

def plain (m : Mode) : List Char → List Char
  | [] => []
  | c :: cs =>
    let (m, stays) := step m c
    if stays then c :: plain m cs else plain m cs

end Plain

def plain (s : String) : String := String.ofList (Plain.plain .ground s.toList)

end Warden.Text
