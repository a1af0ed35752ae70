import Warden.Text.Glyph

/-!
Text with its unreadable characters spelled out.

Both forms write NUL, tab, carriage return, line feed and backslash as a backslash and a letter,
and a hidden character by its code point in braces. The quoted form stands between double quotes,
keeps single quotes and spells out every extending character. The escaped form stands alone,
escapes both quotes and spells out an extending character only at the start of the text.
-/

namespace Warden.Text

/-- Which characters a form escapes beside the hidden ones. -/
structure Escaping where
  singleQuote : Bool
  extending : Bool

def codePoint (c : Char) : List Char :=
  ['\\', 'u', '\x7b'] ++ Nat.toDigits 16 c.toNat ++ ['\x7d']

def escapeChar (e : Escaping) (c : Char) : List Char :=
  if c = '\x00' then ['\\', '0']
  else if c = '\t' then ['\\', 't']
  else if c = '\r' then ['\\', 'r']
  else if c = '\n' then ['\\', 'n']
  else if c = '\\' then ['\\', '\\']
  else if c = '"' then ['\\', '"']
  else if c = '\'' then (if e.singleQuote then ['\\', '\''] else [c])
  else if e.extending && isExtending c then codePoint c
  else if isHidden c then codePoint c
  else [c]

/-- The text between double quotes. -/
def quoted (s : String) : String :=
  String.ofList ('"' :: s.toList.flatMap (escapeChar ⟨false, true⟩) ++ ['"'])

def escapeList : List Char → List Char
  | [] => []
  | c :: cs => escapeChar ⟨true, true⟩ c ++ cs.flatMap (escapeChar ⟨true, false⟩)

/-- The text on its own, with both kinds of quotes escaped. -/
def escaped (s : String) : String := String.ofList (escapeList s.toList)

end Warden.Text
