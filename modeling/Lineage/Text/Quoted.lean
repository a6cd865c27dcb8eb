import Lineage.Text.Blank

/-!
# Quoted texts

A text in double quotes, for a reader who wants to see where it begins and ends. Quotes and
backslashes are escaped, and so are the characters that would not show as themselves: control
characters, and blanks other than the space.
-/

namespace Lineage.Text

/-- The digits of a code point in base sixteen. -/
def hexDigits (c : Char) : List Char :=
  Nat.toDigits 16 c.toNat

/-- Whether a character shows as itself. -/
def isVisible (c : Char) : Bool :=
  c = ' ' || !(isBlank c || c.toNat < 0x20 || (0x7F ≤ c.toNat && c.toNat ≤ 0x9F))

/-- How a character stands in a quoted text. -/
def quotedChar (c : Char) : List Char :=
  if c = '"' then ['\\', '"']
  else if c = '\\' then ['\\', '\\']
  else if c = '\n' then ['\\', 'n']
  else if c = '\r' then ['\\', 'r']
  else if c = '\t' then ['\\', 't']
  else if c = '\x00' then ['\\', '0']
  else if isVisible c then [c]
  else ['\\', 'u', '\x7b'] ++ hexDigits c ++ ['\x7d']

def quoted (text : String) : String :=
  String.ofList ('"' :: (text.toList.flatMap quotedChar ++ ['"']))

end Lineage.Text
