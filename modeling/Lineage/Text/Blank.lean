/-!
# Blank characters and trimming

The characters of the Unicode property White_Space, and texts without such characters at their ends.
Message lines and settings are trimmed by this property; JSON and the line framing have narrower
notions of a blank of their own.
-/

namespace Lineage.Text

/-- The characters of the Unicode property White_Space. -/
def isBlank (c : Char) : Bool :=
  let n := c.toNat
  (9 ≤ n && n ≤ 13) || n == 0x20 || n == 0x85 || n == 0xA0 || n == 0x1680 ||
    (0x2000 ≤ n && n ≤ 0x200A)
    || n == 0x2028 || n == 0x2029 || n == 0x202F || n == 0x205F || n == 0x3000

def trimStart (text : List Char) : List Char :=
  text.dropWhile isBlank

def trimEnd (text : List Char) : List Char :=
  (text.reverse.dropWhile isBlank).reverse

/-- The text without blanks at either end. -/
def trim (text : List Char) : List Char :=
  trimEnd (trimStart text)

/-- The string without blanks at either end. -/
def trimmed (text : String) : String :=
  String.ofList (trim text.toList)

end Lineage.Text
