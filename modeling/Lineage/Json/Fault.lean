/-!
# Faults of JSON texts

What can be wrong with a text that should be JSON, and where. A fault remembers the text that was
still to be read when it was met, so that it can be raised without counting; `Fault.position` turns
it into a line and a column afterwards. Columns count bytes of the UTF-8 form, and a fault may point
into the middle of a character: the reader looks at bytes, one at a time.
-/

namespace Lineage.Json

/-- The number of bytes of a text in UTF-8. -/
def byteCount (text : List Char) : Nat :=
  (text.map Char.utf8Size).foldr (· + ·) 0

/-- A place in a text: lines count from one, and the column is the number of bytes since the
last line end. -/
structure Position where
  /-- One more than the number of line ends before the place. -/
  line : Nat
  /-- The number of bytes between the last line end and the place. -/
  column : Nat
deriving DecidableEq, Repr

namespace Position

/-- Moves on by so many bytes of a text. -/
def advance (place : Position) : List Char → Nat → Position
  | [], _ => place
  | _, 0 => place
  | c :: rest, bytes + 1 =>
    if c = '\n' then advance ⟨place.line + 1, 0⟩ rest bytes
    else advance ⟨place.line, place.column + min (bytes + 1) c.utf8Size⟩ rest
      (bytes + 1 - c.utf8Size)

/-- The place after so many bytes of a text. -/
def after (text : List Char) (bytes : Nat) : Position :=
  advance ⟨1, 0⟩ text bytes

/-- How a place is told at the end of a message. -/
def suffix (place : Position) : String :=
  s!" at line {place.line} column {place.column}"

end Position

/-- Why a text is refused as JSON. -/
inductive Reason
  /-- The text ends where a value is due, or inside a word or a number. -/
  | endInValue
  | endInString
  | endInList
  | endInObject
  /-- A word that starts as `null`, `true` or `false` goes on differently. -/
  | misspeltWord
  /-- A character that starts no value stands where a value is due. -/
  | expectedValue
  /-- A number lacks a digit or has a zero too many. -/
  | invalidNumber
  /-- A number is larger than every finite double. -/
  | numberOutOfRange
  | controlCharacter
  /-- A backslash is followed by nothing that it escapes. -/
  | invalidEscape
  /-- A surrogate stands where the other half of a pair is due, or a low one comes first. -/
  | loneSurrogate
  /-- A high surrogate is not followed by an escape. -/
  | unfinishedPair
  | tooDeep
  /-- A comma stands before a closing bracket. -/
  | trailingComma
  /-- An array element is followed by neither comma nor bracket. -/
  | expectedCommaOrBracket
  /-- An object member is followed by neither comma nor brace. -/
  | expectedCommaOrBrace
  /-- A key is not followed by a colon. -/
  | expectedColon
  | keyNotText
  | trailingCharacters
  /-- Something that is no string stands where a text is due that is to be read on its own. -/
  | notText (found : String)
  /-- A text that is read on its own is refused, at a place of its own. -/
  | embedded (reason : Reason) (place : Position)
deriving DecidableEq, Repr

namespace Reason

def message : Reason → String
  | endInValue => "EOF while parsing a value"
  | endInString => "EOF while parsing a string"
  | endInList => "EOF while parsing a list"
  | endInObject => "EOF while parsing an object"
  | misspeltWord => "expected ident"
  | expectedValue => "expected value"
  | invalidNumber => "invalid number"
  | numberOutOfRange => "number out of range"
  | controlCharacter => "control character (\\u0000-\\u001F) found while parsing a string"
  | invalidEscape => "invalid escape"
  | loneSurrogate => "lone leading surrogate in hex escape"
  | unfinishedPair => "unexpected end of hex escape"
  | tooDeep => "recursion limit exceeded"
  | trailingComma => "trailing comma"
  | expectedCommaOrBracket => "expected `,` or `]`"
  | expectedCommaOrBrace => "expected `,` or `\x7d`"
  | expectedColon => "expected `:`"
  | keyNotText => "key must be a string"
  | trailingCharacters => "trailing characters"
  | notText found => s!"invalid type: {found}, expected raw value"
  | embedded reason _ => reason.message

/-- Whether the text ended too early, as opposed to having something wrong in it. -/
def isEnd : Reason → Bool
  | endInValue | endInString | endInList | endInObject => true
  | _ => false

/-- Whether the text is JSON, as far as it was read, and what it holds is not what is due. -/
def isMisfit : Reason → Bool
  | notText _ | embedded _ _ => true
  | _ => false

end Reason

/-- A reason with the place where it was met. -/
structure Fault where
  reason : Reason
  rest : List Char
  /-- The number of bytes of `rest` that had been looked at all the same. -/
  ahead : Nat
deriving DecidableEq, Repr

/-- The place of a fault in the text where it was met. A fault that looks past the end stays at the
end, and that of an embedded text is told from the beginning of the embedded text. -/
def Fault.position (fault : Fault) (text : List Char) : Position :=
  match fault.reason with
  | .embedded _ place => place
  | _ => Position.after text (byteCount text - (byteCount fault.rest - fault.ahead))

/-- The whole wording of a fault in a text. -/
def Fault.message (fault : Fault) (text : List Char) : String :=
  fault.reason.message ++ (fault.position text).suffix

end Lineage.Json
