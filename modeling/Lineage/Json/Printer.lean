import Lineage.Catalog
import Lineage.Json.Value

/-!
# Writing JSON

The compact form has no blanks; the wide form puts every part of a container on a line of its own,
two blanks further in than the container. Strings escape the quote, the backslash and the control
characters, and nothing else, so a written value never holds a line end in the compact form.
-/

namespace Lineage.Json

/-- A hexadecimal digit in lower case. -/
def hexChar (n : Nat) : Char :=
  if n < 10 then Char.ofNat ('0'.toNat + n) else Char.ofNat ('a'.toNat + (n - 10))

/-- How a character stands in a string. -/
def escapeChar (c : Char) : List Char :=
  if c = '"' then ['\\', '"']
  else if c = '\\' then ['\\', '\\']
  else if c = '\x08' then ['\\', 'b']
  else if c = '\t' then ['\\', 't']
  else if c = '\n' then ['\\', 'n']
  else if c = '\x0c' then ['\\', 'f']
  else if c = '\r' then ['\\', 'r']
  -- The control characters without a short escape.
  else if isControl c then ['\\', 'u', '0', '0', hexChar (c.toNat / 16), hexChar (c.toNat % 16)]
  else [c]

def quote (content : String) : List Char :=
  '"' :: (content.toList.flatMap escapeChar ++ ['"'])

namespace Value

mutual

/-- The compact form of a value. -/
def render : Value → List Char
  | null => ['n', 'u', 'l', 'l']
  | bool true => ['t', 'r', 'u', 'e']
  | bool false => ['f', 'a', 'l', 's', 'e']
  | number n => n.spelling
  | text content => quote content
  | array [] => ['[', ']']
  | array (element :: elements) => '[' :: (render element ++ renderElements elements)
  | object [] => ['{', '}']
  | object ((key, value) :: members) =>
    '{' :: (quote key ++ ':' :: (render value ++ renderMembers members))

/-- The elements behind the first one, and the closing bracket. -/
def renderElements : List Value → List Char
  | [] => [']']
  | element :: elements => ',' :: (render element ++ renderElements elements)

/-- The members behind the first one, and the closing brace. -/
def renderMembers : List (String × Value) → List Char
  | [] => ['}']
  | (key, value) :: members => ',' :: (quote key ++ ':' :: (render value ++ renderMembers members))

end

/-- A line end and the blanks of a depth. -/
def newLine (depth : Nat) : List Char :=
  '\n' :: List.replicate (2 * depth) ' '

mutual

/-- The wide form of a value at a depth. -/
def wide (depth : Nat) : Value → List Char
  | array (element :: elements) =>
    '[' :: (newLine (depth + 1) ++ (wide (depth + 1) element ++ wideElements depth elements))
  | object ((key, value) :: members) =>
    '{' :: (newLine (depth + 1) ++
      (quote key ++ ':' :: ' ' :: (wide (depth + 1) value ++ wideMembers depth members)))
  -- Scalars and empty containers are written in one piece.
  | value => value.render

/-- The elements behind the first one, and the closing bracket on its line. -/
def wideElements (depth : Nat) : List Value → List Char
  | [] => newLine depth ++ [']']
  | element :: elements =>
    ',' :: (newLine (depth + 1) ++ (wide (depth + 1) element ++ wideElements depth elements))

/-- The members behind the first one, and the closing brace on its line. -/
def wideMembers (depth : Nat) : List (String × Value) → List Char
  | [] => newLine depth ++ ['}']
  | (key, value) :: members =>
    ',' :: (newLine (depth + 1)
      ++ (quote key ++ ':' :: ' ' :: (wide (depth + 1) value ++ wideMembers depth members)))

end

/-- The compact form as a string. -/
def compact (value : Value) : String :=
  String.ofList value.render

/-- The wide form as a string. -/
def pretty (value : Value) : String :=
  String.ofList (value.wide 0)

/-- A natural number as a value. -/
def ofNat (n : Nat) : Value :=
  .number (.ofNat n)

/-- A catalog of texts as an object. -/
def ofTexts (catalog : Catalog String) : Value :=
  .object (catalog.entries.map fun entry => (entry.1, .text entry.2))

/-- A catalog of counters as an object. -/
def ofCounters (counters : Catalog Nat) : Value :=
  .object (counters.entries.map fun entry => (entry.1, ofNat entry.2))

end Value

end Lineage.Json
