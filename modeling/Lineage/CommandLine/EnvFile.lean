import Lineage.Catalog
import Lineage.Text.Alphanumeric
import Lineage.Text.Blank
import Lineage.Text.Utf8

/-!
# Files of variables

A file that sets variables, one in a line: a key, an equals sign and a value. Blank lines and
lines of comment are passed over, `export` may stand before the key, and a comment may follow the
value behind a blank.

A value may be quoted. In single quotes everything stands for itself. In double quotes and outside
of quotes a backslash escapes the next character, and a dollar sign stands before the name of a
variable, in braces or not. A quoted value may go on over several lines.

The file is read in three steps: into lines, where those with open quotes are joined
(`logicalLines`), each line into an assignment (`readLine`), and the assignments into an environment
(`Assignment.applyAll`). Reading ends with the first line that is no assignment; the ones before it
count. A variable that has a value keeps it.
-/

namespace Lineage.CommandLine.EnvFile

open Lineage.Text

/-! ### Lines -/

/-- What is open at some place of a line. -/
inductive Opening
  | nothing
  /-- The first blank behind something, where a comment may begin. -/
  | blank
  | escape
  | single
  | singleEscape
  | double
  | doubleEscape
deriving DecidableEq, Repr

namespace Opening

/-- What is open behind a character outside of quotes. -/
def outside (c : Char) : Opening :=
  -- A quote or a backslash opens something; any other character stands for itself.
  if c = '\\' then escape else if c = '"' then double else if c = '\'' then single else nothing

/-- What is open behind one more character. -/
def next (opening : Opening) (c : Char) : Opening :=
  match opening with
  | nothing => if isBlank c && c != '\n' && c != '\r' then blank else outside c
  -- A second blank does not count as the first one behind something.
  | blank => outside c
  | escape => nothing
  | single => if c = '\\' then singleEscape else if c = '\'' then nothing else single
  | singleEscape => single
  | double => if c = '\\' then doubleEscape else if c = '"' then nothing else double
  | doubleEscape => double

end Opening

/-- How a line ends. -/
inductive LineEnd
  /-- Where a comment begins, behind the given part of it. -/
  | comment (before : List Char)
  | opening (opening : Opening)
deriving DecidableEq, Repr

/-- Goes through a line; `done` is the part before, its last character first. -/
def scan (opening : Opening) (done : List Char) : List Char → LineEnd
  | [] => .opening opening
  | c :: rest =>
    if opening = .blank ∧ c = '#' then .comment done.reverse
    else scan (opening.next c) (c :: done) rest

/-- The line without its line end. -/
def withoutLineEnd (line : List Char) : List Char :=
  match line.reverse with
  | '\n' :: '\r' :: rest => rest.reverse
  | '\n' :: rest => rest.reverse
  | _ => line

/-- The lines of some bytes, each with its line end; `pending` is the open line, its last byte
first. -/
def rawLines : (pending : List UInt8) → (bytes : List UInt8) → List (List UInt8)
  | [], [] => []
  | pending, [] => [pending.reverse]
  | pending, b :: bytes =>
    if b = 10 then (b :: pending).reverse :: rawLines [] bytes else rawLines (b :: pending) bytes

/-- Joins lines with open quotes to the ones that follow. Ends before a line that is not UTF-8 and
before one that is still open at the end. -/
def logicalLines (pending : List Char) (opening : Opening) : List (List UInt8) → List (List Char)
  | [] => []
  | raw :: rest =>
    match Utf8.decode raw with
    | .error _ => []
    | .ok line =>
      let text := pending ++ line.toList
      -- A comment that fills its line is dropped here, before quotes in it could open anything.
      if (trimStart text).head? = some '#' then [] :: logicalLines [] .nothing rest
      else
        match scan opening [] line.toList with
        | .comment before => (pending ++ before) :: logicalLines [] .nothing rest
        | .opening .nothing => withoutLineEnd text :: logicalLines [] .nothing rest
        -- Something is open: the line goes on behind its line end.
        | .opening opening => logicalLines text opening rest

/-! ### Values -/

/-- A part of a value. -/
inductive Piece
  | literal (c : Char)
  | reference (name : String)
deriving DecidableEq, Repr

/-- Where the reading of a value has got to. The flag tells whether it is inside double quotes. -/
inductive ValueState
  | plain (quoted : Bool)
  | escape (quoted : Bool)
  | single
  /-- In the name of a variable, given with its last character first. -/
  | name (quoted : Bool) (letters : List Char)
  /-- In the name of a variable in braces, given with its last character first. -/
  | braced (quoted : Bool) (letters : List Char)
  | behind
deriving DecidableEq, Repr

/-- The character that a backslash and a character stand for. -/
def escaped? (c : Char) : Option Char :=
  if c ∈ ['\\', '\'', '"', '$', ' '] then some c else if c = 'n' then some '\n' else none

/-- A piece for a variable, its name given with the last character first. -/
def variablePiece (letters : List Char) : Piece :=
  .reference (String.ofList letters.reverse)

/-- Goes on from a character that is not special to the state before. -/
def plainStep (quoted : Bool) (c : Char) : ValueState × List Piece :=
  if c = '$' then (.name quoted [], [])
  else if c = '"' then (.plain !quoted, [])
  else if c = '\\' then (.escape quoted, [])
  -- In double quotes single quotes and blanks stand for themselves.
  else if quoted then (.plain quoted, [.literal c])
  else if c = '\'' then (.single, [])
  else if c = ' ' ∨ c = '\t' then (.behind, [])
  else (.plain quoted, [.literal c])

def readPieces (state : ValueState) : List Char → Option (List Piece)
  | [] =>
    match state with
    -- Open quotes are refused at the end, an open escape outside of them is not.
    | .plain quoted | .escape quoted => if quoted then none else some []
    | .name quoted letters => if quoted then none else some [variablePiece letters]
    | .single | .braced _ _ => none
    | .behind => some []
  | c :: rest =>
    match state with
    | .behind =>
      if c = ' ' ∨ c = '\t' then readPieces .behind rest else if c = '#' then some [] else none
    | .escape quoted =>
      match escaped? c with
      | some c => (readPieces (.plain quoted) rest).map (.literal c :: ·)
      | none => none
    | .single =>
      if c = '\'' then readPieces (.plain false) rest
      else (readPieces .single rest).map (.literal c :: ·)
    | .name quoted letters =>
      if isAlphanumeric c then readPieces (.name quoted (c :: letters)) rest
      else if c = '\x7b' ∧ letters = [] then readPieces (.braced quoted []) rest
      else if c = '$' then (readPieces (.name quoted []) rest).map (variablePiece letters :: ·)
      -- The character that ends a name stands for itself, even if it is a quote.
      else (readPieces (.plain quoted) rest).map fun pieces =>
        variablePiece letters :: .literal c :: pieces
    | .braced quoted letters =>
      if c = '\x7d' then (readPieces (.plain quoted) rest).map (variablePiece letters :: ·)
      else readPieces (.braced quoted (c :: letters)) rest
    | .plain quoted =>
      let (state, pieces) := plainStep quoted c
      (readPieces state rest).map (pieces ++ ·)

/-! ### Assignments -/

/-- What a line sets. -/
structure Assignment where
  key : String
  value : List Piece
deriving DecidableEq, Repr

/-- What a line means. -/
inductive Meaning
  | nothing
  | assignment (assignment : Assignment)
  | unreadable
deriving DecidableEq, Repr

/-- Whether a key may start with a character. -/
def startsKey (c : Char) : Bool :=
  c.isAlpha || c = '_'

/-- Whether a key may go on with a character. -/
def continuesKey (c : Char) : Bool :=
  c.isAlphanum || c = '_' || c = '.'

/-- Takes a key and the blanks behind it. -/
def takeKey? (text : List Char) : Option (String × List Char) :=
  match text with
  | [] => none
  | c :: _ =>
    if startsKey c then some (String.ofList (text.takeWhile continuesKey),
      trimStart (text.dropWhile continuesKey))
    else none

/-- Takes the key of an assignment and its equals sign. `export` is a key only if an equals
sign follows. -/
def takeTarget? (text : List Char) : Option (String × List Char) :=
  match takeKey? text with
  | none => none
  | some (key, '=' :: rest) => some (key, trimStart rest)
  | some (key, rest) =>
    -- A word that is no target by itself may be the one that introduces a target.
    if key = "export" then
      match takeKey? rest with
      | some (key, '=' :: rest) => some (key, trimStart rest)
      | _ => none
    else none

/-- Whether nothing is left of a line but a comment. -/
def isOver (text : List Char) : Bool :=
  text.isEmpty || text.head? = some '#'

def readLine (line : List Char) : Meaning :=
  let text := trim line
  if isOver text then .nothing
  else
    match takeTarget? text with
    | none => .unreadable
    | some (key, rest) =>
      if isOver rest then .assignment ⟨key, []⟩
      else
        match readPieces (.plain false) rest with
        | some value => .assignment ⟨key, value⟩
        | none => .unreadable

/-- The assignments before the first line that cannot be read. -/
def takeAssignments : List (List Char) → List Assignment
  | [] => []
  | line :: lines =>
    match readLine line with
    | .nothing => takeAssignments lines
    | .assignment assignment => assignment :: takeAssignments lines
    | .unreadable => []

/-- The bytes without a byte order mark at their start. -/
def withoutMark : List UInt8 → List UInt8
  | 0xEF :: 0xBB :: 0xBF :: rest => rest
  | bytes => bytes

def read (bytes : List UInt8) : List Assignment :=
  takeAssignments (logicalLines [] .nothing (rawLines [] (withoutMark bytes)))

/-! ### Environments -/

def Piece.text (environment : Catalog String) : Piece → String
  | literal c => String.singleton c
  | reference name => (environment.get? name).getD ""

namespace Assignment

/-- The value of an assignment as a text. -/
def text (assignment : Assignment) (environment : Catalog String) : String :=
  String.join (assignment.value.map (Piece.text environment))

/-- Sets the variable, unless it has a value. -/
def apply (environment : Catalog String) (assignment : Assignment) : Catalog String :=
  if environment.contains assignment.key then environment
  else environment.insert assignment.key (assignment.text environment)

/-- Makes assignments, one after the other. -/
def applyAll (environment : Catalog String) (assignments : List Assignment) : Catalog String :=
  assignments.foldl apply environment

/-- The variables that an assignment mentions. -/
def names (assignment : Assignment) : List String :=
  assignment.key :: assignment.value.filterMap fun
    | .reference name => some name
    | .literal _ => none

end Assignment

end Lineage.CommandLine.EnvFile
