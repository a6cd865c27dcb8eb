import Lineage.Json.Magnitude
import Lineage.Json.Outline

/-!
# Values

A JSON value, and the reader that takes a whole value out of a text (`readValue`) or refuses the
text with the first fault in it, read from left to right. Numbers have to be in range, surrogates
have to come in pairs, and containers nest up to `depthLimit`; one more is the fault `tooDeep`. A
reader may take some objects for something else than their members say (`readWith`).

Which parts a container has is settled by its outline, and the parts are read from there. An outline
is sound further than a whole reading is, so a reader that asks for some members only
(`Lineage.Json.Shape`) is not disturbed by what the others hold.
-/

namespace Lineage.Json

/-- A value. Members stand in the order of the text, repeated keys included. -/
inductive Value
  | null
  | bool (value : Bool)
  | number (number : Number)
  | text (content : String)
  | array (elements : List Value)
  | object (members : List (String × Value))

instance : Inhabited Value := ⟨.null⟩

/-- The number of containers that may be open at a time. -/
def depthLimit : Nat := 127

/-- Reads a number that starts the text, unless it is out of range. -/
def readNumber (input : List Char) : Except Fault Value :=
  match Number.read input with
  | .error fault => .error fault
  | .ok (number, rest) =>
    match number.outOfRange? rest with
    | some fault => .error fault
    | none => .ok (.number number)

/-- Reads a value that is no container and starts the text. -/
def readScalar : List Char → Except Fault Value
  | [] => .error ⟨.endInValue, [], 0⟩
  | 'n' :: rest => (readWord ['u', 'l', 'l'] rest).map fun _ => .null
  | 't' :: rest => (readWord ['r', 'u', 'e'] rest).map fun _ => .bool true
  | 'f' :: rest => (readWord ['a', 'l', 's', 'e'] rest).map fun _ => .bool false
  | '"' :: rest => (readText rest).map fun read => .text read.1
  | '-' :: rest => readNumber ('-' :: rest)
  | c :: rest => if isDigit c then readNumber (c :: rest) else .error ⟨.expectedValue, c :: rest, 1⟩

/-- Reads the values that start at some places. -/
def readEach (reader : List Char → Except Fault Value) :
    List (List Char) → Except Fault (List Value)
  | [] => .ok []
  | start :: starts =>
    match reader start with
    | .error fault => .error fault
    | .ok value => (readEach reader starts).map (value :: ·)

/-- Reads the values of some members. -/
def readMembers (reader : List Char → Except Fault Value) :
    List Member → Except Fault (List (String × Value))
  | [] => .ok []
  | member :: members =>
    -- A fault between a key and its value comes before those in the value.
    match member.value with
    | .error fault => .error fault
    | .ok start =>
      match reader start with
      | .error fault => .error fault
      | .ok value => (readMembers reader members).map ((member.key, value) :: ·)

/-- What comes of the parts of a container: nothing, if its end was not reached. -/
def Run.close {α β : Type} (run : Run α) (read : Except Fault β) : Except Fault β :=
  match read with
  | .error fault => .error fault
  | .ok parts => run.ending.map fun _ => parts

/-- Reads the value that is next in a text, with so many containers left to open. Objects whose
members are `special` are read as that says. -/
def readWith (special : Run Member → Option (Except Fault Value)) (budget : Nat)
    (input : List Char) : Except Fault Value :=
  match dropBlanks input with
  | '[' :: rest =>
    match budget with
    | 0 => .error ⟨.tooDeep, '[' :: rest, 1⟩
    | budget + 1 =>
      let run := elements rest
      (run.close (readEach (fun start => readWith special budget start) run.parts)).map .array
  | '{' :: rest =>
    match budget with
    | 0 => .error ⟨.tooDeep, '{' :: rest, 1⟩
    | budget + 1 =>
      let run := members rest
      -- It is asked what the object stands for before its members are read.
      match special run with
      | some read => read
      | none =>
        (run.close (readMembers (fun start => readWith special budget start) run.parts)).map .object
  | scalar => readScalar scalar

/-- Reads the value that is next in a text, each object by its members. -/
def readValue (budget : Nat) (input : List Char) : Except Fault Value :=
  readWith (fun _ => none) budget input

/-- Makes sure that nothing but blanks follows the value that a text starts with. -/
def expectEnd (input : List Char) : Except Fault Unit :=
  match skipValue [] input with
  | .error fault => .error fault
  | .ok rest =>
    match dropBlanks rest with
    | [] => .ok ()
    | rest => .error ⟨.trailingCharacters, rest, 1⟩

end Lineage.Json
