import Lineage.Json.Canonical
import Lineage.Text.Quoted

/-!
# Embedded texts

An object whose first key is `embeddedKey` does not stand for itself. What stands under the key has
to be a string, the string has to hold JSON, and there may be nothing behind it in the object; then
the object is read as the value that the string holds (`parse`). What the string holds is a text of
its own: containers nest in it as if nothing were around it, faults in it are told by their place in
it, and there may be texts embedded in it in turn.
-/

namespace Lineage.Json

/-- The key of an object that holds a text. -/
def embeddedKey : String := "$serde_json::private::RawValue"

/-- How a value is told that stands where it may not. -/
def Value.told : Value → String
  | .null => "null"
  | .bool b => s!"boolean `{b}`"
  | .number n =>
    let spelling := String.ofList n.canonical.spelling
    if n.integer?.isSome then s!"integer `{spelling}`" else s!"floating point `{spelling}`"
  | .text content => s!"string {Text.quoted content}"
  | .array _ => "sequence"
  | .object _ => "map"

/-- The fault of a value that stands where a text is due. A scalar is read to its end first, a
container is not entered. -/
def notText (start : List Char) : Fault :=
  match start with
  | '[' :: _ => ⟨.notText (Value.array []).told, start, 0⟩
  | '{' :: _ => ⟨.notText (Value.object []).told, start, 0⟩
  | _ =>
    match readScalar start, skipScalar start with
    | .error fault, _ => fault
    | _, .error fault => fault
    | .ok value, .ok rest => ⟨.notText value.told, rest, 0⟩

/-- Makes sure that an object ends behind its only member. -/
def expectBrace (text : List Char) : Except Fault Unit :=
  match dropBlanks text with
  | [] => .error ⟨.endInObject, [], 0⟩
  | '}' :: _ => .ok ()
  -- A second member is as good as a comma too many.
  | ',' :: rest => .error ⟨.trailingComma, ',' :: rest, 1⟩
  | rest => .error ⟨.trailingCharacters, rest, 1⟩

/-- Reads the text that the first member of an object holds. Whatever is wrong in the text is said
before it is asked how the object goes on. -/
def readEmbedded (reader : List Char → Except Fault Value) (member : Member) : Except Fault Value :=
  match member.value with
  | .error fault => .error fault
  | .ok ('"' :: inside) =>
    match readText inside with
    | .error fault => .error fault
    | .ok (content, rest) =>
      -- The fault is told by its place in the content, not in the object around it.
      match reader content.toList with
      | .error fault => .error ⟨.embedded fault.reason (fault.position content.toList), rest, 0⟩
      | .ok value => (expectBrace rest).map fun _ => value
  | .ok start => .error (notText start)

/-- What the members of an object are read as if the first of them holds a text. -/
def embedded? (reader : List Char → Except Fault Value) (run : Run Member) :
    Option (Except Fault Value) :=
  match run.parts with
  | [] => none
  | member :: _ => if member.key = embeddedKey then some (readEmbedded reader member) else none

/-- Reads a text that is one value, and the texts that are embedded in it. -/
def parse (input : List Char) : Except Fault Value :=
  let reader (content : List Char) : Except Fault Value :=
    -- An embedded text is shorter than the text around it, so none is turned away here.
    if _h : content.length < input.length then parse content else .error ⟨.endInValue, [], 0⟩
  match readWith (embedded? reader) depthLimit input with
  | .error fault => .error fault
  | .ok value => (expectEnd input).map fun _ => value
termination_by input.length

end Lineage.Json
