import Lineage.Catalog
import Lineage.Json.Value

/-!
# Reading values of a shape

Readers of texts that should hold a value of a certain shape: a string, an object of strings, a
record of named fields, a choice between several records. Each takes the text from where the value
starts and answers with the value or with the first thing that is wrong, be it that the text is no
JSON (`Refusal.unreadable`) or that it is JSON of another shape (`Refusal.misfit`). What is wrong
with the shape is said as soon as it shows: a string where a number is due is read to its end, but
an array there is refused at its bracket, and a repeated field at its key.

A record may be written as an object, its fields in any order and members with other keys ignored,
or as an array of its fields in their order.
-/

namespace Lineage.Json

/-- How a value fails to have a shape. -/
inductive Misfit
  | wrongType
  | outOfRange
  | missingField (name : String)
  | duplicateField (name : String)
  | unknownVariant (name : String)
  /-- An array has too few or too many elements. -/
  | wrongLength
deriving DecidableEq, Repr

/-- Why a text is refused as a value of a shape. -/
inductive Refusal
  | unreadable (fault : Fault)
  /-- The text is JSON of another shape, as far as it was read. -/
  | misfit (misfit : Misfit)
deriving DecidableEq, Repr

/-- The three sorts of refusals. -/
inductive Refusal.Category
  | ended
  | malformed
  /-- The text is JSON of another shape. -/
  | misfit
deriving DecidableEq, Repr

def Refusal.category : Refusal → Refusal.Category
  | unreadable fault =>
    if fault.reason.isEnd then .ended else if fault.reason.isMisfit then .misfit else .malformed
  | misfit _ => .misfit

/-- A reader of values of one shape. -/
abbrev Reader (α : Type) := List Char → Except Refusal α

def orUnreadable {α : Type} : Except Fault α → Except Refusal α
  | .ok a => .ok a
  | .error fault => .error (.unreadable fault)

/-- The refusal of a value of another type: a scalar is read to its end first, a container
is not entered. -/
def refuseType {α : Type} (input : List Char) : Except Refusal α :=
  match dropBlanks input with
  | '[' :: _ => .error (.misfit .wrongType)
  | '{' :: _ => .error (.misfit .wrongType)
  | scalar =>
    match readScalar scalar with
    | .ok _ => .error (.misfit .wrongType)
    | .error fault => .error (.unreadable fault)

/-! ### Scalars -/

def readString : Reader String := fun input =>
  match dropBlanks input with
  | '"' :: rest => orUnreadable ((readText rest).map (·.1))
  | _ => refuseType input

def readStringOrNull : Reader (Option String) := fun input =>
  match dropBlanks input with
  | 'n' :: rest => orUnreadable ((readWord ['u', 'l', 'l'] rest).map fun _ => none)
  | _ => (readString input).map some

def readNull : Reader Unit := fun input =>
  match dropBlanks input with
  | 'n' :: rest => orUnreadable ((readWord ['u', 'l', 'l'] rest).map fun _ => ())
  | _ => refuseType input

/-- Reads a natural number up to a limit, written without sign, point and exponent. -/
def readNatUpTo (limit : Nat) : Reader Nat := fun input =>
  match dropBlanks input with
  | [] => refuseType input
  | c :: rest =>
    if c = '-' ∨ isDigit c then
      match readNumber (c :: rest) with
      | .ok (.number number) =>
        match number.toNat? with
        | some n => if n ≤ limit then .ok n else .error (.misfit .outOfRange)
        | none => .error (.misfit .wrongType)
      | .ok _ => .error (.misfit .wrongType)
      | .error fault => .error (.unreadable fault)
    else refuseType input

/-! ### Objects of strings -/

/-- Reads the members of an object of strings into a catalog. -/
def readStringMembers (catalog : Catalog String) : List Member → Except Refusal (Catalog String)
  | [] => .ok catalog
  | member :: members =>
    match orUnreadable member.value with
    | .error refusal => .error refusal
    | .ok start =>
      match readString start with
      | .error refusal => .error refusal
      | .ok content => readStringMembers (catalog.insert member.key content) members

/-- Reads an object of strings; of a repeated key the last value stays. -/
def readStrings : Reader (Catalog String) := fun input =>
  match dropBlanks input with
  | '{' :: rest =>
    let run := members rest
    match readStringMembers .empty run.parts with
    | .error refusal => .error refusal
    | .ok catalog => orUnreadable (run.ending.map fun _ => catalog)
  | _ => refuseType input

/-! ### Records -/

/-- A field of a record: its name, and what its value has to be readable as. -/
structure Field where
  name : String
  /-- Whether a value is one for this field. -/
  check : Reader Unit

/-- A field whose values a reader takes. -/
def Field.of {α : Type} (name : String) (reader : Reader α) : Field :=
  ⟨name, fun input => (reader input).map fun _ => ()⟩

/-- Where the values of the fields of a record start. -/
abbrev Starts := List (String × List Char)

/-- Goes through the members of an object, keeping those that are fields. -/
def takeFields (fields : List Field) (met : Starts) : List Member → Except Refusal Starts
  | [] => .ok met
  | member :: members =>
    match fields.find? (·.name = member.key) with
    | none => takeFields fields met members
    | some field =>
      if (met.lookup member.key).isSome then .error (.misfit (.duplicateField member.key))
      else
        match orUnreadable member.value with
        | .error refusal => .error refusal
        | .ok start =>
          match field.check start with
          | .error refusal => .error refusal
          | .ok _ => takeFields fields (met ++ [(member.key, start)]) members

/-- Goes through the elements of an array, one for each field. -/
def takeElements (surplus : Fault → Refusal) :
    List Field → Run (List Char) → Except Refusal Starts
  | [], ⟨[], .ok _⟩ => .ok []
  -- All fields are taken: only the bracket may follow, so any fault but the end of the text is a
  -- surplus.
  | [], ⟨[], .error fault⟩ =>
    if fault.reason = .endInList then .error (.unreadable fault) else .error (surplus fault)
  | [], ⟨start :: _, _⟩ => .error (surplus ⟨.trailingCharacters, start, 0⟩)
  -- The bracket comes too early.
  | _ :: _, ⟨[], .ok _⟩ => .error (.misfit .wrongLength)
  | _ :: _, ⟨[], .error fault⟩ => .error (.unreadable fault)
  | field :: fields, ⟨start :: starts, ending⟩ =>
    match field.check start with
    | .error refusal => .error refusal
    | .ok _ => (takeElements surplus fields ⟨starts, ending⟩).map ((field.name, start) :: ·)

/-- Reads a record: the starts of its fields, each of them checked. -/
def readRecord (fields : List Field) : Reader Starts := fun input =>
  match dropBlanks input with
  | '{' :: rest =>
    let run := members rest
    match takeFields fields [] run.parts with
    | .error refusal => .error refusal
    | .ok met => orUnreadable (run.ending.map fun _ => met)
  | '[' :: rest =>
    takeElements (fun fault => .unreadable { fault with reason := .trailingCharacters }) fields
      (elements rest)
  | _ => refuseType input

/-- The value of a field of a record. -/
def Starts.get {α : Type} (starts : Starts) (name : String) (reader : Reader α) :
    Except Refusal α :=
  match starts.lookup name with
  | some start => reader start
  | none => .error (.misfit (.missingField name))

/-- The value of a field of a record that may be absent. -/
def Starts.getOr {α : Type} (starts : Starts) (name : String) (absent : α) (reader : Reader α) :
    Except Refusal α :=
  match starts.lookup name with
  | some start => reader start
  | none => .ok absent

/-! ### Choices with the tag inside -/

/-- What stands under the tag of a choice, and the rest of the record. -/
structure Tagged where
  variant : String
  /-- The members besides the tag, or the elements behind it. -/
  content : List Member ⊕ List (List Char)

/-- Reads the name of an alternative. -/
def readVariant (variants : List String) : Reader String := fun input =>
  match readString input with
  | .error refusal => .error refusal
  | .ok name => if name ∈ variants then .ok name else .error (.misfit (.unknownVariant name))

/-- Goes through the members of an object for its tag; all other members are read whole. -/
def takeTag (tag : String) (variants : List String) (variant : Option String) (kept : List Member) :
    List Member → Except Refusal (Option String × List Member)
  | [] => .ok (variant, kept)
  | member :: members =>
    if member.key = tag then
      -- A tag that is repeated is refused at its key, before its value is looked at.
      if variant.isSome then .error (.misfit (.duplicateField tag))
      else
        match orUnreadable member.value with
        | .error refusal => .error refusal
        | .ok start =>
          match readVariant variants start with
          | .error refusal => .error refusal
          | .ok name => takeTag tag variants (some name) kept members
    else
      match orUnreadable member.value with
      | .error refusal => .error refusal
      | .ok start =>
        -- It is not known yet what the member means, so it has to be sound JSON as it stands.
        match orUnreadable (readValue (depthLimit - 1) start) with
        | .error refusal => .error refusal
        | .ok _ => takeTag tag variants variant (kept ++ [member]) members

/-- Reads a record that names its alternative under a tag, before it is looked at what the
alternative asks for. -/
def readTagged (tag : String) (variants : List String) : Reader Tagged := fun input =>
  match dropBlanks input with
  | '{' :: rest =>
    let run := members rest
    match takeTag tag variants none [] run.parts with
    | .error refusal => .error refusal
    | .ok (variant, kept) =>
      match orUnreadable run.ending, variant with
      | .error refusal, _ => .error refusal
      | .ok _, none => .error (.misfit (.missingField tag))
      | .ok _, some name => .ok ⟨name, .inl kept⟩
  | '[' :: rest =>
    let run := elements rest
    match run.parts with
    | [] =>
      match orUnreadable run.ending with
      | .error refusal => .error refusal
      | .ok _ => .error (.misfit (.missingField tag))
    | start :: starts =>
      match readVariant variants start with
      | .error refusal => .error refusal
      | .ok name =>
        match orUnreadable (run.close (readEach (readValue (depthLimit - 1)) starts)) with
        | .error refusal => .error refusal
        | .ok _ => .ok ⟨name, .inr starts⟩
  | _ => refuseType input

def Tagged.record (tagged : Tagged) (fields : List Field) : Except Refusal Starts :=
  match tagged.content with
  | .inl members => takeFields fields [] members
  | .inr starts => takeElements (fun _ => .misfit .wrongLength) fields ⟨starts, .ok []⟩

/-! ### Choices with the tag outside -/

/-- An alternative that is written by its name alone, or as an object with its name as
the only key. -/
structure Alternative (α : Type) where
  name : String
  /-- What the name alone stands for, if it may stand alone. -/
  alone : Option α
  /-- The reader of the value under the name. -/
  under : Reader α

/-- Reads a choice. The first key is looked at before it is asked whether there is a colon behind
it, and behind its value there has to be the closing brace. -/
def readChoice {α : Type} (alternatives : List (Alternative α)) : Reader α := fun input =>
  match dropBlanks input with
  | [] => .error (.unreadable ⟨.endInValue, [], 0⟩)
  | '"' :: rest =>
    match orUnreadable (readText rest) with
    | .error refusal => .error refusal
    | .ok (name, _) =>
      match alternatives.find? (·.name = name) with
      | none => .error (.misfit (.unknownVariant name))
      | some alternative =>
        match alternative.alone with
        | some a => .ok a
        | none => .error (.misfit .wrongType)
  | '{' :: rest =>
    match readString rest with
    | .error refusal => .error refusal
    | .ok name =>
      match alternatives.find? (·.name = name) with
      | none => .error (.misfit (.unknownVariant name))
      | some alternative =>
        let run := members rest
        match run.parts with
        -- A key that can be read makes a part, so there is none only if the run has a fault.
        | [] => orUnreadable (run.ending.map fun _ => ()) >>= fun _ => .error (.misfit .wrongType)
        | member :: others =>
          match orUnreadable member.value with
          | .error refusal => .error refusal
          | .ok start =>
            match alternative.under start with
            | .error refusal => .error refusal
            | .ok a =>
              match others, run.ending with
              | [], .ok _ => .ok a
              -- Whatever stands in the place of the closing brace, it is the brace that is missed.
              | [], .error fault =>
                if fault.reason = .endInObject then .error (.unreadable fault)
                else .error (.unreadable { fault with reason := .expectedValue })
              | other :: _, _ => .error (.unreadable ⟨.expectedValue, other.afterKey, 0⟩)
  | rest => .error (.unreadable ⟨.expectedValue, rest, 1⟩)

/-- Reads a text that is one value of a shape. -/
def decode {α : Type} (reader : Reader α) (input : List Char) : Except Refusal α :=
  match reader input with
  | .error refusal => .error refusal
  | .ok a => (orUnreadable (expectEnd input)).map fun _ => a

end Lineage.Json
