import Lineage.Catalog
import Lineage.Json.Embedded
import Lineage.Text.Blank

/-!
# Payloads of entity messages

The last field of an entity message is a JSON object. What is read from it depends on the kind
of the entity: each form of payload has a fixed list of attributes, some of them required and
the others with a text that stands in when they are absent or `null`. Members with other keys
are passed over.

An attribute may arrive as a string, a number or a boolean and is kept as text. A number keeps its
spelling, so `5.0` stays `5.0` and an integer of any length loses no digit.

The object is looked at twice. First the whole text has to be JSON, unknown members included
(`PayloadFault.notJson`), and an object, once the texts that are embedded in it have been read; then
its members are gone through in their order, each as it stands.
-/

namespace Lineage.Telemetry

open Lineage.Json

/-! ### Kinds of entities -/

/-- What an entity message is about. -/
inductive EntityKind
  | register
  /-- A packet that a device hands to its controller. -/
  | packetIn
  /-- A packet that a controller hands to a device. -/
  | packetOut
  | tableRule
  | matRule
deriving DecidableEq, Repr

namespace EntityKind

/-- The kind that a type tag announces. A tag that announces nothing else announces a
register cell. -/
def ofTag (tag : String) : EntityKind :=
  if tag = "packet_in" then packetIn
  else if tag = "packet_out" then packetOut
  else if tag = "table_rule" then tableRule
  else if tag = "MATRule" then matRule
  else register

/-- Whether entities of the kind have a value that changes over time. -/
def isStateful : EntityKind → Bool
  | register => true
  | _ => false

end EntityKind

/-! ### Forms of payloads -/

/-- The shape of a payload. -/
inductive PayloadForm
  | register
  /-- The headers of a packet on its way in. -/
  | packetIn
  /-- The headers of a packet on its way out. -/
  | packetOut
  /-- A rule of either kind of table. -/
  | tableRule
deriving DecidableEq, Repr

/-- An attribute of a payload. -/
structure Attribute where
  key : String
  /-- The text that stands in for it; an attribute without one is required. -/
  standIn : Option String
deriving DecidableEq, Repr

namespace PayloadForm

/-- The attributes of a form, in the order in which they are reported. -/
def attributes : PayloadForm → List Attribute
  | register => [⟨"index", none⟩, ⟨"value", none⟩]
  | packetIn =>
    [⟨"src_mac", some "0"⟩, ⟨"ingress_port", some "-1"⟩, ⟨"ether_type", some "-1"⟩,
      ⟨"lldp_id", some "0"⟩]
  | packetOut =>
    [⟨"dst_mac", some "0"⟩, ⟨"egress_port", some "-1"⟩, ⟨"ether_type", some "-1"⟩,
      ⟨"lldp_id", some "0"⟩]
  | tableRule =>
    [⟨"table_name", none⟩, ⟨"match_key", some ""⟩, ⟨"action", some "NoAction"⟩,
      ⟨"priority", some "-1"⟩]

def lookup? (form : PayloadForm) (key : String) : Option Attribute :=
  form.attributes.find? (·.key = key)

end PayloadForm

/-- The form of the payload that goes with a kind. -/
def EntityKind.form : EntityKind → PayloadForm
  | register => .register
  | packetIn => .packetIn
  | packetOut => .packetOut
  | tableRule => .tableRule
  | matRule => .tableRule

/-- What an entity message carries. -/
structure Payload where
  form : PayloadForm
  /-- The attributes of the form with their texts. -/
  attributes : List (String × String)
deriving DecidableEq, Repr

/-! ### What can be wrong -/

/-- Why a payload is refused. -/
inductive PayloadFault
  | notJson (reason : Reason) (place : Position)
  /-- The text is JSON, but no object. -/
  | notObject (text : String)
  | duplicate (key : String) (place : Position)
  /-- An attribute is an array or an object. -/
  | nested (text : String) (place : Position)
  | null (place : Position)
  | missing (key : String) (place : Position)
deriving DecidableEq, Repr

def PayloadFault.message : PayloadFault → String
  | notJson reason place => reason.message ++ place.suffix
  | notObject text => s!"expected a JSON object, got '{text}'"
  | duplicate key place => s!"duplicate field `{key}`" ++ place.suffix
  | nested text place => s!"expected a string, number or boolean, got '{text}'" ++ place.suffix
  | null place => "expected a string, number or boolean, got null" ++ place.suffix
  | missing key place => s!"missing field `{key}`" ++ place.suffix

/-- The fault of a text that is not JSON. -/
def PayloadFault.ofFault (text : List Char) (fault : Fault) : PayloadFault :=
  .notJson fault.reason (fault.position text)

/-! ### Reading -/

/-- What a member says about an attribute. -/
inductive Scalar
  /-- The text of a string, of a number or of a boolean. -/
  | text (content : String)
  | null
  | nested
deriving DecidableEq, Repr

/-- What a value says about an attribute. -/
def Scalar.ofValue : Value → Scalar
  | .null => .null
  | .bool true => .text "true"
  | .bool false => .text "false"
  | .number number => .text (String.ofList number.spelling)
  | .text content => .text content
  | .array _ => .nested
  | .object _ => .nested

/-- The place of a fault in the members of an object: blanks are passed over, and so is the brace
that closes the object. -/
def placeBehind (text rest : List Char) : Position :=
  let unread :=
    match dropBlanks rest with
    | '}' :: rest => rest
    | rest => rest
  Position.after text (byteCount text - byteCount unread)

namespace Payload

/-- The attributes met so far; one that is `null` is filed without a text. -/
abbrev Met := Catalog (Option String)

/-- Takes the value of an attribute that starts at `start`. -/
def takeValue (text : List Char) (met : Met) (wanted : Attribute) (start : List Char) :
    Except PayloadFault Met :=
  -- Where the value ends is asked first, since the places of faults are told from there.
  match skipValue [] start, readValue depthLimit start with
  | .error fault, _ => .error (.ofFault text fault)
  | _, .error fault => .error (.ofFault text fault)
  | .ok rest, .ok value =>
    match Scalar.ofValue value with
    | .text content => .ok (met.insert wanted.key (some content))
    | .null =>
      -- An optional attribute that is `null` counts as met: it may not occur again.
      if wanted.standIn.isSome then .ok (met.insert wanted.key none)
      else .error (.null (placeBehind text rest))
    | .nested =>
      .error (.nested (String.ofList (start.take (start.length - rest.length)))
        (placeBehind text rest))

/-- Takes one member of the object. -/
def takeMember (form : PayloadForm) (text : List Char) (met : Met) (member : Member) :
    Except PayloadFault Met :=
  match form.lookup? member.key with
  -- The value of an unknown member was looked at in the first pass and is not looked at again.
  | none => .ok met
  | some wanted =>
    if met.contains wanted.key then .error
      (.duplicate wanted.key (placeBehind text member.afterKey))
    else
      match member.value with
      | .error fault => .error (.ofFault text fault)
      | .ok start => takeValue text met wanted start

/-- Takes the members one after the other. -/
def takeMembers (form : PayloadForm) (text : List Char) (met : Met) :
    List Member → Except PayloadFault Met
  | [] => .ok met
  | member :: members =>
    match takeMember form text met member with
    | .error fault => .error fault
    | .ok met => takeMembers form text met members

/-- The text of an attribute, if it was met or has a stand-in. -/
def textOf? (met : Met) (wanted : Attribute) : Option String :=
  match met.get? wanted.key with
  | some (some content) => some content
  -- Absent and null come to the same.
  | _ => wanted.standIn

/-- The first required attribute that was not met. -/
def missing? (form : PayloadForm) (met : Met) : Option Attribute :=
  form.attributes.find? fun wanted => (textOf? met wanted).isNone

/-- Reads the inside of an object, the text behind its brace. -/
def ofInside (form : PayloadForm) (text inside : List Char) : Except PayloadFault Payload :=
  let run := members inside
  match takeMembers form text .empty run.parts with
  | .error fault => .error fault
  | .ok met =>
    match run.ending with
    | .error fault => .error (.ofFault text fault)
    | .ok rest =>
      -- Nothing is missing before the object has come to its end.
      match missing? form met with
      | some wanted =>
        .error (.missing wanted.key (Position.after text (byteCount text - byteCount rest)))
      | none =>
        .ok ⟨form, form.attributes.map fun wanted => (wanted.key, (textOf? met wanted).getD "")⟩

/-- Reads a payload of a form. -/
def read (form : PayloadForm) (raw : String) : Except PayloadFault Payload :=
  let text := raw.toList
  match parse text with
  | .error fault => .error (.ofFault text fault)
  | .ok (.object _) =>
    match dropBlanks text with
    | '{' :: inside => ofInside form text inside
    -- Only an object or a text embedded in one is read as an object, so there is a brace.
    | _ => .error (.notObject (Text.trimmed raw))
  | .ok _ => .error (.notObject (Text.trimmed raw))

end Payload

end Lineage.Telemetry
