import Lineage.Telemetry.Payload
import Lineage.Text.Split
import Lineage.Text.Utf8

/-!
# Telemetry messages

A message is one line of fields with bars between them:

* `AGENT|name|agent id|timestamp|agent type`
* `ACTIVITY|name|agent id|timestamp|activity type`
* `ENTITY|name|agent id|timestamp|entity type|operation|payload`

Blanks around the line do not count. The payload is the last of seven fields and may hold bars
itself; an agent or an activity line may go on with further fields, which are ignored.

A line is refused with the first thing that is wrong with it, in this order: no text, no such event,
too few fields, no name, no agent id, no such operation, no such payload (`Message.decode`).
-/

namespace Lineage.Telemetry

/-! ### Events and operations -/

/-- What a message announces. -/
inductive EventKind
  | activity
  | agent
  /-- A piece of state or a packet. -/
  | entity
deriving DecidableEq, Repr

/-- What an entity message says was done. -/
inductive Operation
  | read
  | write
  | add
deriving DecidableEq, Repr

/-- Why a line is malformed. -/
inductive Malformation
  | noText
  /-- The line has too few fields for its event. -/
  | tooFewFields (event : EventKind) (found : Nat)
  | noName
  | noAgentId
  /-- The bytes of the line are not UTF-8. -/
  | notUtf8 (fault : Text.Utf8.Fault)
deriving DecidableEq, Repr

/-- What can be wrong with a message. -/
inductive MessageError
  /-- The line does not have the fields of a message. -/
  | malformed (reason : Malformation)
  /-- The payload does not fit the type of the entity. -/
  | invalidPayload (entityType : String) (fault : PayloadFault)
  | unknownEvent (tag : String)
  | unrecognizedOperation (tag : String)
  /-- No activity is known for the agent id of an entity. The message is kept all the same. -/
  | missingCorrelation (agentId : String)
deriving DecidableEq, Repr

namespace EventKind

/-- The first field of a message of the kind. -/
def tag : EventKind → String
  | activity => "ACTIVITY"
  | agent => "AGENT"
  | entity => "ENTITY"

/-- The kind that a first field announces. -/
def ofTag (tag : String) : Except MessageError EventKind :=
  if tag = "ACTIVITY" then .ok activity
  else if tag = "AGENT" then .ok agent
  else if tag = "ENTITY" then .ok entity
  else .error (.unknownEvent tag)

/-- The number of fields that a message of the kind needs. -/
def requiredFields : EventKind → Nat
  | activity | agent => 5
  | entity => 7

end EventKind

namespace Operation

/-- The field that names the operation. -/
def tag : Operation → String
  | read => "READ"
  | write => "WRITE"
  | add => "ADD"

/-- The operation that a field names. -/
def ofTag (tag : String) : Except MessageError Operation :=
  if tag = "READ" then .ok read
  else if tag = "WRITE" then .ok write
  else if tag = "ADD" then .ok add
  else .error (.unrecognizedOperation tag)

end Operation

def Malformation.message : Malformation → String
  | noText => "empty message"
  | tooFewFields event found =>
    s!"{event.tag} message needs {event.requiredFields} fields, found {found}"
  | noName => "empty name field"
  | noAgentId => "empty agent_id field"
  | notUtf8 fault => s!"message is not valid UTF-8: {fault.message}"

namespace MessageError

/-- The label under which an error is counted. -/
def kind : MessageError → String
  | malformed _ => "malformed_message"
  | invalidPayload _ _ => "invalid_payload"
  | unknownEvent _ => "unknown_event_type"
  | unrecognizedOperation _ => "unrecognized_operation"
  | missingCorrelation _ => "missing_correlation"

def message : MessageError → String
  | malformed reason => s!"malformed message: {reason.message}"
  | invalidPayload entityType fault => s!"invalid {entityType} payload: {fault.message}"
  | unknownEvent tag => s!"unknown event type '{tag}'"
  | unrecognizedOperation tag => s!"unrecognized operation '{tag}'"
  | missingCorrelation agentId => s!"no activity registered for agent {agentId}"

end MessageError

/-! ### Messages -/

/-- The fields that every message has. -/
structure Header where
  name : String
  /-- The id of the device that announces it. -/
  agentId : String
  /-- When it was announced; kept as it is written. -/
  timestamp : String
deriving DecidableEq, Repr

/-- A message. -/
inductive Message
  /-- A device or a controller announces itself. -/
  | agent (header : Header) (agentType : String)
  | activity (header : Header) (activityType : String)
  | entity (header : Header) (entityType : String) (operation : Operation) (payload : Payload)
deriving DecidableEq, Repr

namespace Message

/-- The fields that every message has. -/
def header : Message → Header
  | agent header _ => header
  | activity header _ => header
  | entity header _ _ _ => header

def event : Message → EventKind
  | agent _ _ => .agent
  | activity _ _ => .activity
  | entity _ _ _ _ => .entity

/-- The most fields that a line is cut into. -/
def fieldLimit : Nat := 7

/-- The header of a message, unless its name or its agent id is empty. -/
def headerOf (name agentId timestamp : String) : Except MessageError Header :=
  if name = "" then .error (.malformed .noName)
  else if agentId = "" then .error (.malformed .noAgentId)
  else .ok ⟨name, agentId, timestamp⟩

/-- Reads the last two fields of an entity message. -/
def decodeEntity (header : Header) (entityType operation raw : String) :
    Except MessageError Message :=
  match Operation.ofTag operation with
  | .error error => .error error
  | .ok operation =>
    -- The type decides what is read from the payload; there is none that is not known.
    match Payload.read (EntityKind.ofTag entityType).form raw with
    | .error fault => .error (.invalidPayload entityType fault)
    | .ok payload => .ok (entity header entityType operation payload)

/-- Reads the fields of a message behind the first, which announced its event. -/
def decodeFields (event : EventKind) (fields : List String) : Except MessageError Message :=
  match fields with
  | name :: agentId :: timestamp :: type :: more =>
    -- The header is looked at only when there are enough fields.
    match event, more with
    | .entity, operation :: raw :: _ =>
      match headerOf name agentId timestamp with
      | .error error => .error error
      | .ok header => decodeEntity header type operation raw
    | .entity, _ => .error (.malformed (.tooFewFields event (fields.length + 1)))
    | .agent, _ => (headerOf name agentId timestamp).map fun header => agent header type
    | .activity, _ => (headerOf name agentId timestamp).map fun header => activity header type
  | _ => .error (.malformed (.tooFewFields event (fields.length + 1)))

def decode (raw : String) : Except MessageError Message :=
  let line := Text.trim raw.toList
  if line.isEmpty then .error (.malformed .noText)
  else
    match (Text.splitAtMost '|' fieldLimit line).map String.ofList with
    -- A text that is cut has a first part, so this does not occur.
    | [] => .error (.malformed .noText)
    | tag :: fields =>
      match EventKind.ofTag tag with
      | .error error => .error error
      | .ok event => decodeFields event fields

/-- Reads a line from its bytes. -/
def decodeBytes (raw : List UInt8) : Except MessageError Message :=
  match Text.Utf8.decode raw with
  | .error fault => .error (.malformed (.notUtf8 fault))
  | .ok text => decode text

end Message

end Lineage.Telemetry
