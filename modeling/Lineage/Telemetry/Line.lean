import Lineage.Json.Canonical
import Lineage.Json.Printer
import Lineage.Telemetry.Message

/-!
# Telemetry lines

The lines that devices write, put together from their fields. The payload of an entity is written in
its canonical form, without blanks.
-/

namespace Lineage.Telemetry.Line

open Lineage.Json

def ofFields (fields : List String) : String :=
  "|".intercalate fields

def agent (header : Header) (agentType : String) : String :=
  ofFields [EventKind.agent.tag, header.name, header.agentId, header.timestamp, agentType]

def activity (header : Header) (activityType : String) : String :=
  ofFields [EventKind.activity.tag, header.name, header.agentId, header.timestamp, activityType]

def entity (header : Header) (entityType operation : String) (payload : Value) : String :=
  ofFields [EventKind.entity.tag, header.name, header.agentId, header.timestamp, entityType,
    operation, payload.canonical.compact]

/-- The line of a register cell. -/
def register (header : Header) (operation : Operation) (index value : String) : String :=
  entity header "register" operation.tag (.object [("index", .text index), ("value", .text value)])

/-- The lines with which a switch announces itself and its activity. -/
def switchSession (agentId : String) : List String :=
  [agent ⟨"S1", agentId, "t0"⟩ "Switch", activity ⟨"A1", agentId, "t1"⟩ "PacketProcessor"]

end Lineage.Telemetry.Line
