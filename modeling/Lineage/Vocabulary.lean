/-!
# Vocabulary

The keys under which vertices and edges are annotated, and the device types and roles that have a
meaning of their own. The keys of the payload attributes come with the forms of the payloads.
-/

namespace Lineage

/-! ### Keys of annotations -/

namespace Key

def name : String := "name"
def agentId : String := "agent_id"
def timestamp : String := "timestamp"
def agentType : String := "agent_type"
def activityType : String := "activity_type"
def entityType : String := "entity_type"
def operation : String := "operation"
def index : String := "index"
def value : String := "value"
def previousValue : String := "previous_value"
def role : String := "prov:role"
def time : String := "prov:time"

end Key

/-! ### Types of agents and activities -/

def controller : String := "Controller"
def switch : String := "Switch"
def eventProcessor : String := "EventProcessor"
def packetProcessor : String := "PacketProcessor"
def executingAgent : String := "executing_agent"

end Lineage
