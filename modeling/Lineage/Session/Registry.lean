import Lineage.Graph.Vertex
import Lineage.Vocabulary

/-!
# Who is known

For every device the registry knows the agent and the activity that were announced last. It also
remembers which activities have been associated with an agent, so that none is associated twice.

An activity belongs to an agent (`belongsTo`) if both come from the same device and their types make
one of the two pairs of `areRecognized`.
-/

namespace Lineage.Session

open Lineage.Graph

/-- Whether an activity of one type is carried out by agents of the other. -/
def areRecognized (activityType agentType : String) : Bool :=
  [(eventProcessor, controller), (packetProcessor, switch)].contains (activityType, agentType)

/-- Whether an activity is one that an agent carries out. -/
def belongsTo (activity agent : Node) : Bool :=
  match activity.get? Key.activityType, agent.get? Key.agentType with
  | some activityType, some agentType =>
    -- The types make a pair, and both come from one device.
    areRecognized activityType agentType && activity.get? Key.agentId = agent.get? Key.agentId
  -- What lacks a type is no party to an association.
  | _, _ => false

/-- The agents and activities that are known. -/
structure Registry where
  agents : Catalog Node
  activities : Catalog Node
  /-- The ids of the activities that have been associated. -/
  associated : List String
deriving DecidableEq

namespace Registry

def empty : Registry := ⟨.empty, .empty, []⟩

instance : Inhabited Registry := ⟨empty⟩

/-- The latest agent of a device. -/
def agentOf? (registry : Registry) (agentId : String) : Option Node :=
  registry.agents.get? agentId

/-- The latest activity of a device. -/
def activityOf? (registry : Registry) (agentId : String) : Option Node :=
  registry.activities.get? agentId

/-- Whether an activity has been associated. -/
def isAssociated (registry : Registry) (activityId : String) : Bool :=
  registry.associated.contains activityId

/-- Whether neither an agent nor an activity is known. -/
def isEmpty (registry : Registry) : Bool :=
  registry.agents.size = 0 && registry.activities.size = 0

/-- Takes a new agent as the latest one of a device. -/
def registerAgent (registry : Registry) (agentId : String) (agent : Node) : Registry :=
  { registry with agents := registry.agents.insert agentId agent }

/-- Takes a new activity as the latest one of a device. -/
def registerActivity (registry : Registry) (agentId : String) (activity : Node) : Registry :=
  { registry with activities := registry.activities.insert agentId activity }

/-- Remembers that an activity has been associated. -/
def markAssociated (registry : Registry) (activityId : String) : Registry :=
  { registry with associated := registry.associated.insert activityId }

/-! ### Laws of look-up -/

section Laws

variable (registry : Registry) (agentId agentId' id : String) (node : Node)

/-- A device has the agent that it registered last. -/
@[simp] theorem agentOf?_registerAgent : (registry.registerAgent agentId node).agentOf? agentId' =
    if agentId' = agentId then some node else registry.agentOf? agentId' :=
  Catalog.get?_insert _ _ _ _

/-- Registering an agent leaves the activities as they are. -/
@[simp] theorem activityOf?_registerAgent :
    (registry.registerAgent agentId node).activityOf? agentId' =
      registry.activityOf? agentId' := rfl

/-- It associates nothing. -/
@[simp] theorem isAssociated_registerAgent :
    (registry.registerAgent agentId node).isAssociated id = registry.isAssociated id := rfl

/-- Registering an activity leaves the agents as they are. -/
@[simp] theorem agentOf?_registerActivity :
    (registry.registerActivity agentId node).agentOf? agentId' = registry.agentOf? agentId' := rfl

/-- A device has the activity that it registered last. -/
@[simp] theorem activityOf?_registerActivity :
    (registry.registerActivity agentId node).activityOf? agentId' =
      if agentId' = agentId then some node else registry.activityOf? agentId' :=
  Catalog.get?_insert _ _ _ _

/-- A new activity does not count as associated by that. -/
@[simp] theorem isAssociated_registerActivity :
    (registry.registerActivity agentId node).isAssociated id = registry.isAssociated id := rfl

/-- Marking an activity leaves the agents as they are. -/
@[simp] theorem agentOf?_markAssociated :
    (registry.markAssociated id).agentOf? agentId = registry.agentOf? agentId := rfl

/-- It leaves the activities as they are, too. -/
@[simp] theorem activityOf?_markAssociated :
    (registry.markAssociated id).activityOf? agentId = registry.activityOf? agentId := rfl

end Laws

/-- An activity counts as associated from its marking on, and no other is touched. -/
theorem isAssociated_markAssociated (registry : Registry) (id id' : String) :
    (registry.markAssociated id).isAssociated id' = true ↔
      id' = id ∨ registry.isAssociated id' = true := by
  simp [isAssociated, markAssociated]

end Registry

end Lineage.Session
