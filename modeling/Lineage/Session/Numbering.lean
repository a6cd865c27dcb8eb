import Lineage.Graph.Edge
import Lineage.Telemetry.Message
import Lineage.Vocabulary

/-!
# What a session adds to a graph

The vertex that a message stands for, the edges that follow from it, and the ids they are given. A
session numbers its vertices from zero and its edges from one, each in the order in which they come.
The number ends the id of a vertex, behind a colon, and the id of an edge, behind a few letters for
its relation. So ids tell the elements of a session apart whatever names the devices announce,
colons and digits included.
-/

namespace Lineage

open Lineage.Graph Telemetry

/-! ### Vertices -/

namespace Telemetry

/-- The kind of the vertex that an event adds. -/
def EventKind.vertexKind : EventKind → VertexKind
  | activity => .activity
  | agent => .agent
  | entity => .entity

/-- The part of the id of a vertex that does not depend on its number. -/
def Message.stem : Message → String
  | agent header _ => "agent:" ++ header.agentId
  | activity header _ => "activity:" ++ header.agentId
  | entity header _ _ _ => "entity:" ++ header.name ++ ":" ++ header.agentId

/-- The id of the vertex of a message, if it is the one with this number. -/
def Message.vertexId (message : Message) (index : Nat) : String :=
  message.stem ++ ":" ++ toString index

/-- What a header says about a vertex. -/
def Header.annotations (header : Header) : List (String × String) :=
  [(Key.name, header.name), (Key.agentId, header.agentId), (Key.timestamp, header.timestamp)]

/-- What the fields behind the header say about a vertex. -/
def Message.ownAnnotations : Message → List (String × String)
  | agent _ agentType => [(Key.agentType, agentType)]
  | activity _ activityType => [(Key.activityType, activityType)]
  | entity _ entityType operation payload =>
    (Key.entityType, entityType) :: (Key.operation, operation.tag) :: payload.attributes

/-- The vertex of a message, if it is the one with this number. -/
def Message.node (message : Message) (index : Nat) : Node :=
  (Node.bare (message.vertexId index)).noteAll
    (message.header.annotations ++ message.ownAnnotations)

/-- The relation between an activity and an entity that it does something to. -/
def Operation.relation : Operation → Relation
  | read => .used
  | write | add => .wasGeneratedBy

end Telemetry

/-! ### Edges -/

namespace Graph

/-- The letters that the ids of the edges of a relation start with. -/
def Relation.letters : Relation → String
  | used => "u"
  | wasGeneratedBy => "g"
  | wasAssociatedWith => "assoc"
  | wasDerivedFrom => "d"

/-- The id of an edge, if it is the one with this number. -/
def Relation.edgeId (relation : Relation) (index : Nat) : String :=
  relation.letters ++ toString index

end Graph

namespace Session

/-- Two states of a cell, one right after the other. -/
structure Change where
  previous : Node
  current : Node
deriving DecidableEq

namespace Change

def previousValue (change : Change) : String :=
  (change.previous.get? Key.value).getD ""

def currentValue (change : Change) : String :=
  (change.current.get? Key.value).getD ""

end Change

/-- An activity is associated with the agent that carries it out. -/
def associationEdge (index : Nat) (activity agent : Node) : Edge :=
  (Edge.between .wasAssociatedWith (Relation.edgeId .wasAssociatedWith index) activity agent).note
    Key.role executingAgent

/-- An entity was used by an activity, or generated by it, at the time of the entity. -/
def causalEdge (index : Nat) (operation : Operation) (entity activity : Node) : Edge :=
  let edge :=
    match operation with
    -- What is read was there before, so the activity depends on it; what is written depends on the
    -- activity.
    | .read => Edge.between .used (Relation.edgeId .used index) activity entity
    | .write | .add =>
      Edge.between .wasGeneratedBy (Relation.edgeId .wasGeneratedBy index) entity activity
  (edge.note Key.operation operation.tag).note Key.time ((entity.get? Key.timestamp).getD "")

/-- A state of a cell is derived from the one before. -/
def derivationEdge (index : Nat) (operation : Operation) (change : Change) : Edge :=
  -- From the new state to the old one.
  (((Edge.between .wasDerivedFrom (Relation.edgeId .wasDerivedFrom index) change.current
    change.previous).note Key.operation operation.tag).note Key.previousValue
      change.previousValue).note Key.value change.currentValue

/-! What the edges join and how they are called: an association goes from the activity to the agent,
a causal edge from what depends to what it depends on, a derivation from a state to the one before
it. The ids are those of the relation and the number. -/

section Edges

variable (index : Nat) (operation : Operation) (change : Change) (entity activity agent : Node)

@[simp] theorem relation_associationEdge :
    (associationEdge index activity agent).relation = .wasAssociatedWith := rfl

@[simp] theorem id_associationEdge :
    (associationEdge index activity agent).id = Relation.edgeId .wasAssociatedWith index := rfl

@[simp] theorem source_associationEdge :
    (associationEdge index activity agent).source = activity.id := rfl

@[simp] theorem destination_associationEdge :
    (associationEdge index activity agent).destination = agent.id := rfl

/-- The operation alone decides between use and generation. -/
@[simp] theorem relation_causalEdge :
    (causalEdge index operation entity activity).relation = operation.relation := by
  cases operation <;> rfl

@[simp] theorem id_causalEdge :
    (causalEdge index operation entity activity).id = operation.relation.edgeId index := by
  cases operation <;> rfl

/-- An activity uses an entity. -/
@[simp] theorem source_causalEdge : (causalEdge index operation entity activity).source =
    if operation = .read then activity.id else entity.id := by
  cases operation <;> rfl

/-- An entity is generated by an activity. -/
@[simp] theorem destination_causalEdge : (causalEdge index operation entity activity).destination =
    if operation = .read then entity.id else activity.id := by
  cases operation <;> rfl

@[simp] theorem relation_derivationEdge :
    (derivationEdge index operation change).relation = .wasDerivedFrom := rfl

@[simp] theorem id_derivationEdge :
    (derivationEdge index operation change).id = Relation.edgeId .wasDerivedFrom index := rfl

@[simp] theorem source_derivationEdge :
    (derivationEdge index operation change).source = change.current.id := rfl

@[simp] theorem destination_derivationEdge :
    (derivationEdge index operation change).destination = change.previous.id := rfl

end Edges

/-! ### Numbers -/

/-- How many elements a session has added. -/
structure Numbering where
  vertices : Nat
  edges : Nat
deriving DecidableEq, Repr

namespace Numbering

/-- The numbering of a session that has added nothing. -/
def start : Numbering := ⟨0, 0⟩

instance : Inhabited Numbering := ⟨start⟩

def addVertex (numbering : Numbering) (message : Message) : Node × Numbering :=
  (message.node numbering.vertices, { numbering with vertices := numbering.vertices + 1 })

def addEdge (numbering : Numbering) (edge : Nat → Edge) : Edge × Numbering :=
  (edge (numbering.edges + 1), { numbering with edges := numbering.edges + 1 })

end Numbering

end Session

end Lineage
