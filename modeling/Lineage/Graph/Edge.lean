import Lineage.Graph.Vertex

/-!
# Edges

The four relations of a provenance graph, each from a source to a destination of fixed kinds. An
edge holds the ids of its two ends; their kinds follow from its relation.
-/

namespace Lineage.Graph

/-- The relations between vertices. -/
inductive Relation
  | used
  /-- An entity was generated by an activity. -/
  | wasGeneratedBy
  /-- An activity was associated with an agent. -/
  | wasAssociatedWith
  /-- An entity was derived from an earlier one. -/
  | wasDerivedFrom
deriving DecidableEq, Repr

namespace Relation

def label : Relation → String
  | used => "Used"
  | wasGeneratedBy => "WasGeneratedBy"
  | wasAssociatedWith => "WasAssociatedWith"
  | wasDerivedFrom => "WasDerivedFrom"

/-- All relations, in the order in which a listing groups them. -/
def all : List Relation := [used, wasGeneratedBy, wasAssociatedWith, wasDerivedFrom]

def ofLabel? (label : String) : Option Relation :=
  all.find? (·.label = label)

/-- Different relations have different names. -/
theorem label_injective {a b : Relation} (h : a.label = b.label) : a = b := by
  -- Four names, compared with one another.
  cases a <;> cases b <;> first | rfl | exact absurd h (by decide)

/-- So a relation can be told from its name. -/
theorem label_inj {a b : Relation} : a.label = b.label ↔ a = b :=
  ⟨label_injective, congrArg label⟩

/-- The kind of the vertices that edges of the relation start from. -/
def sourceKind : Relation → VertexKind
  | used | wasAssociatedWith => .activity
  | wasGeneratedBy | wasDerivedFrom => .entity

/-- The kind of the vertices that edges of the relation lead to. -/
def destinationKind : Relation → VertexKind
  | used | wasDerivedFrom => .entity
  | wasGeneratedBy => .activity
  | wasAssociatedWith => .agent

/-- The name of the source in the written form of an edge. -/
def sourceField : Relation → String
  | used | wasAssociatedWith => "activity"
  | wasGeneratedBy => "entity"
  | wasDerivedFrom => "generated_entity"

/-- The name of the destination in the written form of an edge. -/
def destinationField : Relation → String
  | used => "entity"
  | wasGeneratedBy => "activity"
  | wasAssociatedWith => "agent"
  | wasDerivedFrom => "used_entity"

end Relation

/-- An edge. -/
structure Edge where
  relation : Relation
  id : String
  /-- The id of the vertex that it starts from. -/
  source : String
  /-- The id of the vertex that it leads to. -/
  destination : String
  annotations : Annotations
deriving DecidableEq

namespace Edge

/-- The vertex that an edge starts from. -/
def sourceEnd (edge : Edge) : Endpoint :=
  ⟨edge.relation.sourceKind, edge.source⟩

/-- The vertex that an edge leads to. -/
def destinationEnd (edge : Edge) : Endpoint :=
  ⟨edge.relation.destinationKind, edge.destination⟩

/-- An edge between two nodes, without annotations. -/
def between (relation : Relation) (id : String) (source destination : Node) : Edge :=
  ⟨relation, id, source.id, destination.id, .empty⟩

/-- What is noted under a key. -/
def get? (edge : Edge) (key : String) : Option String :=
  edge.annotations.get? key

/-- Notes a text under a key. -/
def note (edge : Edge) (key text : String) : Edge :=
  { edge with annotations := edge.annotations.insert key text }

end Edge

/-- What a graph consists of. -/
inductive Element
  | vertex (vertex : Vertex)
  | edge (edge : Edge)
deriving DecidableEq

namespace Element

/-- The name of the kind or of the relation. -/
def label : Element → String
  | vertex v => v.kind.label
  | edge e => e.relation.label

def id : Element → String
  | vertex v => v.id
  | edge e => e.id

end Element

end Lineage.Graph
