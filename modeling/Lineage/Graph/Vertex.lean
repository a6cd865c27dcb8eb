import Lineage.Catalog

/-!
# Vertices

The vertices of a provenance graph are agents, activities and entities. Each has an id and
annotations; a `Node` is just these two, for places where the kind is known from the context, and a
`Vertex` is a node with its kind. An `Endpoint` is how an edge refers to a vertex.
-/

namespace Lineage.Graph

/-- The kinds of vertices. -/
inductive VertexKind
  | agent
  /-- Something that goes on and uses or generates entities. -/
  | activity
  /-- A thing in one of its states. -/
  | entity
deriving DecidableEq, Repr

namespace VertexKind

def label : VertexKind → String
  | agent => "Agent"
  | activity => "Activity"
  | entity => "Entity"

/-- All kinds, in the order in which a listing groups them. -/
def all : List VertexKind := [agent, activity, entity]

def ofLabel? (label : String) : Option VertexKind :=
  all.find? (·.label = label)

/-- Different kinds have different names. -/
theorem label_injective {a b : VertexKind} (h : a.label = b.label) : a = b := by
  cases a <;> cases b <;> first | rfl | exact absurd h (by decide)

/-- So a kind can be told from its name. -/
theorem label_inj {a b : VertexKind} : a.label = b.label ↔ a = b :=
  ⟨label_injective, congrArg label⟩

end VertexKind

/-- A vertex without its kind. -/
structure Node where
  /-- The id, by which edges refer to the vertex. -/
  id : String
  annotations : Annotations
deriving DecidableEq

namespace Node

/-- The node with an id and no annotations. -/
def bare (id : String) : Node := ⟨id, .empty⟩

/-- What is noted under a key. -/
def get? (node : Node) (key : String) : Option String :=
  node.annotations.get? key

/-- Notes a text under a key. -/
def note (node : Node) (key text : String) : Node :=
  { node with annotations := node.annotations.insert key text }

/-- Notes several texts, one after the other. -/
def noteAll (node : Node) (pairs : List (String × String)) : Node :=
  { node with annotations := node.annotations.insertAll pairs }

end Node

/-- A vertex. -/
structure Vertex extends Node where
  kind : VertexKind
deriving DecidableEq

/-- A reference to a vertex. -/
structure Endpoint where
  kind : VertexKind
  id : String
deriving DecidableEq, Repr

/-- How edges refer to a vertex. -/
def Vertex.endpoint (vertex : Vertex) : Endpoint :=
  ⟨vertex.kind, vertex.id⟩

/-- The vertex of a kind that a node stands for. -/
def Node.toVertex (node : Node) (kind : VertexKind) : Vertex :=
  ⟨node, kind⟩

end Lineage.Graph
