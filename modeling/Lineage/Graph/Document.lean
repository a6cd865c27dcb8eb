import Lineage.Graph.Edge
import Lineage.Keyed

/-!
# Documents

A document holds a graph. Vertices are told apart by kind and id, edges by relation and id: putting
in an element that is there already replaces it, and elements of different kinds may share an id.
Elements stand in the order in which they first came.
-/

namespace Lineage.Graph

/-- What an edge is told apart by. -/
def Edge.key (edge : Edge) : Relation × String :=
  (edge.relation, edge.id)

/-- A graph. -/
structure Document where
  vertices : List Vertex
  edges : List Edge
  /-- No kind has two vertices with one id. -/
  nodup_vertices : (vertices.map Vertex.endpoint).Nodup
  /-- No relation has two edges with one id. -/
  nodup_edges : (edges.map Edge.key).Nodup

namespace Document

def empty : Document := ⟨[], [], .nil, .nil⟩

instance : Inhabited Document := ⟨empty⟩

/-- The vertex of a kind with an id. -/
def vertex? (document : Document) (endpoint : Endpoint) : Option Vertex :=
  document.vertices.find? (·.endpoint = endpoint)

/-- The edge of a relation with an id. -/
def edge? (document : Document) (relation : Relation) (id : String) : Option Edge :=
  document.edges.find? (·.key = (relation, id))

/-- Whether there is a vertex with the id, of whatever kind. -/
def containsVertex (document : Document) (id : String) : Bool :=
  document.vertices.any (·.id = id)

/-- Whether there is an edge with the id, of whatever relation. -/
def containsEdge (document : Document) (id : String) : Bool :=
  document.edges.any (·.id = id)

/-- Puts in a vertex, in place of the one of its kind with its id if there is one. -/
def putVertex (document : Document) (vertex : Vertex) : Document :=
  { document with
    vertices := putByKey Vertex.endpoint vertex document.vertices
    nodup_vertices := nodup_map_putByKey _ vertex document.nodup_vertices }

/-- Puts in an edge, in place of the one of its relation with its id if there is one. -/
def putEdge (document : Document) (edge : Edge) : Document :=
  { document with
    edges := putByKey Edge.key edge document.edges
    nodup_edges := nodup_map_putByKey _ edge document.nodup_edges }

def vertexCount (document : Document) : Nat :=
  document.vertices.length

def edgeCount (document : Document) : Nat :=
  document.edges.length

def verticesOf (document : Document) (kind : VertexKind) : List Vertex :=
  document.vertices.filter (·.kind = kind)

def edgesOf (document : Document) (relation : Relation) : List Edge :=
  document.edges.filter (·.relation = relation)

end Document

/-- The number of elements of each kind and relation. -/
structure Tally where
  agents : Nat
  activities : Nat
  entities : Nat
  used : Nat
  wasGeneratedBy : Nat
  wasAssociatedWith : Nat
  wasDerivedFrom : Nat
deriving DecidableEq, Repr

/-- Counts the elements of a document. -/
def Document.tally (document : Document) : Tally where
  agents := (document.verticesOf .agent).length
  activities := (document.verticesOf .activity).length
  entities := (document.verticesOf .entity).length
  used := (document.edgesOf .used).length
  wasGeneratedBy := (document.edgesOf .wasGeneratedBy).length
  wasAssociatedWith := (document.edgesOf .wasAssociatedWith).length
  wasDerivedFrom := (document.edgesOf .wasDerivedFrom).length

end Lineage.Graph
