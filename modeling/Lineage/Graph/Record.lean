import Lineage.Graph.Document

/-!
# Records and the canonical listing

A record is the flat form of a vertex or an edge: its kind by name, its id as a hash, and for
edges the hashes of both ends. A document is listed as the records of its vertices and then those
of its edges, each part by increasing hash. Elements of different kinds may share a hash; these
follow one another in the order of `VertexKind.all` and `Relation.all`, since the sort keeps the
order of equals.
-/

namespace Lineage.Graph

/-- The flat form of an element. -/
structure Record where
  /-- The name of the kind or the relation. -/
  kind : String
  hash : String
  /-- The id of the source of an edge. -/
  source : Option String
  /-- The id of the destination of an edge. -/
  destination : Option String
  annotations : Annotations
deriving DecidableEq

def Vertex.record (vertex : Vertex) : Record :=
  ⟨vertex.kind.label, vertex.id, none, none, vertex.annotations⟩

def Edge.record (edge : Edge) : Record :=
  ⟨edge.relation.label, edge.id, some edge.source, some edge.destination, edge.annotations⟩

def Element.record : Element → Record
  | vertex v => v.record
  | edge e => e.record

def Record.sortedByHash (records : List Record) : List Record :=
  records.mergeSort fun a b => decide (a.hash ≤ b.hash)

namespace Document

/-- The vertices of a document, kind after kind. -/
def vertexRecords (document : Document) : List Record :=
  VertexKind.all.flatMap fun kind => (document.verticesOf kind).map Vertex.record

/-- The edges of a document, relation after relation. -/
def edgeRecords (document : Document) : List Record :=
  Relation.all.flatMap fun relation => (document.edgesOf relation).map Edge.record

/-- The canonical listing of a document. -/
def records (document : Document) : List Record :=
  Record.sortedByHash document.vertexRecords ++ Record.sortedByHash document.edgeRecords

end Document

end Lineage.Graph
