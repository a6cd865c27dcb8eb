import Lineage.Graph.Record
import Lineage.Json.Printer
import Lineage.Json.Shape

/-!
# Written forms of a graph

Vertices, edges, endpoints and records as JSON, written with their members in a fixed order and read
back by the rules of `Lineage.Json.Shape`. Vertices and edges carry their kind in a member `kind`
among the others; an endpoint is an object whose one key is the kind; a record leaves out the ends
that it does not have.
-/

namespace Lineage.Graph

open Lineage.Json

/-! ### Writing -/

/-- A vertex without its kind, as members. -/
def Node.members (node : Node) : List (String × Value) :=
  [("id", .text node.id), ("annotations", .ofTexts node.annotations)]

/-- The written form of a vertex without its kind. -/
def Node.toJson (node : Node) : Value :=
  .object node.members

/-- The written form of a vertex. -/
def Vertex.toJson (vertex : Vertex) : Value :=
  .object (("kind", .text vertex.kind.label) :: vertex.toNode.members)

/-- The written form of an edge. -/
def Edge.toJson (edge : Edge) : Value :=
  .object [("kind", .text edge.relation.label), ("id", .text edge.id),
    (edge.relation.sourceField, .text edge.source),
    (edge.relation.destinationField, .text edge.destination),
    ("annotations", .ofTexts edge.annotations)]

/-- The written form of an endpoint. -/
def Endpoint.toJson (endpoint : Endpoint) : Value :=
  .object [(endpoint.kind.label, .text endpoint.id)]

/-- A member that is left out if there is nothing to say. -/
def optionalMember (key : String) (text : Option String) : List (String × Value) :=
  text.toList.map fun content => (key, .text content)

/-- The written form of a record. -/
def Record.toJson (record : Record) : Value :=
  .object ([("kind", .text record.kind), ("hash", .text record.hash)]
    -- Vertices have no ends, so these two are left out together.
    ++ optionalMember "sourceVertexHash" record.source
    ++ optionalMember "destinationVertexHash" record.destination
    ++ [("annotations", .ofTexts record.annotations)])

/-- The line of a record in a file of records. -/
def Record.line (record : Record) : String :=
  record.toJson.compact ++ "\n"

/-! ### Reading -/

/-- The fields of a vertex besides its kind. -/
def Node.fields : List Field :=
  [.of "id" readString, .of "annotations" readStrings]

/-- A vertex without its kind from its fields. -/
def Node.ofStarts (starts : Starts) : Except Refusal Node :=
  match starts.get "id" readString with
  | .error refusal => .error refusal
  | .ok id => (starts.get "annotations" readStrings).map fun annotations => ⟨id, annotations⟩

/-- Reads a vertex without its kind. -/
def Node.reader : Reader Node := fun input =>
  match readRecord Node.fields input with
  | .error refusal => .error refusal
  | .ok starts => Node.ofStarts starts

def Vertex.reader : Reader Vertex := fun input =>
  match readTagged "kind" (VertexKind.all.map VertexKind.label) input with
  | .error refusal => .error refusal
  | .ok tagged =>
    match VertexKind.ofLabel? tagged.variant with
    | none => .error (.misfit (.unknownVariant tagged.variant))
    | some kind =>
      match tagged.record Node.fields with
      | .error refusal => .error refusal
      | .ok starts => (Node.ofStarts starts).map fun node => node.toVertex kind

/-- The fields of an edge besides its relation. -/
def Relation.fields (relation : Relation) : List Field :=
  [.of "id" readString, .of relation.sourceField readString,
    .of relation.destinationField readString, .of "annotations" readStrings]

def Edge.ofStarts (relation : Relation) (starts : Starts) : Except Refusal Edge := do
  let id ← starts.get "id" readString
  let source ← starts.get relation.sourceField readString
  let destination ← starts.get relation.destinationField readString
  let annotations ← starts.get "annotations" readStrings
  pure ⟨relation, id, source, destination, annotations⟩

def Edge.reader : Reader Edge := fun input =>
  match readTagged "kind" (Relation.all.map Relation.label) input with
  | .error refusal => .error refusal
  | .ok tagged =>
    match Relation.ofLabel? tagged.variant with
    | none => .error (.misfit (.unknownVariant tagged.variant))
    | some relation =>
      match tagged.record relation.fields with
      | .error refusal => .error refusal
      | .ok starts => Edge.ofStarts relation starts

def Endpoint.reader : Reader Endpoint :=
  readChoice (VertexKind.all.map fun kind =>
    ⟨kind.label, none, fun input => (readString input).map fun id => ⟨kind, id⟩⟩)

def Record.fields : List Field :=
  [.of "kind" readString, .of "hash" readString, .of "sourceVertexHash" readStringOrNull,
    .of "destinationVertexHash" readStringOrNull, .of "annotations" readStrings]

def Record.reader : Reader Record := fun input => do
  let starts ← readRecord Record.fields input
  let kind ← starts.get "kind" readString
  let hash ← starts.get "hash" readString
  -- An end that is absent and one that is null are the same.
  let source ← starts.getOr "sourceVertexHash" none readStringOrNull
  let destination ← starts.getOr "destinationVertexHash" none readStringOrNull
  let annotations ← starts.get "annotations" readStrings
  pure ⟨kind, hash, source, destination, annotations⟩

end Lineage.Graph
