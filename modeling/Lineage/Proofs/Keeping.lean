import Lineage.Proofs.Accounting
import Lineage.Proofs.Listing

/-!
# A document keeps the first of each id

A document that elements are submitted to keeps the first vertex with each id and the first edge
with each id, as they came, and refuses all others without being changed by them
(`Graph.Document.keeping_submitAll`). Kinds and relations make no difference to that: an element
is refused for its id also if the one that has the id is of another kind, although a document
could hold both.

What was accepted is told by a `Ledger` in front of the document, that is by the answers alone. That
the document holds just what is in these books, and that the books have the first of each id, is an
invariant (`Ledger.Kept`) that every submission keeps (`Ledger.Kept.submit`).
-/

namespace Lineage

open Lineage.Graph

/-- If keys are distinct, an element is found under its key and under no other. -/
theorem find?_key_eq_some_iff {α κ : Type} [DecidableEq κ] (key : α → κ) {x : α} {k : κ}
    {xs : List α} (h : (xs.map key).Nodup) :
    xs.find? (key · = k) = some x ↔ x ∈ xs ∧ key x = k := by
  constructor
  · intro hfind
    exact ⟨List.mem_of_find?_eq_some hfind, by simpa using List.find?_some hfind⟩
  · rintro ⟨hx, rfl⟩
    exact find?_key_of_mem key h hx

/-! ### Elements of either sort -/

namespace Graph

/-- The vertices among some elements are those that are elements as vertices. -/
theorem mem_filterMap_vertex? {elements : List Element} {v : Vertex} :
    v ∈ elements.filterMap Element.vertex? ↔ .vertex v ∈ elements := by
  constructor
  · intro hv
    obtain ⟨element, hmem, helement⟩ := List.mem_filterMap.1 hv
    cases element with
    | vertex w => exact Option.some.inj helement ▸ hmem
    | edge e => cases helement
  · exact fun hmem => List.mem_filterMap.2 ⟨_, hmem, rfl⟩

/-- And so are the edges. -/
theorem mem_filterMap_edge? {elements : List Element} {e : Edge} :
    e ∈ elements.filterMap Element.edge? ↔ .edge e ∈ elements := by
  constructor
  · intro he
    obtain ⟨element, hmem, helement⟩ := List.mem_filterMap.1 he
    cases element with
    | vertex v => cases helement
    | edge f => exact Option.some.inj helement ▸ hmem
  · exact fun hmem => List.mem_filterMap.2 ⟨_, hmem, rfl⟩

/-- The number of elements of each kind and relation. -/
def Tally.ofElements (elements : List Element) : Tally where
  agents := (elements.filterMap Element.vertex?).countP (·.kind = .agent)
  activities := (elements.filterMap Element.vertex?).countP (·.kind = .activity)
  entities := (elements.filterMap Element.vertex?).countP (·.kind = .entity)
  used := (elements.filterMap Element.edge?).countP (·.relation = .used)
  wasGeneratedBy := (elements.filterMap Element.edge?).countP (·.relation = .wasGeneratedBy)
  wasAssociatedWith := (elements.filterMap Element.edge?).countP (·.relation = .wasAssociatedWith)
  wasDerivedFrom := (elements.filterMap Element.edge?).countP (·.relation = .wasDerivedFrom)

/-- All vertices and all edges of a tally. -/
def Tally.totals (tally : Tally) : Nat × Nat :=
  (tally.agents + tally.activities + tally.entities,
    tally.used + tally.wasGeneratedBy + tally.wasAssociatedWith + tally.wasDerivedFrom)

namespace Document

/-- The kinds and relations of a tally are all that there are. -/
theorem totals_tally (document : Document) :
    document.tally.totals = (document.vertexCount, document.edgeCount) := by
  -- The records are grouped by all kinds there are, so the groups add up.
  have hvertices := document.vertexRecords_perm.length_eq
  have hedges := document.edgeRecords_perm.length_eq
  simp only [vertexRecords, edgeRecords, VertexKind.all, Relation.all, List.flatMap_cons,
    List.flatMap_nil, List.append_nil, List.length_append, List.length_map] at hvertices hedges
  refine Prod.ext ?_ ?_
  · simp only [Tally.totals, tally, vertexCount]
    omega
  · simp only [Tally.totals, tally, edgeCount]
    omega

/-- A document that holds some elements: each of them is found under its own kind and id as it is,
and nothing else is found; no two vertices have the same id, whatever their kinds, and no two edges
have; and they are counted. -/
structure Holds (document : Document) (elements : List Element) : Prop where
  vertex : ∀ endpoint v, document.vertex? endpoint = some v ↔
    .vertex v ∈ elements ∧ v.endpoint = endpoint
  edge : ∀ relation id e, document.edge? relation id = some e ↔
    .edge e ∈ elements ∧ e.relation = relation ∧ e.id = id
  nodup_vertices : (document.vertices.map fun v => v.id).Nodup
  nodup_edges : (document.edges.map Edge.id).Nodup
  vertexCount : document.vertexCount = (elements.filterMap Element.vertex?).length
  edgeCount : document.edgeCount = (elements.filterMap Element.edge?).length
  tally : document.tally = .ofElements elements
  totals : document.tally.totals = (document.vertexCount, document.edgeCount)

/-- A document holds some elements if it has their vertices and their edges, and no id
twice in either. -/
theorem holds_of_eq {document : Document} {elements : List Element}
    (hvertices : document.vertices = elements.filterMap Element.vertex?)
    (hedges : document.edges = elements.filterMap Element.edge?)
    (hids : (document.vertices.map fun v => v.id).Nodup)
    (hids' : (document.edges.map Edge.id).Nodup) : document.Holds elements where
  vertex endpoint v := by
    rw [vertex?, find?_key_eq_some_iff Vertex.endpoint document.nodup_vertices, hvertices,
      mem_filterMap_vertex?]
  edge relation id e := by
    rw [edge?, find?_key_eq_some_iff Edge.key document.nodup_edges, hedges, mem_filterMap_edge?,
      Edge.key, Prod.mk.injEq]
  nodup_vertices := hids
  nodup_edges := hids'
  vertexCount := congrArg List.length hvertices
  edgeCount := congrArg List.length hedges
  -- The tally counts what the lists hold, kind by kind.
  tally := by
    simp only [Document.tally, Tally.ofElements, verticesOf, edgesOf,
      ← List.countP_eq_length_filter, hvertices, hedges]
  totals := document.totals_tally

end Document

end Graph

/-! ### The books of a document -/

/-- The books of a document after some submissions: the document has the vertices and the edges
that were accepted, each in their order, and of the elements with one id the first was accepted
and no other. -/
structure Ledger.Kept (ledger : Ledger Document) (elements : List Element) : Prop where
  vertices : ledger.sink.vertices = ledger.accepted.filterMap Element.vertex?
  edges : ledger.sink.edges = ledger.accepted.filterMap Element.edge?
  nodup_vertices : (ledger.sink.vertices.map fun v => v.id).Nodup
  nodup_edges : (ledger.sink.edges.map Edge.id).Nodup
  sublist : ledger.accepted.Sublist elements
  first : ∀ id, ledger.accepted.find? (·.elementId = id) = elements.find? (·.elementId = id)

namespace Ledger

variable {ledger : Ledger Document} {elements : List Element}

/-- Nothing is in the books at the start. -/
theorem kept_blank : (blank Document.empty).Kept [] :=
  ⟨rfl, rfl, .nil, .nil, .slnil, fun _ => rfl⟩

/-- An id is taken if and only if an element with it was accepted. -/
theorem Kept.holdsId_iff (h : ledger.Kept elements) (element : Element) :
    ledger.sink.holdsId element = true ↔
      ∃ earlier ∈ ledger.accepted, earlier.elementId = element.elementId := by
  cases element with
  | vertex v =>
    rw [Document.holdsId, Document.containsVertex_iff, h.vertices, List.mem_map]
    constructor
    · rintro ⟨w, hw, hid⟩
      exact ⟨.vertex w, mem_filterMap_vertex?.1 hw, congrArg ElementId.vertex hid⟩
    · rintro ⟨earlier, hmem, hid⟩
      cases earlier with
      | vertex w => exact ⟨w, mem_filterMap_vertex?.2 hmem, ElementId.vertex.inj hid⟩
      -- An edge has the id of no vertex, whatever the text is.
      | edge e => cases hid
  | edge e =>
    rw [Document.holdsId, Document.containsEdge_iff, h.edges, List.mem_map]
    constructor
    · rintro ⟨f, hf, hid⟩
      exact ⟨.edge f, mem_filterMap_edge?.1 hf, congrArg ElementId.edge hid⟩
    · rintro ⟨earlier, hmem, hid⟩
      cases earlier with
      | vertex v => cases hid
      | edge f => exact ⟨f, mem_filterMap_edge?.2 hmem, ElementId.edge.inj hid⟩

/-- An element whose id is taken is booked as refused, and the document stays. -/
theorem submit_of_taken {element : Element} (h : ledger.sink.holdsId element = true) :
    (Sink.submit ledger element).1 =
      ⟨ledger.sink, ledger.accepted, ledger.refused ++ [element]⟩ := by
  show ledger.book element (ledger.sink.submit element) = _
  rw [Document.submit, if_pos h]
  rfl

/-- Any other is booked as accepted, and the document has it. -/
theorem submit_of_free {element : Element} (h : ¬ ledger.sink.holdsId element = true) :
    (Sink.submit ledger element).1 =
      ⟨(ledger.sink.submit element).1, ledger.accepted ++ [element], ledger.refused⟩ := by
  show ledger.book element (ledger.sink.submit element) = _
  rw [Document.submit, if_neg h]
  rfl

/-- An element whose id is taken is not the first with its id. -/
theorem Kept.first_of_taken (h : ledger.Kept elements) {element : Element}
    (htaken : ledger.sink.holdsId element = true) (id : ElementId) :
    ledger.accepted.find? (·.elementId = id) =
      (elements ++ [element]).find? (·.elementId = id) := by
  rw [List.find?_append, ← h.first]
  by_cases hid : element.elementId = id
  · -- The search ends at `earlier`, before it comes to `element`.
    obtain ⟨earlier, hmem, hearlier⟩ := (h.holdsId_iff element).1 htaken
    have hsome : (ledger.accepted.find? (·.elementId = id)).isSome = true :=
      List.find?_isSome.2 ⟨earlier, hmem, by simpa using hearlier.trans hid⟩
    rw [Option.or_of_isSome hsome]
  · simp [hid]

/-- **A submission keeps the books right**: an element whose id is taken changes nothing, and any
other is the first with its id. -/
theorem Kept.submit (h : ledger.Kept elements) (element : Element) :
    (Sink.submit ledger element).1.Kept (elements ++ [element]) := by
  by_cases htaken : ledger.sink.holdsId element = true
  · rw [submit_of_taken htaken]
    exact ⟨h.vertices, h.edges, h.nodup_vertices, h.nodup_edges,
      h.sublist.trans (List.sublist_append_left _ _), h.first_of_taken htaken⟩
  · rw [submit_of_free htaken]
    have hsublist : (ledger.accepted ++ [element]).Sublist (elements ++ [element]) :=
      h.sublist.append_right _
    have hfirst (id : ElementId) : (ledger.accepted ++ [element]).find? (·.elementId = id) =
        (elements ++ [element]).find? (·.elementId = id) := by
      rw [List.find?_append, List.find?_append, h.first]
    -- The element goes behind those of its sort, and the others stay.
    cases element with
    | vertex v =>
      -- The id is free, so the document takes the vertex.
      have hnew : v.id ∉ ledger.sink.vertices.map fun w => w.id :=
        mt Document.containsVertex_iff.2 htaken
      obtain ⟨hvertices, hedges⟩ := Document.submit_vertex_of_notMem hnew
      refine ⟨?_, ?_, ?_, ?_, hsublist, hfirst⟩
      · simp only [hvertices, h.vertices, List.filterMap_append]
        rfl
      · simp only [hedges, h.edges, List.filterMap_append]
        exact (List.append_nil _).symm
      · simp only [hvertices, List.map_append]
        exact h.nodup_vertices.append (List.nodup_singleton _) (List.disjoint_singleton.2 hnew)
      · simp only [hedges, h.nodup_edges]
    | edge e =>
      have hnew : e.id ∉ ledger.sink.edges.map Edge.id := mt Document.containsEdge_iff.2 htaken
      obtain ⟨hedges, hvertices⟩ := Document.submit_edge_of_notMem hnew
      refine ⟨?_, ?_, ?_, ?_, hsublist, hfirst⟩
      · simp only [hvertices, h.vertices, List.filterMap_append]
        exact (List.append_nil _).symm
      · simp only [hedges, h.edges, List.filterMap_append]
        rfl
      · simp only [hvertices, h.nodup_vertices]
      · simp only [hedges, List.map_append]
        exact h.nodup_edges.append (List.nodup_singleton _) (List.disjoint_singleton.2 hnew)

/-- And so do all submissions. -/
theorem kept_submitAll (elements : List Element) :
    (Sink.submitAll (blank Document.empty) elements).1.Kept elements := by
  induction elements using List.reverseRecOn with
  | nil => exact kept_blank
  -- From the right, as each submission is made to the books that the others have left.
  | append_singleton elements element ih =>
    rw [Sink.submitAll_append]
    exact ih.submit element

/-- Whatever is submitted, the books change nothing of what the sink makes of it. -/
theorem sink_submitAll {σ : Type} [Sink σ] (ledger : Ledger σ) (elements : List Element) :
    (Sink.submitAll ledger elements).1.sink = (Sink.submitAll ledger.sink elements).1 := by
  induction elements generalizing ledger with
  | nil => rfl
  | cons element elements ih =>
    -- Booking looks at the answer, and the sink has given it before.
    have hsubmit : (Sink.submit ledger element).1.sink = (Sink.submit ledger.sink element).1 :=
      ledger.sink_book element _
    show (Sink.submitAll (Sink.submit ledger element).1 elements).1.sink = _
    rw [ih, hsubmit]
    rfl

end Ledger

namespace Graph

/-! ### Submissions of both sorts -/

/-- A submission to a sink. -/
inductive Submission
  /-- The sink answers whether it refuses the element. -/
  | answered (element : Element)
  /-- A refusal is told of, and there is no answer. -/
  | logged (element : Element)

namespace Submission

def element : Submission → Element
  | answered element => element
  | logged element => element

variable {σ : Type} [Sink σ]

/-- The sink after a submission. -/
def sinkAfter (sink : σ) : Submission → σ
  | answered element => (Sink.submit sink element).1
  | logged element => (Effect.performAll sink [.submit element]).1

/-- It makes no difference to the sink whether it answers. -/
theorem foldl_sinkAfter (sink : σ) (submissions : List Submission) :
    submissions.foldl sinkAfter sink = (Sink.submitAll sink (submissions.map element)).1 := by
  induction submissions generalizing sink with
  | nil => rfl
  | cons submission submissions ih =>
    cases submission with
    | answered element => exact ih _
    -- What is told of a refusal does not reach the sink.
    | logged element => exact ih _

end Submission

namespace Document

/-- **A document keeps the first of each id.** After any submissions it holds just the elements that
were accepted, each as it was submitted, and these are the first with their ids: a vertex is refused
if and only if a vertex with its id was accepted before, of whatever kind, and so is an edge. A
refusal names the kind and the id of the element that is refused, and changes nothing. Nor does it
matter which of the submissions are answered. -/
theorem keeping_submitAll (elements : List Element) :
    let document := (Sink.submitAll Document.empty elements).1
    let ledger := (Sink.submitAll (Ledger.blank Document.empty) elements).1
    ledger.sink = document ∧ document.Holds ledger.accepted ∧
      (ledger.accepted.Sublist elements ∧
        ∀ id, ledger.accepted.find? (·.elementId = id) = elements.find? (·.elementId = id)) ∧
      (∀ element, (∃ earlier ∈ ledger.accepted, earlier.elementId = element.elementId) →
        Sink.submit document element = (document, some (.duplicate element.label element.id))) ∧
      (∀ element, (¬ ∃ earlier ∈ ledger.accepted, earlier.elementId = element.elementId) →
        (Sink.submit document element).2 = none) ∧
      ∀ submissions : List Submission, submissions.map Submission.element = elements →
        submissions.foldl Submission.sinkAfter Document.empty = document := by
  intro document ledger
  have hsink : ledger.sink = document := (Ledger.blank Document.empty).sink_submitAll elements
  have hkept : ledger.Kept elements := Ledger.kept_submitAll elements
  -- In terms of the ledger, an id is taken if an accepted element has it.
  have htaken (element : Element) := hkept.holdsId_iff element
  rw [hsink] at htaken
  have hholds : ledger.sink.Holds ledger.accepted :=
    holds_of_eq hkept.vertices hkept.edges hkept.nodup_vertices hkept.nodup_edges
  refine ⟨hsink, hsink ▸ hholds, ⟨hkept.sublist, hkept.first⟩, fun element hearlier => ?_,
    fun element hnone => ?_, ?_⟩
  · exact if_pos ((htaken element).2 hearlier)
  · exact congrArg Prod.snd (if_neg (mt (htaken element).1 hnone))
  · rintro submissions rfl
    exact Submission.foldl_sinkAfter Document.empty submissions

/-- An agent, an entity with the agent's id, and an edge with that id too: the entity is refused and
the edge is not, and the document is the same if the refusal of the entity is only told of. -/
theorem keeping_submitAll_kinds :
    let agent : Element := .vertex ((Node.bare "a").toVertex .agent)
    let entity : Element := .vertex ((Node.bare "a").toVertex .entity)
    let edge : Element := .edge (.between .wasDerivedFrom "a" (.bare "a") (.bare "a"))
    let document := (Sink.submitAll Document.empty [agent]).1
    Sink.submit document entity = (document, some (.duplicate "Entity" "a")) ∧
      (Sink.submit document edge).2 = none ∧
      [Submission.answered agent, .logged entity, .answered edge].foldl
        Submission.sinkAfter Document.empty =
          (Sink.submitAll Document.empty [agent, entity, edge]).1 := by
  intro agent entity edge document
  obtain ⟨-, -, -, hrefused, haccepted, -⟩ := keeping_submitAll [agent]
  obtain ⟨-, -, -, -, -, hlogged⟩ := keeping_submitAll [agent, entity, edge]
  exact ⟨hrefused entity ⟨agent, by decide, by decide⟩, haccepted edge (by decide), hlogged _ rfl⟩

end Document

end Graph

end Lineage
