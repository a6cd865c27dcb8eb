import Lineage.Proofs.Balance
import Lineage.Proofs.Ends

/-!
# Nothing is stored twice

The ids of a run are dense: the vertices end in 0, 1, 2 and so on, the edges in 1, 2, 3 and so on,
and whatever stands in front of the number keeps it apart from the other ids (`DenseIds`). So a
document that is given the elements of a run refuses none of them. With every message that is taken
in it grows by the vertex and the edges that the answer reports, and it holds as many elements of
each kind as the session has counted (`Recorder.storage_run`).

That a document refuses nothing is seen from its size: every element that is submitted is kept or
refused (`Graph.Document.size_submitAll`), and elements with different ids are kept.
-/

namespace Lineage

open Lineage.Graph Session Telemetry

/-! ### The number in an id -/

/-- The announcements of a run have their places as numbers. -/
theorem index_of_getElem?_announcementsFrom {index : Nat}
    {inputs : List (Except MessageError Message)} {n : Nat} {a : Announcement}
    (h : (announcementsFrom index inputs)[n]? = some a) : a.index = index + n := by
  induction inputs generalizing index n with
  | nil => exact nomatch h
  | cons input inputs ih =>
    cases input with
    -- No number is taken by what is refused.
    | error e => exact ih h
    | ok message =>
      cases n with
      | zero =>
        obtain rfl := Option.some.inj h
        rfl
      | succ n => rw [ih h, Nat.add_right_comm, Nat.add_assoc]

/-- Of some inputs no more are announced than there are. -/
theorem length_announcementsFrom_le (index : Nat) (inputs : List (Except MessageError Message)) :
    (announcementsFrom index inputs).length ≤ inputs.length := by
  induction inputs generalizing index with
  | nil => exact Nat.le_refl 0
  | cons input inputs ih =>
    cases input with
    | error e => exact Nat.le_succ_of_le (ih index)
    | ok message => exact Nat.succ_le_succ (ih (index + 1))

/-- The edge at a place has the number of the place. -/
theorem NumberedFrom.id_of_getElem? {number : Nat} {edges : List Edge}
    (h : NumberedFrom number edges) {n : Nat} {edge : Edge} (hedge : edges[n]? = some edge) :
    edge.id = edge.relation.edgeId (number + n) := by
  induction edges generalizing number n with
  | nil => exact nomatch hedge
  | cons e edges ih =>
    cases n with
    | zero =>
      obtain rfl := Option.some.inj hedge
      exact h.1
    | succ n => rw [ih h.2 hedge, Nat.add_right_comm, Nat.add_assoc]

/-- The letters in front of the number of an edge. -/
theorem Graph.Relation.letters_mem (relation : Relation) :
    relation.letters ∈ ["u", "g", "assoc", "d"] := by
  cases relation <;> simp [letters]

namespace Session

variable (session : Session)

/-- A message leads to two edges at most. -/
theorem length_edgesFor_le (message : Message) : (session.edgesFor message).length ≤ 2 := by
  cases message with
  | agent header agentType =>
    rw [edgesFor, List.length_map]
    exact Nat.le_succ_of_le Option.length_toList_le
  | activity header activityType =>
    rw [edgesFor, List.length_map]
    exact Nat.le_succ_of_le Option.length_toList_le
  | entity header entityType operation payload =>
    simp only [edgesFor, List.length_append, List.length_map]
    -- One derivation and one edge to an activity.
    exact Nat.add_le_add Option.length_toList_le Option.length_toList_le

/-- So a run leads to two edges at most for each input. -/
theorem length_edges_le (inputs : List (Except MessageError Message)) :
    (session.edges inputs).length ≤ 2 * inputs.length := by
  induction inputs generalizing session with
  | nil => exact Nat.le_refl 0
  | cons input inputs ih =>
    cases input with
    | error e =>
      have hrest := ih (session.drop e)
      rw [edges_error, List.length_cons]
      omega
    | ok message =>
      -- A message adds two edges at most, and a refused one none.
      have hown := session.length_edgesFor_le message
      have hrest := ih (session.receive (.ok message)).session
      rw [edges_ok, List.length_append, List.length_cons]
      omega

end Session

/-- Elements are numbered without gaps: their vertices from zero, their edges from one over all
relations, and no two vertices or edges have the same id. -/
structure DenseIds (elements : List Element) : Prop where
  vertex : ∀ (n : Nat) (v : Vertex), (elements.filterMap Element.vertex?)[n]? = some v →
    ∃ stem, v.id = stem ++ ":" ++ toString n
  edge : ∀ (n : Nat) (e : Edge), (elements.filterMap Element.edge?)[n]? = some e →
    ∃ letters ∈ ["u", "g", "assoc", "d"], e.id = letters ++ toString (n + 1)
  nodup_vertices : ((elements.filterMap Element.vertex?).map fun v => v.id).Nodup
  nodup_edges : ((elements.filterMap Element.edge?).map Edge.id).Nodup

/-- The ids of a run are dense. -/
theorem Session.denseIds_submissions (retention : Retention)
    (inputs : List (Except MessageError Message)) :
    DenseIds ((Session.start retention).submissions inputs) where
  vertex n v hv := by
    rw [vertices_submissions, List.getElem?_map, Option.map_eq_some_iff] at hv
    obtain ⟨a, ha, rfl⟩ := hv
    have hindex : a.index = n := (index_of_getElem?_announcementsFrom ha).trans (Nat.zero_add n)
    exact ⟨a.message.stem, congrArg a.message.vertexId hindex⟩
  edge n e he := by
    have hid := ((start retention).numbered_edges inputs).id_of_getElem? he
    -- Edges are numbered from one.
    have hnumber : (start retention).numbering.edges + 1 + n = n + 1 := by
      rw [Nat.add_right_comm]
      exact congrArg (· + 1) (Nat.zero_add n)
    rw [hnumber] at hid
    exact ⟨e.relation.letters, e.relation.letters_mem, hid⟩
  nodup_vertices := nodup_id_vertices _ inputs
  nodup_edges := nodup_id_edges _ inputs

/-! ### Kept or refused -/

namespace Graph.Document

def size (document : Document) : Nat :=
  document.vertexCount + document.edgeCount

/-- An element is kept or refused. -/
theorem size_submit (document : Document) (element : Element) :
    (document.submit element).1.size + (document.submit element).2.toList.length =
      document.size + 1 := by
  by_cases hholds : document.holdsId element = true
  · simp only [submit, hholds]
    rfl
  · -- The id is free, so the element is kept behind those of its sort.
    have hkept : (document.submit element).2 = none := by simp only [submit, hholds]; rfl
    rw [hkept, Option.toList_none, List.length_nil, Nat.add_zero]
    cases element with
    | vertex v =>
      obtain ⟨hv, he⟩ := submit_vertex_of_notMem (mt containsVertex_iff.2 hholds)
      simp only [size, vertexCount, edgeCount, hv, he, List.length_append, List.length_singleton]
      exact Nat.add_right_comm _ _ _
    | edge e =>
      obtain ⟨he, hv⟩ := submit_edge_of_notMem (mt containsEdge_iff.2 hholds)
      simp only [size, vertexCount, edgeCount, hv, he, List.length_append, List.length_singleton]
      rfl

/-- Every element is kept or refused. -/
theorem size_submitAll (document : Document) (elements : List Element) :
    (Sink.submitAll document elements).1.size + (Sink.submitAll document elements).2.length =
      document.size + elements.length := by
  induction elements generalizing document with
  | nil => rfl
  | cons element elements ih =>
    have hrest := ih (document.submit element).1
    have hfirst := document.size_submit element
    -- A refusal is told of with its element, and of nothing else is told.
    have hrefused : (Sink.submitAll document (element :: elements)).2.length =
        (document.submit element).2.toList.length +
          (Sink.submitAll (document.submit element).1 elements).2.length := by
      have htold : (((document.submit element).2.map fun error => (element, error)).toList).length =
          (document.submit element).2.toList.length := by
        cases (document.submit element).2 <;> rfl
      rw [← htold]
      exact List.length_append
    have hkept : (Sink.submitAll document (element :: elements)).1 =
        (Sink.submitAll (document.submit element).1 elements).1 := rfl
    rw [hrefused, hkept, List.length_cons]
    omega

/-- Elements are vertices and edges. -/
theorem length_eq_vertices_add_edges (elements : List Element) : elements.length =
    (elements.filterMap Element.vertex?).length + (elements.filterMap Element.edge?).length := by
  induction elements with
  | nil => rfl
  | cons element elements ih =>
    cases element with
    | vertex v =>
      simp only [List.filterMap_cons, Element.vertex?, Element.edge?, List.length_cons, ih]
      exact Nat.add_right_comm _ _ _
    | edge e =>
      simp only [List.filterMap_cons, Element.vertex?, Element.edge?, List.length_cons, ih]
      rfl

/-- A document refuses no elements with different ids. -/
theorem refused_submitAll_of_nodup (document : Document) (elements : List Element)
    (hvertices :
      ((document.vertices ++ elements.filterMap Element.vertex?).map fun v => v.id).Nodup)
    (hedges : ((document.edges ++ elements.filterMap Element.edge?).map Edge.id).Nodup) :
    (Sink.submitAll document elements).2 = [] := by
  -- All elements are kept, and the sizes leave nothing for refusals.
  obtain ⟨hv, he⟩ := submitAll_of_nodup document elements hvertices hedges
  have hsize := document.size_submitAll elements
  have hsorts := length_eq_vertices_add_edges elements
  simp only [size, vertexCount, edgeCount, hv, he, List.length_append] at hsize
  exact List.length_eq_zero_iff.1 (by omega)

end Graph.Document

/-! ### A document and what is told of it -/

/-- A document grows by what an answer reports: the vertex and the edges behind all that was
there, or nothing. -/
inductive Graph.Document.GrowsBy (before after : Document) : Option Outcome → Prop
  | nothing (hsame : after = before) : GrowsBy before after none
  | reported {outcome : Outcome} (v : Vertex) (es : List Edge) (hvertex : v.id = outcome.vertex)
      (hkind : v.kind = outcome.event.vertexKind) (hedges : es.map Edge.id = outcome.edges)
      (hvertices : after.vertices = before.vertices ++ [v])
      (hmore : after.edges = before.edges ++ es) :
      GrowsBy before after (some outcome)

/-- The number of elements of each kind that a session has counted. -/
def Session.Stats.tally (stats : Stats) : Tally where
  agents := stats.vertices.count VertexKind.agent.label
  activities := stats.vertices.count VertexKind.activity.label
  entities := stats.vertices.count VertexKind.entity.label
  used := stats.edges.count Relation.used.label
  wasGeneratedBy := stats.edges.count Relation.wasGeneratedBy.label
  wasAssociatedWith := stats.edges.count Relation.wasAssociatedWith.label
  wasDerivedFrom := stats.edges.count Relation.wasDerivedFrom.label

/-- Whether the counters of a session come to no more than a number. What is counted by kind is
bounded by its total (`Catalog.count_le_total`). -/
structure Session.Stats.AtMost (stats : Stats) (limit : Nat) : Prop where
  messages : stats.messages ≤ limit
  vertices : stats.vertexTotal ≤ limit
  edges : stats.edgeTotal ≤ limit
  dropped : stats.droppedTotal ≤ limit
  missing : stats.missingCorrelations ≤ limit

namespace Recorder

/-- With every call a document behind a fresh recorder grows by what is answered. -/
theorem growsBy_perform (retention : Retention) (calls : List Call) (call : Call) :
    ((start retention Document.empty).run calls).recorder.sink.GrowsBy
      (((start retention Document.empty).run calls).recorder.perform call).recorder.sink
      (((start retention Document.empty).run calls).recorder.perform call).result.outcome? := by
  rw [result_perform, Call.outcome?_answer]
  cases hinput : call.input with
  | error error =>
    refine .nothing ?_
    rw [sink_perform, hinput]
    rfl
  | ok message =>
    rw [result_receive, session_run]
    -- The document before and the one after are those of two runs, of which the second has one more
    -- call.
    obtain ⟨hv, he⟩ := document_run retention calls
    obtain ⟨hv', he'⟩ := document_run retention (calls ++ [call])
    rw [List.map_append, List.map_singleton, hinput] at hv' he'
    rw [announcementsFrom_append, Nat.zero_add, List.map_append, ← hv] at hv'
    rw [edges_append, edges_ok, edges_nil, List.append_nil, ← he] at he'
    have hnumber : ((Session.start retention).after (calls.map Call.input)).numbering.vertices =
        (announcementsFrom 0 (calls.map Call.input)).length := by
      rw [numbering_after]
      exact Nat.zero_add _
    have hvertex : (Announcement.mk message
        (announcementsFrom 0 (calls.map Call.input)).length).vertex =
        ((Session.start retention).after (calls.map Call.input)).vertexFor message := by
      rw [← hnumber]
      rfl
    rw [← recorder_run_concat]
    exact .reported (((Session.start retention).after (calls.map Call.input)).vertexFor message) _
      rfl rfl rfl (hvertex ▸ hv') he'

/-- A document behind a fresh recorder holds what the session has counted. -/
theorem tally_run (retention : Retention) (calls : List Call) :
    ((start retention Document.empty).run calls).recorder.sink.tally =
      ((start retention Document.empty).run calls).recorder.session.stats.tally := by
  obtain ⟨hvertices, hedges⟩ := document_run retention calls
  have hv : ∀ kind : VertexKind,
      (((start retention Document.empty).run calls).recorder.sink.verticesOf kind).length =
      ((start retention Document.empty).run calls).recorder.session.stats.vertices.count
        kind.label := by
    -- The document of a run holds all that was submitted, and that is what was counted.
    intro kind
    rw [Document.verticesOf, hvertices, ← List.countP_eq_length_filter, session_run]
    exact ((count_vertices_after _ _ kind).trans (Nat.zero_add _)).symm
  have he : ∀ relation : Relation,
      (((start retention Document.empty).run calls).recorder.sink.edgesOf relation).length =
      ((start retention Document.empty).run calls).recorder.session.stats.edges.count
        relation.label := by
    intro relation
    rw [Document.edgesOf, hedges, ← List.countP_eq_length_filter, session_run]
    exact ((count_edges_after _ _ relation).trans (Nat.zero_add _)).symm
  simp only [Document.tally, Stats.tally, hv, he]

/-- A document refuses nothing that a fresh recorder submits. -/
theorem refused_submitted (retention : Retention) (calls : List Call) :
    (Sink.submitAll Document.empty (submitted retention Document.empty calls)).2 = [] := by
  have hids := Session.denseIds_submissions retention (calls.map Call.input)
  rw [submitted_eq]
  exact Document.refused_submitAll_of_nodup Document.empty _ hids.nodup_vertices hids.nodup_edges

/-- A session numbers one vertex and two edges at most for every call. -/
theorem numbering_run_le {σ : Type} [Sink σ] (retention : Retention) (sink : σ)
    (calls : List Call) :
    ((start retention sink).run calls).recorder.session.numbering.vertices ≤ calls.length ∧
      ((start retention sink).run calls).recorder.session.numbering.edges ≤ 2 * calls.length := by
  have hvertices := length_announcementsFrom_le 0 (calls.map Call.input)
  have hedges := (Session.start retention).length_edges_le (calls.map Call.input)
  rw [List.length_map] at hvertices hedges
  rw [session_run, numbering_after]
  exact ⟨(Nat.zero_add _).trans_le hvertices, (Nat.zero_add _).trans_le hedges⟩

/-- Two for each call bound all counters of a run and their totals, so 64 bits are enough for fewer
than `2 ^ 63` calls. -/
theorem atMost_run {σ : Type} [Sink σ] (retention : Retention) (sink : σ) (calls : List Call) :
    ((start retention sink).run calls).recorder.session.stats.AtMost (2 * calls.length) := by
  have hbalanced : ((start retention sink).run calls).recorder.session.Balanced calls.length := by
    rw [session_run]
    exact balanced_after_calls retention calls
  have hmessages := hbalanced.messages
  have hresults := hbalanced.results
  have hcauses := hbalanced.causes
  have hedges := (numbering_run_le retention sink calls).2
  rw [hbalanced.edgeNumbers] at hedges
  -- A missing activity is that of an entity, and the entities are among the vertices.
  have hentities := Catalog.count_le_total
    ((start retention sink).run calls).recorder.session.stats.vertices VertexKind.entity.label
  rw [← Stats.vertexTotal] at hentities
  constructor <;> omega

/-- **Nothing is stored twice.** Whatever names and devices the messages have, the ids that a fresh
recorder gives are dense, and no number of a run comes to more than two for each call, so 64 bits
are enough for fewer than `2 ^ 63` calls. A document that takes in the elements of one recorder only
refuses none of them: with every call it grows by what is answered, and it holds what is counted. -/
theorem storage_run {σ : Type} [Sink σ] (retention : Retention) (sink : σ) (calls : List Call) :
    DenseIds (submitted retention sink calls) ∧
      (((start retention sink).run calls).recorder.session.numbering.vertices ≤ calls.length ∧
        ((start retention sink).run calls).recorder.session.numbering.edges ≤ 2 * calls.length) ∧
      (Sink.submitAll Document.empty (submitted retention Document.empty calls)).2 = [] ∧
      (∀ call, ((start retention Document.empty).run calls).recorder.sink.GrowsBy
        (((start retention Document.empty).run calls).recorder.perform call).recorder.sink
        (((start retention Document.empty).run calls).recorder.perform call).result.outcome?) ∧
      ((start retention Document.empty).run calls).recorder.sink.tally =
        ((start retention Document.empty).run calls).recorder.session.stats.tally := by
  refine ⟨?_, numbering_run_le retention sink calls, refused_submitted retention calls,
    growsBy_perform retention calls, tally_run retention calls⟩
  rw [submitted_eq]
  exact Session.denseIds_submissions retention _

end Recorder

end Lineage
