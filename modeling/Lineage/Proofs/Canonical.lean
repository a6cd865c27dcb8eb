import Lineage.Proofs.ByteOrder
import Lineage.Proofs.Keeping
import Mathlib.Data.List.Permutation

/-!
# The listing of a document is canonical

A document is listed by going through its vertices kind after kind and through its edges relation
after relation, and by sorting what was met. In which order the elements of one kind are met is left
open: a `Traversal` may take any. The listing is the same for all of them, and for all documents
with the same elements, however these were put in (`Graph.Document.canonical_records`).

This rests on three facts. Of one kind, no two elements have the same id, so elements with the same
id are met in the order of their kinds (`pairwise_flatMap_of_kinds`). Sorting by id leaves them in
that order (`filter_mergeSort_text`). And so the listing is in a strict order, by the bytes of the
id and then by the kind (`InListingOrder`); only one row of the same elements is
(`InListingOrder.eq_of_perm`).
-/

namespace Lineage

open Lineage.Graph Lineage.Text.Utf8

/-! ### Sorting keeps the order of equals -/

section Sorting

variable {α : Type} (text : α → String)

/-- Elements with the same text come out of sorting as they went in. -/
theorem filter_mergeSort_text (xs : List α) (content : String) :
    (xs.mergeSort fun a b => decide (text a ≤ text b)).filter (text · = content) =
      xs.filter (text · = content) := by
  have hsorted : (xs.filter (text · = content)).Pairwise fun a b =>
      decide (text a ≤ text b) = true := by
    refine List.pairwise_of_forall_mem_list fun a ha b hb => ?_
    have ha' : text a = content := of_decide_eq_true (List.mem_filter.1 ha).2
    have hb' : text b = content := of_decide_eq_true (List.mem_filter.1 hb).2
    exact decide_eq_true (ha'.trans hb'.symm ▸ String.le_refl _)
  -- All of them are in the sorted row, in their order, and there are no others in it.
  have hkept := (List.sublist_mergeSort (decide_le_trans text) (decide_le_total text) hsorted
    List.filter_sublist).filter (text · = content)
  simp only [List.filter_filter, Bool.and_self] at hkept
  exact (hkept.eq_of_length ((List.mergeSort_perm ..).symm.filter _).length_eq).symm

end Sorting

/-! ### The order of a listing -/

/-- Whether elements are in the order of a listing: by the bytes of their ids, and those with one id
by the places of their kinds. -/
def InListingOrder {α : Type} (id : α → String) (place : α → Nat) (elements : List α) : Prop :=
  elements.Pairwise fun a b => encode (id a) < encode (id b) ∨ id a = id b ∧ place a < place b

section ListingOrder

variable {α : Type} {id : α → String} {place : α → Nat} {elements elements' : List α}

/-- Only one row of the same elements is in the order of a listing. -/
theorem InListingOrder.eq_of_perm (h : InListingOrder id place elements)
    (h' : InListingOrder id place elements') (hperm : elements.Perm elements') :
    elements = elements' := by
  refine hperm.eq_of_pairwise ?_ h h'
  -- The order is strict, so no two elements come before each other.
  rintro a b - - (hab | ⟨hid, hab⟩) (hba | ⟨hid', hba⟩)
  · exact absurd hba (List.lt_asymm hab)
  · exact absurd hab (hid' ▸ List.lt_irrefl _)
  · exact absurd hba (hid ▸ List.lt_irrefl _)
  · exact absurd hba (Nat.lt_asymm hab)

/-- Sorting by the id leads to the order of a listing, if elements with one id are in the order of
their places. -/
theorem inListingOrder_mergeSort
    (h : elements.Pairwise fun a b => id a = id b → place a < place b) :
    InListingOrder id place (elements.mergeSort fun a b => decide (id a ≤ id b)) := by
  refine List.pairwise_iff_forall_sublist.2 fun {a b} hsublist => ?_
  have hle : id a ≤ id b :=
    List.pairwise_iff_forall_sublist.1 (pairwise_mergeSort_text id elements) hsublist
  rcases eq_or_ne (id a) (id b) with hid | hne
  · -- Both are among the elements with one id, and these were in this order before.
    have hequals := hsublist.filter (id · = id b)
    have hboth : [a, b].filter (id · = id b) = [a, b] := by simp [hid]
    rw [filter_mergeSort_text, hboth] at hequals
    exact .inr ⟨hid, List.pairwise_iff_forall_sublist.1 h (hequals.trans List.filter_sublist) hid⟩
  · -- Different ids are in the order of their bytes.
    exact .inl (encode_lt_encode (Catalog.lt_of_not_lt_of_ne (String.not_lt.2 hle) hne.symm))

/-- Records are sorted as their elements are. -/
theorem Graph.Record.sortedByHash_map {record : α → Record} (hhash : ∀ a, (record a).hash = id a)
    (elements : List α) : sortedByHash (elements.map record) =
      (elements.mergeSort fun a b => decide (id a ≤ id b)).map record := by
  refine (List.map_mergeSort fun a _ b _ => ?_).symm
  rw [hhash, hhash]

end ListingOrder

/-! ### Kind after kind -/

section Kinds

variable {α κ : Type} [DecidableEq κ] {kind : α → κ} {id : α → String} {stored : List α}

/-- Elements of one kind have different ids, if kind and id tell elements apart. -/
theorem nodup_id_of_kind (h : (stored.map fun a => (kind a, id a)).Nodup) (k : κ) :
    ((stored.filter (kind · = k)).map id).Nodup := by
  have hown : (stored.filter (kind · = k)).map (fun a => (kind a, id a)) =
      ((stored.filter (kind · = k)).map id).map fun text => (k, text) := by
    rw [List.map_map]
    refine List.map_congr_left fun a ha => ?_
    exact congrArg (·, id a) (of_decide_eq_true (List.mem_filter.1 ha).2)
  have hpart : ((stored.filter (kind · = k)).map fun a => (kind a, id a)).Nodup :=
    h.sublist (List.filter_sublist.map _)
  -- Within a kind the ids are all that can tell the elements apart.
  rw [hown] at hpart
  exact hpart.of_map _

/-- If one goes through the elements kind after kind, then those with the same id are met in the
order of their kinds, whatever the order within a kind is. -/
theorem pairwise_flatMap_of_kinds (h : (stored.map fun a => (kind a, id a)).Nodup)
    {rows : κ → List α} (hrows : ∀ k, (rows k).Perm (stored.filter (kind · = k)))
    {place : κ → Nat} {kinds : List κ} (hkinds : kinds.Pairwise fun k l => place k < place l) :
    (kinds.flatMap rows).Pairwise fun a b => id a = id b → place (kind a) < place (kind b) := by
  have hown : ∀ k, ∀ a ∈ rows k, kind a = k := by
    intro k a ha
    exact of_decide_eq_true (List.mem_filter.1 ((hrows k).mem_iff.1 ha)).2
  -- Within one kind no two have the same id, and between two kinds the places decide.
  refine List.pairwise_flatMap.2 ⟨fun k _ => ?_, hkinds.imp fun {k l} hlt a ha b hb _ => ?_⟩
  · have hids : ((rows k).map id).Nodup := ((hrows k).map id).nodup_iff.2 (nodup_id_of_kind h k)
    exact (List.pairwise_map.1 hids).imp fun hne hid => absurd hid hne
  · rwa [hown k a ha, hown l b hb]

end Kinds

namespace Graph

/-- The place of a kind in a listing: agents come first, and entities last. -/
def VertexKind.place : VertexKind → Nat
  | agent => 0
  | activity => 1
  | entity => 2

/-- The place of a relation in a listing. -/
def Relation.place : Relation → Nat
  | used => 0
  | wasGeneratedBy => 1
  | wasAssociatedWith => 2
  | wasDerivedFrom => 3

namespace Document

/-! ### Traversals -/

/-- Orders in which the vertices of each kind and the edges of each relation may be met. -/
structure Traversal (document : Document) where
  vertices : VertexKind → List Vertex
  edges : Relation → List Edge
  vertices_perm : ∀ kind, (vertices kind).Perm (document.verticesOf kind)
  edges_perm : ∀ relation, (edges relation).Perm (document.edgesOf relation)

/-- The traversal that meets elements in the order in which they first came. -/
def inOrder (document : Document) : document.Traversal :=
  ⟨document.verticesOf, document.edgesOf, fun _ => .refl _, fun _ => .refl _⟩

/-- Some vertices and edges make up the listing of a document: they are all that it holds, each part
by the bytes of the ids; vertices with one id come in the order of their kinds, and edges with one
id in that of their relations. -/
structure Lists (document : Document) (vertices : List Vertex) (edges : List Edge) : Prop where
  vertices_perm : vertices.Perm document.vertices
  edges_perm : edges.Perm document.edges
  vertices_order : InListingOrder (fun v : Vertex => v.id) (fun v => v.kind.place) vertices
  edges_order : InListingOrder Edge.id (fun e => e.relation.place) edges

namespace Traversal

variable {document : Document} (traversal : document.Traversal)

/-- The listing of a document that is gone through in some order. -/
def records : List Record :=
  Record.sortedByHash
      (VertexKind.all.flatMap fun kind => (traversal.vertices kind).map Vertex.record) ++
    Record.sortedByHash
      (Relation.all.flatMap fun relation => (traversal.edges relation).map Edge.record)

/-- Kind after kind, just the vertices of the document are met. -/
theorem flatMap_vertices_perm :
    (VertexKind.all.flatMap traversal.vertices).Perm document.vertices :=
  (List.Perm.flatMap_left _ fun kind _ => traversal.vertices_perm kind).trans
    document.flatMap_verticesOf_perm

/-- Relation after relation, just its edges are. -/
theorem flatMap_edges_perm : (Relation.all.flatMap traversal.edges).Perm document.edges :=
  (List.Perm.flatMap_left _ fun relation _ => traversal.edges_perm relation).trans
    document.flatMap_edgesOf_perm

/-- In whatever order a document is gone through, what comes of it is the listing of its
vertices and edges. -/
theorem exists_lists : ∃ vertices edges, document.Lists vertices edges ∧
    traversal.records = vertices.map Vertex.record ++ edges.map Edge.record := by
  have hvertices : (document.vertices.map fun v => (v.kind, v.id)).Nodup := by
    refine List.Nodup.of_map (fun pair => Endpoint.mk pair.1 pair.2) ?_
    rw [List.map_map]
    exact document.nodup_vertices
  have hkinds : VertexKind.all.Pairwise fun k l => k.place < l.place := by decide
  have hrelations : Relation.all.Pairwise fun r s => r.place < s.place := by decide
  refine ⟨_, _, ⟨(List.mergeSort_perm ..).trans traversal.flatMap_vertices_perm,
    (List.mergeSort_perm ..).trans traversal.flatMap_edges_perm,
    inListingOrder_mergeSort (pairwise_flatMap_of_kinds hvertices traversal.vertices_perm hkinds),
    inListingOrder_mergeSort (pairwise_flatMap_of_kinds document.nodup_edges
      traversal.edges_perm hrelations)⟩, ?_⟩
  -- Records are made before they are sorted; the elements could as well be sorted first.
  rw [records, ← List.map_flatMap, ← List.map_flatMap]
  exact congrArg₂ (· ++ ·) (Record.sortedByHash_map (fun _ => rfl) _)
    (Record.sortedByHash_map (fun _ => rfl) _)

end Traversal

/-! ### Documents with the same elements -/

/-- Two documents hold the same elements. -/
structure SameElements (document document' : Document) : Prop where
  vertices : ∀ v, v ∈ document.vertices ↔ v ∈ document'.vertices
  edges : ∀ e, e ∈ document.edges ↔ e ∈ document'.edges

section SameElements

variable {document document' : Document}

/-- Every document holds what it holds. -/
theorem SameElements.refl (document : Document) : document.SameElements document :=
  ⟨fun _ => .rfl, fun _ => .rfl⟩

/-- Documents with the same elements have one listing. -/
theorem Lists.eq_of_sameElements {vertices vertices' : List Vertex} {edges edges' : List Edge}
    (h : document.Lists vertices edges) (h' : document'.Lists vertices' edges')
    (hsame : document.SameElements document') : vertices = vertices' ∧ edges = edges' := by
  -- No element is in a document twice, so the same elements are a permutation.
  have hvertices : document.vertices.Perm document'.vertices :=
    (List.perm_ext_iff_of_nodup (document.nodup_vertices.of_map _)
      (document'.nodup_vertices.of_map _)).2 hsame.vertices
  have hedges : document.edges.Perm document'.edges :=
    (List.perm_ext_iff_of_nodup (document.nodup_edges.of_map _) (document'.nodup_edges.of_map _)).2
      hsame.edges
  -- Either part is in the order of a listing, and such an order is unique.
  exact ⟨h.vertices_order.eq_of_perm h'.vertices_order
    (h.vertices_perm.trans (hvertices.trans h'.vertices_perm.symm)),
    h.edges_order.eq_of_perm h'.edges_order (h.edges_perm.trans (hedges.trans h'.edges_perm.symm))⟩

/-- Neither the order in which the elements are met nor the one in which they came shows
in the listing. -/
theorem Traversal.records_eq (traversal : document.Traversal) (traversal' : document'.Traversal)
    (hsame : document.SameElements document') : traversal.records = traversal'.records := by
  obtain ⟨vertices, edges, hlists, hrecords⟩ := traversal.exists_lists
  obtain ⟨vertices', edges', hlists', hrecords'⟩ := traversal'.exists_lists
  obtain ⟨rfl, rfl⟩ := hlists.eq_of_sameElements hlists' hsame
  rw [hrecords, hrecords']

end SameElements

/-! ### Insertions -/

/-- The document after some elements were put into an empty one. -/
def ofInsertions (insertions : List Element) : Document :=
  insertions.foldl put empty

/-- A document has just the elements that were put in last of their kind with their id. -/
structure HoldsLast (document : Document) (insertions : List Element) : Prop where
  vertex : ∀ v, v ∈ document.vertices ↔
    ((insertions.filterMap Element.vertex?).filter (·.endpoint = v.endpoint)).getLast? = some v
  edge : ∀ e, e ∈ document.edges ↔
    ((insertions.filterMap Element.edge?).filter (·.key = e.key)).getLast? = some e

/-- Insertions go on with the document that those before have led to. -/
theorem ofInsertions_append_singleton (insertions : List Element) (element : Element) :
    ofInsertions (insertions ++ [element]) = (ofInsertions insertions).put element :=
  List.foldl_append

/-- Under a kind and an id, the vertex is found that was put in last. -/
theorem find?_vertices_ofInsertions (insertions : List Element) (endpoint : Endpoint) :
    (ofInsertions insertions).vertices.find? (·.endpoint = endpoint) =
      ((insertions.filterMap Element.vertex?).filter (·.endpoint = endpoint)).getLast? := by
  induction insertions using List.reverseRecOn with
  | nil => rfl
  | append_singleton insertions element ih =>
    rw [ofInsertions_append_singleton, List.filterMap_append, List.filter_append]
    cases element with
    | vertex w =>
      rw [show ((ofInsertions insertions).put (.vertex w)).vertices = putByKey Vertex.endpoint w _
        from rfl, find?_putByKey, ih]
      -- The vertex that is put in now is the last one, if it has the end asked for.
      by_cases hend : w.endpoint = endpoint <;> simp [Element.vertex?, hend]
    | edge e =>
      rw [show ((ofInsertions insertions).put (.edge e)).vertices =
        (ofInsertions insertions).vertices from rfl, ih]
      exact congrArg List.getLast? (List.append_nil _).symm

/-- Under a relation and an id, the edge is found that was put in last. -/
theorem find?_edges_ofInsertions (insertions : List Element) (key : Relation × String) :
    (ofInsertions insertions).edges.find? (·.key = key) =
      ((insertions.filterMap Element.edge?).filter (·.key = key)).getLast? := by
  induction insertions using List.reverseRecOn with
  | nil => rfl
  | append_singleton insertions element ih =>
    rw [ofInsertions_append_singleton, List.filterMap_append, List.filter_append]
    cases element with
    -- A vertex leaves the edges as they are.
    | vertex w =>
      rw [show ((ofInsertions insertions).put (.vertex w)).edges = (ofInsertions insertions).edges
        from rfl, ih]
      exact congrArg List.getLast? (List.append_nil _).symm
    -- The edge inserted last answers for its key.
    | edge e =>
      rw [show ((ofInsertions insertions).put (.edge e)).edges = putByKey Edge.key e _ from rfl,
        find?_putByKey, ih]
      by_cases hkey : e.key = key <;> simp [Element.edge?, hkey]

/-- **A document holds what was put in last**: ends and keys are unique in it, so what is found
under one is all there is. -/
theorem holdsLast_ofInsertions (insertions : List Element) :
    (ofInsertions insertions).HoldsLast insertions where
  vertex v := by
    rw [← find?_vertices_ofInsertions, find?_key_eq_some_iff Vertex.endpoint (nodup_vertices _)]
    exact (and_iff_left rfl).symm
  edge e := by
    rw [← find?_edges_ofInsertions, find?_key_eq_some_iff Edge.key (nodup_edges _)]
    exact (and_iff_left rfl).symm

/-- **The listing of a document is canonical.** After any insertions, in which elements of different
kinds may have one id, a document has the elements that were put in last of their kind with their
id. Whatever the order in which it is gone through, the listing is the same: the records of all
vertices and then those of all edges, each part by the bytes of the hashes, with equal hashes in the
order of the kinds and of the relations. Other insertions that lead to the same elements lead to the
same listing. -/
theorem canonical_records (insertions : List Element) :
    let document := ofInsertions insertions
    document.HoldsLast insertions ∧
      (∃ vertices edges, document.Lists vertices edges ∧
        document.records = vertices.map Vertex.record ++ edges.map Edge.record) ∧
      (∀ traversal : document.Traversal, traversal.records = document.records) ∧
      ∀ insertions', document.SameElements (ofInsertions insertions') →
        ∀ traversal : (ofInsertions insertions').Traversal,
          traversal.records = document.records := by
  intro document
  -- The listing is that of the traversal in the order of the insertions.
  have hrecords : document.inOrder.records = document.records := rfl
  rw [← hrecords]
  refine ⟨holdsLast_ofInsertions insertions, document.inOrder.exists_lists, fun traversal => ?_,
    fun insertions' hsame traversal => ?_⟩
  · exact traversal.records_eq document.inOrder (.refl document)
  · exact (document.inOrder.records_eq traversal hsame).symm

/-- An agent and an entity share an id, as do two edges, and the agent is put in again. Put in the
other way round, they are listed in the same way. -/
theorem canonical_records_shared :
    let agent (name : String) : Element :=
      .vertex (((Node.bare "a").note Key.name name).toVertex .agent)
    let entity : Element := .vertex ((Node.bare "a").toVertex .entity)
    let derivation : Element := .edge (.between .wasDerivedFrom "a" (.bare "a") (.bare "a"))
    let use : Element := .edge (.between .used "a" (.bare "b") (.bare "a"))
    let insertions := [derivation, entity, agent "S1", use, agent "S2"]
    let insertions' := [use, agent "S2", derivation, entity]
    (ofInsertions insertions).SameElements (ofInsertions insertions') ∧
      (ofInsertions insertions').records = (ofInsertions insertions).records ∧
      (ofInsertions insertions).records.map Record.kind =
        ["Agent", "Entity", "Used", "WasDerivedFrom"] := by
  intro agent entity derivation use insertions insertions'
  -- The repeated agent is in place of the first one, so nothing is left of `S1`.
  have hsame : (ofInsertions insertions).SameElements (ofInsertions insertions') := by
    have hvertices : (ofInsertions insertions).vertices.Perm (ofInsertions insertions').vertices :=
      by decide +kernel
    have hedges : (ofInsertions insertions).edges.Perm (ofInsertions insertions').edges := by
      decide +kernel
    exact ⟨fun v => hvertices.mem_iff, fun e => hedges.mem_iff⟩
  exact ⟨hsame, (canonical_records insertions).2.2.2 insertions' hsame (inOrder _), by cbv⟩

end Document

end Graph

end Lineage
