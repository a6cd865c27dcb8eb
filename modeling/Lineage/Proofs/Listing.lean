import Lineage.Proofs.Ends
import Lineage.Proofs.Forms

/-!
# Files of records and documents list the same graph

A file of records has a line for every element that was submitted, in the order of submission, and
the line is read back as the record of the element, whatever names and values it has
(`Graph.Record.decode_toJson`). A document has the records of its vertices and of its edges, each
part by increasing hash; in a run no two of a part have the same hash, so the order in which they
came is of no matter (`Graph.Record.sortedByHash_eq`). So the records of the file, sorted in the
same way, are those of the document (`Recorder.listing_run`).
-/

namespace Lineage

open Lineage.Graph Lineage.Json Session Telemetry

/-! ### Sorting by a text -/

section Sorting

variable {α : Type} (text : α → String)

/-- The order of texts is transitive, -/
theorem decide_le_trans (a b c : α) (hab : decide (text a ≤ text b) = true)
    (hbc : decide (text b ≤ text c) = true) : decide (text a ≤ text c) = true :=
  decide_eq_true (String.le_trans (of_decide_eq_true hab) (of_decide_eq_true hbc))

/-- and total. -/
theorem decide_le_total (a b : α) :
    (decide (text a ≤ text b) || decide (text b ≤ text a)) = true := by
  rw [← Bool.decide_or]
  exact decide_eq_true (String.le_total (text a) (text b))

/-- What is sorted by a text does not decrease in it. -/
theorem pairwise_mergeSort_text (xs : List α) :
    (xs.mergeSort fun a b => decide (text a ≤ text b)).Pairwise fun a b => text a ≤ text b :=
  (List.pairwise_mergeSort (decide_le_trans text) (decide_le_total text) xs).imp of_decide_eq_true

end Sorting

namespace Graph

namespace Record

/-! ### Listings -/

/-- Whether a record is one of a vertex: those have no ends. -/
def isVertex (record : Record) : Bool :=
  record.source.isNone && record.destination.isNone

/-- Sorting by hash takes no notice of the order before, if no two records have the same hash. -/
theorem sortedByHash_eq {records records' : List Record} (h : records.Perm records')
    (hhashes : (records.map hash).Nodup) : sortedByHash records = sortedByHash records' := by
  have hperm : (sortedByHash records).Perm (sortedByHash records') :=
    (List.mergeSort_perm ..).trans (h.trans (List.mergeSort_perm ..).symm)
  refine hperm.eq_of_pairwise ?_ (pairwise_mergeSort_text hash records)
    (pairwise_mergeSort_text hash records')
  -- Records with one hash are one record, so the order has no ties.
  intro a b ha hb hab hba
  have ha' : a ∈ records := (List.mergeSort_perm ..).mem_iff.1 ha
  have hb' : b ∈ records := h.mem_iff.2 ((List.mergeSort_perm ..).mem_iff.1 hb)
  exact List.inj_on_of_nodup_map hhashes ha' hb' (String.le_antisymm hab hba)

end Record

/-- Grouping by a key only changes the order. -/
theorem flatMap_filter_perm {α κ : Type} [DecidableEq κ] (key : α → κ) (xs : List α)
    {keys : List κ} (h : keys.Nodup) :
    (keys.flatMap fun k => xs.filter (key · = k)).Perm (xs.filter (key · ∈ keys)) := by
  induction keys with
  | nil => simp
  | cons k keys ih =>
    rw [List.nodup_cons] at h
    -- The elements with one of the keys are those with the first one and those with one of the
    -- others.
    have hfirst : (xs.filter (key · ∈ k :: keys)).filter (key · = k) = xs.filter (key · = k) := by
      rw [List.filter_filter]
      refine List.filter_congr fun x _ => ?_
      simp +contextual
    have hothers : (xs.filter (key · ∈ k :: keys)).filter (fun x => !decide (key x = k)) =
        xs.filter (key · ∈ keys) := by
      rw [List.filter_filter]
      refine List.filter_congr fun x _ => ?_
      by_cases hx : key x = k
      · simp [hx, h.1]
      · simp [hx]
    have hsplit := List.filter_append_perm (key · = k) (xs.filter (key · ∈ k :: keys))
    rw [hfirst, hothers] at hsplit
    rw [List.flatMap_cons]
    exact ((ih h.2).append_left _).trans hsplit

namespace Document

variable (document : Document)

/-- The kinds are all that there are. -/
theorem flatMap_verticesOf_perm :
    (VertexKind.all.flatMap document.verticesOf).Perm document.vertices := by
  have hkinds : VertexKind.all.Nodup := by decide
  have hall : document.vertices.filter (·.kind ∈ VertexKind.all) = document.vertices := by
    refine List.filter_eq_self.2 fun v _ => ?_
    cases v.kind <;> rfl
  have hperm := flatMap_filter_perm Vertex.kind document.vertices hkinds
  -- No vertex is of a kind that is left out.
  rw [hall] at hperm
  exact hperm

/-- The relations are all that there are. -/
theorem flatMap_edgesOf_perm : (Relation.all.flatMap document.edgesOf).Perm document.edges := by
  have hrelations : Relation.all.Nodup := by decide
  have hall : document.edges.filter (·.relation ∈ Relation.all) = document.edges := by
    refine List.filter_eq_self.2 fun e _ => ?_
    cases e.relation <;> rfl
  have hperm := flatMap_filter_perm Edge.relation document.edges hrelations
  rw [hall] at hperm
  exact hperm

/-- Up to their order, the records of vertices are those of all vertices. -/
theorem vertexRecords_perm : document.vertexRecords.Perm (document.vertices.map Vertex.record) := by
  rw [vertexRecords, ← List.map_flatMap]
  exact document.flatMap_verticesOf_perm.map _

/-- And those of edges are those of all edges. -/
theorem edgeRecords_perm : document.edgeRecords.Perm (document.edges.map Edge.record) := by
  rw [edgeRecords, ← List.map_flatMap]
  exact document.flatMap_edgesOf_perm.map _

end Document

/-! ### Files of lines -/

namespace RecordFile

/-- The lines of a file, up to its last line end. What waits to be written counts for nothing. -/
def lines (file : RecordFile) : List (List Char) :=
  (file.written.toList.splitOn '\n').dropLast

/-- Nothing is written before a flush. -/
theorem written_submitAll (file : RecordFile) (elements : List Element) :
    (Sink.submitAll file elements).1.written = file.written := by
  induction elements generalizing file with
  | nil => rfl
  | cons element elements ih => exact ih (file.append element)

/-- Until then a line waits for every element, in their order. -/
theorem toList_pending_submitAll (file : RecordFile) (elements : List Element) :
    (Sink.submitAll file elements).1.pending.toList =
      file.pending.toList ++
        elements.flatMap fun element => element.record.toJson.render ++ ['\n'] := by
  induction elements generalizing file with
  | nil => exact (List.append_nil _).symm
  | cons element elements ih =>
    have hfirst : (file.append element).pending.toList =
        file.pending.toList ++ (element.record.toJson.render ++ ['\n']) := by
      simp [append, Record.line, Value.compact]
    rw [List.flatMap_cons, ← List.append_assoc, ← hfirst]
    exact ih (file.append element)

/-- What a file holds that was opened, given some elements and flushed. -/
theorem toList_written_flush (prior : String) (elements : List Element) :
    (Sink.flush (Sink.submitAll (opened prior) elements).1).1.written.toList =
      prior.toList ++
        elements.flatMap fun element => element.record.toJson.render ++ ['\n'] := by
  -- A flush writes what waits behind what is written.
  show ((Sink.submitAll (opened prior) elements).1.written ++
    (Sink.submitAll (opened prior) elements).1.pending).toList = _
  rw [String.toList_append, written_submitAll, toList_pending_submitAll]
  rfl

/-- Lines without line ends are found again, and what stands behind the last line end. -/
theorem splitOn_flatMap_lines {lines : List (List Char)} {last : List Char}
    (h : ∀ line ∈ lines, '\n' ∉ line) (hlast : '\n' ∉ last) :
    (lines.flatMap (· ++ ['\n']) ++ last).splitOn '\n' = lines ++ [last] := by
  induction lines with
  | nil => exact List.splitOn_eq_singleton hlast
  | cons line lines ih =>
    have hrest := ih fun line hmem => h line (List.mem_cons_of_mem _ hmem)
    rw [List.flatMap_cons, List.append_assoc, List.append_assoc, List.singleton_append,
      List.splitOn_append_cons_self_of_not_mem (h line List.mem_cons_self), hrest, List.cons_append]

/-- A file that was empty has a line for every element that it was given, in their order, and
nothing behind. -/
theorem splitOn_submitAll (elements : List Element) :
    (Sink.flush (Sink.submitAll empty elements).1).1.written.toList.splitOn '\n' =
      elements.map (fun element => element.record.toJson.render) ++ [[]] := by
  -- A record is written without line ends.
  have hlines : ∀ line ∈ elements.map fun element => element.record.toJson.render, '\n' ∉ line := by
    intro line hmem
    obtain ⟨element, -, rfl⟩ := List.mem_map.1 hmem
    exact element.record.newline_notMem_render
  have hsplit := splitOn_flatMap_lines hlines List.not_mem_nil
  rw [List.flatMap_map, List.append_nil] at hsplit
  rw [empty, toList_written_flush]
  exact hsplit

/-- The lines of the file are the written records. -/
theorem lines_submitAll (elements : List Element) :
    (Sink.flush (Sink.submitAll empty elements).1).1.lines =
      elements.map fun element => element.record.toJson.render := by
  rw [lines, splitOn_submitAll, List.dropLast_concat]

end RecordFile

/-! ### Records of elements -/

/-- Of the records of elements, those without ends are those of the vertices. -/
theorem filter_isVertex_records (elements : List Element) :
    (elements.map Element.record).filter Record.isVertex =
      (elements.filterMap Element.vertex?).map Vertex.record := by
  induction elements with
  | nil => rfl
  | cons element elements ih =>
    cases element with
    | vertex v => exact congrArg (v.record :: ·) ih
    | edge e => exact ih

/-- And the others are those of the edges. -/
theorem filter_not_isVertex_records (elements : List Element) :
    (elements.map Element.record).filter (fun record => !record.isVertex) =
      (elements.filterMap Element.edge?).map Edge.record := by
  induction elements with
  | nil => rfl
  | cons element elements ih =>
    cases element with
    | vertex v => exact ih
    | edge e => exact congrArg (e.record :: ·) ih

/-- A file and a document list the same elements. -/
structure SameListing (file : RecordFile) (document : Document) (elements : List Element)
    (records : List Record) : Prop where
  /-- Nothing stands behind the last line end of the file. -/
  closed : file.written.toList.splitOn '\n' = file.lines ++ [[]]
  /-- Every line is read as a record. -/
  parsed : file.lines.map (decode Record.reader) = records.map .ok
  /-- There is a record for each element, in their order. -/
  inOrder : records = elements.map Element.record
  /-- Sorted by their hashes, first those of vertices and then those of edges, the records are those
  of the document. -/
  sorted : document.records = Record.sortedByHash (records.filter Record.isVertex) ++
    Record.sortedByHash (records.filter fun record => !record.isVertex)

/-- A file and a document that are given the same elements list the same, if the ids of the elements
are different. -/
theorem sameListing_submitAll {elements : List Element}
    (hvertices : ((elements.filterMap Element.vertex?).map fun v => v.id).Nodup)
    (hedges : ((elements.filterMap Element.edge?).map Edge.id).Nodup) :
    SameListing (Sink.flush (Sink.submitAll RecordFile.empty elements).1).1
      (Sink.submitAll Document.empty elements).1 elements (elements.map Element.record) where
  closed := by rw [RecordFile.splitOn_submitAll, RecordFile.lines_submitAll]
  parsed := by
    rw [RecordFile.lines_submitAll, List.map_map, List.map_map]
    exact List.map_congr_left fun element _ => element.record.decode_toJson
  inOrder := rfl
  sorted := by
    -- The document has kept all elements, so its records are those of the elements but for their
    -- order.
    obtain ⟨hv, he⟩ := Document.submitAll_of_nodup Document.empty elements hvertices hedges
    have hvertexRecords := (Sink.submitAll Document.empty elements).1.vertexRecords_perm
    have hedgeRecords := (Sink.submitAll Document.empty elements).1.edgeRecords_perm
    rw [hv] at hvertexRecords
    rw [he] at hedgeRecords
    rw [filter_isVertex_records, filter_not_isVertex_records, Document.records]
    congr 1
    · refine (Record.sortedByHash_eq hvertexRecords.symm ?_).symm
      rw [List.map_map]
      exact hvertices
    · refine (Record.sortedByHash_eq hedgeRecords.symm ?_).symm
      rw [List.map_map]
      exact hedges

end Graph

/-- **A file of records and a document list the same graph.** After a run of a fresh recorder, the
file that was empty has a line for each element that was submitted, in their order, every line is
read as the record of its element, and sorted in the way of the listing the records are those of the
document that was empty before the same run. -/
theorem Recorder.listing_run (retention : Retention) (calls : List Call) :
    ∃ records, SameListing ((start retention RecordFile.empty).run calls).recorder.flush.1.sink
      ((start retention Document.empty).run calls).recorder.flush.1.sink
      (submitted retention RecordFile.empty calls) records := by
  -- The runs differ in their sinks only, so both are given the same submissions.
  have hfile : ((start retention RecordFile.empty).run calls).recorder.flush.1.sink =
      (Sink.flush (Sink.submitAll RecordFile.empty
        ((Session.start retention).submissions (calls.map Call.input))).1).1 :=
    congrArg (fun sink => (Sink.flush sink).1) (sink_run _ calls)
  have hdocument : ((start retention Document.empty).run calls).recorder.flush.1.sink =
      (Sink.submitAll Document.empty
        ((Session.start retention).submissions (calls.map Call.input))).1 :=
    sink_run _ calls
  rw [hfile, hdocument, submitted_eq]
  exact ⟨_, sameListing_submitAll (nodup_id_vertices _ _) (nodup_id_edges _ _)⟩

end Lineage
