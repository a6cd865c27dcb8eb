import Lineage.Proofs.Delivery
import Lineage.Proofs.Observations

/-!
# Derivations are the steps of histories

Behind a recorder that keeps all of its histories, a document in memory tells the same as the
histories do: its derivations are the steps of the histories of the cells, each of them once
(`Recorder.derivations_run`).

The table of cells, the edges that are numbered and the document are updated apart from each other.
They are brought together in three moves.

* The history of a cell is what is retained of the announcements about the cell, and it has a step
  for each change that the table reports (`history_start_after`, `CellTable.mem_changes`).
* The derivations of the run are these changes, one for one (`Session.derivations_edges`).
* The document holds the vertices and the edges of the run (`Recorder.document_run`).

A change joins two announcements that tell the state of one cell and whose values differ
(`exists_of_mem_changes`). Since ids tell announcements apart, no entity is on one side of two
changes: not within the history of a cell, where it occurs once, and not across cells, as it is
about one cell only.
-/

namespace Lineage

open Lineage.Graph Session Session.CellTable Telemetry

/-- A document tells the derivations of some histories: those that it holds are their steps. -/
structure Graph.Document.DerivesBy (document : Document) (history : Cell → List Node) : Prop where
  /-- The derivations are the steps of the histories, from the later state to the earlier one. -/
  steps : ∀ source destination,
    (source, destination) ∈ (document.edgesOf .wasDerivedFrom).map
        (fun edge => (edge.source, edge.destination)) ↔
      ∃ cell i previous current,
        (history cell)[i]? = some previous ∧ (history cell)[i + 1]? = some current ∧
          source = current.id ∧ destination = previous.id
  /-- No step is told twice. -/
  nodup : ((document.edgesOf .wasDerivedFrom).map fun edge => (edge.source, edge.destination)).Nodup
  /-- Both ends are in the document. They are about the same cell, and they have the two values that
  the edge tells, which differ. -/
  ends : ∀ edge ∈ document.edgesOf .wasDerivedFrom, ∃ generated used cell before after,
    document.vertex? edge.sourceEnd = some generated ∧
      document.vertex? edge.destinationEnd = some used ∧
      Cell.ofNode? generated.toNode = some cell ∧ Cell.ofNode? used.toNode = some cell ∧
      edge.get? Key.previousValue = some before ∧ used.get? Key.value = some before ∧
      edge.get? Key.value = some after ∧ generated.get? Key.value = some after ∧ before ≠ after
  /-- No entity is derived twice. -/
  nodup_generated : ((document.edgesOf .wasDerivedFrom).map Edge.source).Nodup
  /-- From no entity two are derived. -/
  nodup_used : ((document.edgesOf .wasDerivedFrom).map Edge.destination).Nodup

section Histories

variable {inputs : List (Except MessageError Message)} {cell : Cell} {change : Change}

/-- With all of it kept, the history of a cell is what is retained of the announcements
about the cell. -/
theorem history_start_after (h : ∀ a ∈ announcementsFrom 0 inputs, a.message.WellFormed)
    (cell : Cell) :
    ((Session.start .full).after inputs).cells.history cell =
      (retained Announcement.isWrite Announcement.value?
        ((announcementsFrom 0 inputs).filter (·.cell? = some cell))).map Announcement.node := by
  rw [cells_after, ← retained_about_observationsOf h]
  -- The cells are those of an empty table to which all announcements were shown.
  exact history_observeAll _ _

/-- A change is from one announcement about its cell to another one with another value. -/
theorem exists_of_mem_changes (h : ∀ a ∈ announcementsFrom 0 inputs, a.message.WellFormed)
    (hchange : (cell, change) ∈ (empty .full).changes
      (observationsOf (announcementsFrom 0 inputs))) :
    ∃ a ∈ announcementsFrom 0 inputs, ∃ b ∈ announcementsFrom 0 inputs,
      a.Tells cell ∧ b.Tells cell ∧ a.value? ≠ b.value? ∧ change = ⟨a.node, b.node⟩ := by
  -- A change is a step of a history, and a history is retained of announcements about its cell.
  rw [mem_changes, history_observeAll, retained_about_observationsOf h, stepsOf_map, List.mem_map]
    at hchange
  obtain ⟨⟨a, b⟩, hstep, hends⟩ := hchange
  have hmem : ∀ c ∈ retained Announcement.isWrite Announcement.value?
      ((announcementsFrom 0 inputs).filter (·.cell? = some cell)), c ∈ announcementsFrom 0 inputs ∧
      c.Tells cell := by
    intro c hc
    obtain ⟨hc, hcell⟩ := List.mem_filter.1 ((retained_sublist _).subset hc)
    exact ⟨hc, Announcement.tells_of_cell? (h c hc) (of_decide_eq_true hcell)⟩
  obtain ⟨ha, hb⟩ := mem_of_mem_stepsOf hstep
  obtain ⟨hprevious, hcurrent⟩ := Prod.mk.inj hends
  refine ⟨a, (hmem a ha).1, b, (hmem b hb).1, (hmem a ha).2, (hmem b hb).2, ?_, ?_⟩
  · -- Neighbours in what is retained have different values.
    exact rel_of_mem_stepsOf (isChain_retained _) hstep
  · cases change
    exact congr (congrArg Change.mk hprevious.symm) hcurrent.symm

/-- No vertex is twice in the history of a cell. -/
theorem nodup_id_history (h : ∀ a ∈ announcementsFrom 0 inputs, a.message.WellFormed)
    (cell : Cell) :
    ((((Session.start .full).after inputs).cells.history cell).map Node.id).Nodup := by
  rw [history_start_after h, List.map_map]
  exact (nodup_id_announcements 0 inputs).sublist
    (((retained_sublist _).trans List.filter_sublist).map _)

/-- Changes of different cells have no states in common. -/
theorem cell_eq_of_id_eq {a b : Announcement} {cell cell' : Cell}
    (ha : a ∈ announcementsFrom 0 inputs) (hb : b ∈ announcementsFrom 0 inputs)
    (hcell : a.Tells cell) (hcell' : b.Tells cell') (hid : a.node.id = b.node.id) :
    cell = cell' := by
  -- With one id they are one announcement, and that is about one cell.
  obtain rfl := eq_of_mem_announcementsFrom ha hb hid
  exact Option.some.inj (hcell.cell?_eq.symm.trans hcell'.cell?_eq)

/-- No entity is more than once on one side of a change. -/
theorem nodup_id_changes (h : ∀ a ∈ announcementsFrom 0 inputs, a.message.WellFormed)
    (side : Node × Node → Node) (hone : ∀ step, side step = step.1 ∨ side step = step.2)
    (honce : ∀ history : List Node, ((stepsOf history).map side).Sublist history) :
    (((empty .full).changes (observationsOf (announcementsFrom 0 inputs))).map fun change =>
      (side (change.2.previous, change.2.current)).id).Nodup := by
  refine nodup_map_of_parts (fun change : Cell × Change => change.1) (fun cell => ?_) ?_
  · -- Within the history of a cell every state occurs once.
    have hhistory := nodup_id_history h cell
    rw [cells_after] at hhistory
    have hsteps := congrArg (List.map fun step => (side step).id)
      (changes_observeAll (observationsOf (announcementsFrom 0 inputs)) cell)
    rw [List.map_map] at hsteps
    refine (congrArg List.Nodup hsteps).mpr ?_
    rw [show (fun step => (side step).id) = Node.id ∘ side from rfl, ← List.map_map]
    exact hhistory.sublist ((honce _).map _)
  · -- A state of two cells would be two announcements with one id.
    rintro ⟨cell, change⟩ hchange ⟨cell', change'⟩ hchange' hid
    obtain ⟨a, ha, b, hb, hcella, hcellb, -, rfl⟩ := exists_of_mem_changes h hchange
    obtain ⟨a', ha', b', hb', hcella', hcellb', -, rfl⟩ := exists_of_mem_changes h hchange'
    rcases hone (a.node, b.node) with he | he <;> rcases hone (a'.node, b'.node) with he' | he' <;>
      simp only [he, he'] at hid
    · exact cell_eq_of_id_eq ha ha' hcella hcella' hid
    · exact cell_eq_of_id_eq ha hb' hcella hcellb' hid
    · exact cell_eq_of_id_eq hb ha' hcellb hcella' hid
    · exact cell_eq_of_id_eq hb hb' hcellb hcellb' hid

end Histories

/-- Each derivation joins the two states of its change, the later one first. -/
theorem map_ends_of_derives {changes : List (Cell × Change)} {edges : List Edge}
    (h : List.Forall₂ Derives changes edges) :
    edges.map (fun edge => (edge.source, edge.destination)) =
      changes.map fun change => (change.2.current.id, change.2.previous.id) := by
  induction h with
  | nil => rfl
  | cons hedge _ ih =>
    obtain ⟨number, operation, rfl⟩ := hedge
    rw [List.map_cons, List.map_cons, ih]
    rfl

/-- What stands in the second row has a partner in the first. -/
theorem exists_mem_of_forall₂ {α β : Type} {R : α → β → Prop} {as : List α} {bs : List β}
    (h : List.Forall₂ R as bs) {b : β} (hmem : b ∈ bs) : ∃ a ∈ as, R a b := by
  induction h with
  | nil => exact absurd hmem (by simp)
  | cons hrel _ ih =>
    rcases List.mem_cons.1 hmem with rfl | hmem
    · exact ⟨_, List.mem_cons_self, hrel⟩
    · obtain ⟨a, ha, hrel⟩ := ih hmem
      exact ⟨a, List.mem_cons_of_mem _ ha, hrel⟩

/-- A derivation tells the values of the two states. -/
theorem values_derivationEdge (number : Nat) (operation : Operation) {previous current : Node}
    {before after : String} (hbefore : previous.get? Key.value = some before)
    (hafter : current.get? Key.value = some after) :
    (derivationEdge number operation ⟨previous, current⟩).get? Key.previousValue = some before ∧
      (derivationEdge number operation ⟨previous, current⟩).get? Key.value = some after := by
  -- The two values are noted under two keys, so neither is written over.
  have hkeys : Key.previousValue ≠ Key.value := by decide
  constructor
  · simp [derivationEdge, Edge.get?, Edge.note, Change.previousValue, hbefore, hkeys]
  · simp [derivationEdge, Edge.get?, Edge.note, Change.currentValue, hafter]

/-- Changes are from one neighbour in a history to the next. -/
theorem mem_map_ends_changes {observations : List (Operation × Node)}
    {source destination : String} :
    (source, destination) ∈ ((empty .full).changes observations).map
        (fun change => (change.2.current.id, change.2.previous.id)) ↔
      ∃ cell i previous current,
        (((empty .full).observeAll observations).history cell)[i]? = some previous ∧
        (((empty .full).observeAll observations).history cell)[i + 1]? = some current ∧
        source = current.id ∧ destination = previous.id := by
  rw [List.mem_map]
  -- A change is a step in the history of its cell, and the other way round.
  constructor
  · rintro ⟨⟨cell, change⟩, hchange, hpair⟩
    obtain ⟨i, hprevious, hcurrent⟩ := mem_stepsOf.1 (mem_changes.1 hchange)
    obtain ⟨rfl, rfl⟩ := Prod.mk.inj hpair
    exact ⟨cell, i, change.previous, change.current, hprevious, hcurrent, rfl, rfl⟩
  · rintro ⟨cell, i, previous, current, hprevious, hcurrent, rfl, rfl⟩
    exact ⟨(cell, ⟨previous, current⟩), mem_changes.2 (mem_stepsOf.2 ⟨i, hprevious, hcurrent⟩), rfl⟩

/-- The derivation of a change joins two announcements about its cell and tells their values,
which differ. -/
theorem exists_announcements_of_derives {inputs : List (Except MessageError Message)}
    (h : ∀ a ∈ announcementsFrom 0 inputs, a.message.WellFormed) {change : Cell × Change}
    {edge : Edge}
    (hchange : change ∈ (empty .full).changes (observationsOf (announcementsFrom 0 inputs)))
    (hedge : Derives change edge) :
    ∃ a ∈ announcementsFrom 0 inputs, ∃ b ∈ announcementsFrom 0 inputs, ∃ before after,
      a.Tells change.1 ∧ b.Tells change.1 ∧
        edge.sourceEnd = b.vertex.endpoint ∧ edge.destinationEnd = a.vertex.endpoint ∧
        edge.get? Key.previousValue = some before ∧ a.node.get? Key.value = some before ∧
        edge.get? Key.value = some after ∧ b.node.get? Key.value = some after ∧ before ≠ after := by
  obtain ⟨cell, change⟩ := change
  obtain ⟨number, operation, rfl⟩ := hedge
  obtain ⟨a, ha, b, hb, hcella, hcellb, hvalues, rfl⟩ := exists_of_mem_changes h hchange
  obtain ⟨before, hbefore⟩ := Option.isSome_iff_exists.1 hcella.isSome_value?
  obtain ⟨after, hafter⟩ := Option.isSome_iff_exists.1 hcellb.isSome_value?
  have hbefore' : a.node.get? Key.value = some before := hcella.value_eq.trans hbefore
  have hafter' : b.node.get? Key.value = some after := hcellb.value_eq.trans hafter
  obtain ⟨hprevious, hcurrent⟩ := values_derivationEdge number operation hbefore' hafter'
  refine ⟨a, ha, b, hb, before, after, hcella, hcellb, hcellb.endpoint_eq.symm,
    hcella.endpoint_eq.symm, hprevious, hbefore', hcurrent, hafter', ?_⟩
  -- Equal values would be no change.
  rintro rfl
  exact hvalues (hbefore.trans hafter.symm)

/-- **Derivations are the steps of histories.** After a run behind a recorder that keeps all of its
histories, the history of a cell is the first announcement about it, whatever was done, with the
later ones that wrote another value than the one retained before; and the derivations in the
document are the steps of these histories, each once. -/
theorem Recorder.derivations_run (calls : List Call) :
    (∀ cell, ((Recorder.start .full Document.empty).run calls).recorder.session.cells.history cell =
      (retained Announcement.isWrite Announcement.value?
        ((announcementsFrom 0 (calls.map Call.input)).filter (·.cell? = some cell))).map
          Announcement.node) ∧
      ((Recorder.start .full Document.empty).run calls).recorder.sink.DerivesBy
        ((Recorder.start .full Document.empty).run calls).recorder.session.cells.history := by
  have hwell : ∀ a ∈ announcementsFrom 0 (calls.map Call.input), a.message.WellFormed :=
    fun a ha => Call.wellFormed_of_mem (mem_of_mem_announcementsFrom ha)
  have hsession : ((Recorder.start .full Document.empty).run calls).recorder.session =
      (Session.start .full).after (calls.map Call.input) := Recorder.session_run _ _
  have hderives : List.Forall₂ Derives
      ((empty .full).changes (observationsOf (announcementsFrom 0 (calls.map Call.input))))
      (((Recorder.start .full Document.empty).run calls).recorder.sink.edgesOf
        .wasDerivedFrom) := by
    rw [Document.edgesOf, (Recorder.document_run .full calls).2]
    exact derivations_edges (Session.start .full) _
  -- The derivations are followed back to the changes, and the changes to the histories.
  have hends := map_ends_of_derives hderives
  have hgenerated := nodup_id_changes hwell Prod.snd (fun step => .inr rfl) fun history =>
    (map_snd_stepsOf history).symm ▸ List.tail_sublist history
  have hused := nodup_id_changes hwell Prod.fst (fun step => .inl rfl) map_fst_stepsOf_sublist
  rw [hsession]
  refine ⟨history_start_after hwell, ?_, ?_, ?_, ?_, ?_⟩
  · -- What the edges join are the changes, and these are neighbours in a history.
    intro source destination
    simp only [hends, cells_after]
    exact mem_map_ends_changes
  · -- No pair occurs again, as not even its first component does.
    rw [hends]
    refine List.Nodup.of_map Prod.fst ?_
    rw [List.map_map]
    exact hgenerated
  · intro edge hedge
    obtain ⟨change, hchange, hderived⟩ := exists_mem_of_forall₂ hderives hedge
    obtain ⟨a, ha, b, hb, before, after, hcella, hcellb, hsource, hdestination, hvalues⟩ :=
      exists_announcements_of_derives hwell hchange hderived
    refine ⟨b.vertex, a.vertex, change.1, before, after, ?_, ?_, hcellb.ofNode?_eq,
      hcella.ofNode?_eq, hvalues⟩
    · rw [hsource]
      exact vertex?_document_run .full calls hb
    · rw [hdestination]
      exact vertex?_document_run .full calls ha
  · have hsources := congrArg (List.map Prod.fst) hends
    rw [List.map_map, List.map_map] at hsources
    exact (congrArg List.Nodup hsources).mpr hgenerated
  · have hdestinations := congrArg (List.map Prod.snd) hends
    rw [List.map_map, List.map_map] at hdestinations
    exact (congrArg List.Nodup hdestinations).mpr hused

end Lineage
