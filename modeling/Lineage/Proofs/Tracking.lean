import Lineage.Proofs.CellHistory
import Mathlib.Data.List.Dedup

/-!
# What a table of cells keeps track of

A table that is shown entities of any kind, one after the other, comes to the change history of
each cell (`Session.CellTable.tracking_run`). Only entities that are about a cell and have a
value matter, and each of them matters for its own cell alone. The table knows just the cells of
these entities, each of them once (`Session.CellTable.size_observeAll`), and every cell that it
knows has a state.

An observation is answered by a change or by none. `Session.CellTable.answered` are the changes that
the entities of a cell were answered by; with the whole history kept, they are its steps
(`Session.CellTable.answered_eq`).
-/

namespace Lineage.Session.CellTable

open Lineage.Graph Telemetry

/-! ### Which entities matter -/

/-- An entity is about a cell and has a value just if it has the three annotations of the cell and
one of a value. -/
theorem sighted?_eq_some_iff {entity : Node} {cell : Cell} : sighted? entity = some cell ↔
    entity.get? Key.name = some cell.name ∧ entity.get? Key.agentId = some cell.agentId ∧
      entity.get? Key.index = some cell.index ∧ (entity.get? Key.value).isSome = true := by
  obtain ⟨name, agentId, index⟩ := cell
  unfold sighted? Cell.ofNode?
  -- Any one of the four annotations may be missing, and then there is no cell on either side.
  cases entity.get? Key.name <;> cases entity.get? Key.agentId <;> cases entity.get? Key.index <;>
    cases entity.get? Key.value <;> simp

/-- An entity that is seen to be about a cell is about it. -/
theorem ofNode?_of_sighted {entity : Node} {cell : Cell} (h : sighted? entity = some cell) :
    Cell.ofNode? entity = some cell := by
  obtain ⟨hname, hagent, hindex, -⟩ := sighted?_eq_some_iff.1 h
  rw [Cell.ofNode?, hname, hagent, hindex]

section Overlooked

variable (table : CellTable) (operation : Operation) {entity : Node}

/-- An entity without a cell or a value brings about no change, and is forgotten. -/
theorem observe_of_overlooked (h : sighted? entity = none) :
    (table.observe operation entity).1 = table ∧
      (table.observe operation entity).2.change? = none := by
  have hobserves := table.observes operation entity
  have hchange := hobserves.change_eq
  rw [h, Option.bind_none] at hchange
  refine ⟨?_, ?_⟩
  · -- All other cases are about an entity that is seen.
    generalize (table.observe operation entity).1 = next at hobserves
    generalize (table.observe operation entity).2.cellChange? = change at hobserves
    cases hobserves with
    | overlooked hsighted => rfl
    | seeded hsighted hnew => exact nomatch h.symm.trans hsighted
    | changed hsighted hknown hwrite hvalue => exact nomatch h.symm.trans hsighted
    | unchanged hsighted hknown hsame => rfl
  · rw [← Observation.map_snd_cellChange?, hchange]
    rfl

/-- An entity is of no matter for the cells that it is not about. -/
theorem history_observe_of_ne {cell : Cell} (h : sighted? entity ≠ some cell) :
    (table.observe operation entity).1.history cell = table.history cell := by
  rw [history, history, (table.observes operation entity).history?_of_ne h]

end Overlooked

/-! ### Answers -/

/-- The answers to some observations, one after the other. -/
def answers (table : CellTable) : List (Operation × Node) → List Observation
  | [] => []
  | (operation, entity) :: observations =>
    (table.observe operation entity).2 :: answers (table.observe operation entity).1 observations

/-- The changes that the entities of a cell are answered by. -/
def answered (table : CellTable) (cell : Cell) (observations : List (Operation × Node)) :
    List Change :=
  ((observations.zip (table.answers observations)).filter
    fun call => Cell.ofNode? call.1.2 = some cell).filterMap fun call => call.2.change?

/-- What the first entity is answered by counts if it is of the cell. -/
theorem answered_cons (table : CellTable) (cell : Cell) (operation : Operation) (entity : Node)
    (observations : List (Operation × Node)) :
    table.answered cell ((operation, entity) :: observations) =
      (if Cell.ofNode? entity = some cell then (table.observe operation entity).2.change?
        else none).toList ++
        (table.observe operation entity).1.answered cell observations := by
  by_cases hcell : Cell.ofNode? entity = some cell
  · rw [if_pos hcell, answered, answers, List.zip_cons_cons,
      List.filter_cons_of_pos (by simp [hcell]), List.filterMap_cons]
    cases (table.observe operation entity).2.change? <;> rfl
  · -- An entity of another cell is filtered out with its answer.
    rw [if_neg hcell, answered, answers, List.zip_cons_cons,
      List.filter_cons_of_neg (by simp [hcell])]
    rfl

/-- The change that an entity is answered by is one of its own cell. -/
theorem answered_eq_map_changes (table : CellTable) (cell : Cell)
    (observations : List (Operation × Node)) :
    table.answered cell observations =
      ((table.changes observations).filter (·.1 = cell)).map (·.2) := by
  induction observations generalizing table with
  | nil => rfl
  | cons observation observations ih =>
    obtain ⟨operation, entity⟩ := observation
    have hfirst :
        (if Cell.ofNode? entity = some cell then (table.observe operation entity).2.change?
          else none).toList =
          ((table.observe operation entity).2.cellChange?.toList.filter (·.1 = cell)).map
            (·.2) := by
      have hobserves := table.observes operation entity
      rw [← Observation.map_snd_cellChange?]
      generalize (table.observe operation entity).2.cellChange? = change at hobserves ⊢
      cases change with
      | none => split <;> rfl
      -- Whoever brings about a change is seen, and the change is filed under its cell.
      | some change =>
        obtain ⟨own, change⟩ := change
        rw [ofNode?_of_sighted hobserves.sighted_of_change]
        by_cases hown : own = cell <;> simp [hown]
    rw [answered_cons, ih, hfirst, changes, List.filter_append, List.map_append]

/-- **The changes that the entities of a cell are answered by** are the steps of its history, if all
of it is kept. -/
theorem answered_eq (cell : Cell) (observations : List (Operation × Node)) :
    ((empty .full).answered cell observations).map
        (fun change => (change.previous, change.current)) =
      stepsOf (((empty .full).observeAll observations).history cell) := by
  rw [answered_eq_map_changes, List.map_map, ← changes_observeAll]
  rfl

/-! ### Cells that are known -/

/-- The cells that some entities are seen to be about. -/
def cellsOf (observations : List (Operation × Node)) : List Cell :=
  observations.filterMap fun observation => sighted? observation.2

/-- A table comes to know the cell of an entity, and no other one. -/
theorem history_observe_ne_nil (table : CellTable) (operation : Operation) (entity : Node)
    (cell : Cell) :
    (table.observe operation entity).1.history cell ≠ [] ↔
      table.history cell ≠ [] ∨ sighted? entity = some cell := by
  by_cases hcell : sighted? entity = some cell
  · -- The cell has a latest state, be it this entity or one before.
    have hlatest := (table.observes operation entity).latest?_eq hcell
    rw [← getLast?_history] at hlatest
    refine iff_of_true (fun hnil => ?_) (.inr hcell)
    rw [hnil] at hlatest
    cases hlatest
  · rw [table.history_observe_of_ne operation hcell, or_iff_left hcell]

/-- After some entities a table knows the cells that it knew and those of the entities. -/
theorem history_observeAll_ne_nil (table : CellTable) (observations : List (Operation × Node))
    (cell : Cell) :
    (table.observeAll observations).history cell ≠ [] ↔
      table.history cell ≠ [] ∨ cell ∈ cellsOf observations := by
  induction observations generalizing table with
  | nil => exact (or_iff_left List.not_mem_nil).symm
  | cons observation observations ih =>
    have hcells : cell ∈ cellsOf (observation :: observations) ↔
        sighted? observation.2 = some cell ∨ cell ∈ cellsOf observations := by
      simp [cellsOf]
    -- One entity adds its cell, and `ih` adds the others.
    calc (table.observeAll (observation :: observations)).history cell ≠ []
        ↔ (table.observe observation.1 observation.2).1.history cell ≠ [] ∨
            cell ∈ cellsOf observations := ih _
      _ ↔ (table.history cell ≠ [] ∨ sighted? observation.2 = some cell) ∨
            cell ∈ cellsOf observations := by
        rw [history_observe_ne_nil]
      _ ↔ table.history cell ≠ [] ∨ cell ∈ cellsOf (observation :: observations) := by
        rw [or_assoc, hcells]

/-- A fresh table comes to know the cells that entities are seen to be about, each of them once. -/
theorem size_observeAll (retention : Retention) (observations : List (Operation × Node)) :
    ((empty retention).observeAll observations).size = (cellsOf observations).dedup.length := by
  have hmem : ∀ cell, cell ∈ ((empty retention).observeAll observations).entries.map (·.1) ↔
      cell ∈ (cellsOf observations).dedup := by
    intro cell
    rw [mem_cells_iff, history_observeAll_ne_nil, List.mem_dedup]
    exact or_iff_right fun hstates => hstates rfl
  -- Neither row has a cell twice, so the same cells are as many.
  have hperm := (List.perm_ext_iff_of_nodup ((empty retention).observeAll observations).nodup_cells
    (List.nodup_dedup _)).2 hmem
  calc ((empty retention).observeAll observations).size
      = (((empty retention).observeAll observations).entries.map (·.1)).length :=
      (List.length_map _).symm
    _ = (cellsOf observations).dedup.length := hperm.length_eq

/-- What a fresh table with all of its histories has come to: the histories, and the changes that
were reported. -/
structure Tracks (observations : List (Operation × Node)) (cell : Cell) : Prop where
  /-- The first entity of the cell, and each later one that was written with another value than
  the one before. -/
  history : ((empty .full).observeAll observations).history cell =
    (retained wasWritten valueOf (about cell observations)).map (·.2)
  changes :
    ((empty .full).answered cell observations).map
      (fun change => (change.previous, change.current)) =
    stepsOf (((empty .full).observeAll observations).history cell)

/-- **The table of cells computes the change history of every cell**, whatever entities it is shown
after whatever operations. What matters of an entity are its cell and its value. With all of it
kept, the history of a cell is what is retained of the entities about the cell, and the changes that
entities of the cell are answered by are its steps. An entity without a cell or a value is answered
by nothing and changes nothing, and none changes the history of a cell that is not its own. The
table knows each cell that an entity was seen to be about once, and no other one, and no cell is
known without a state. -/
theorem tracking_run :
    (∀ entity cell, sighted? entity = some cell ↔
      entity.get? Key.name = some cell.name ∧ entity.get? Key.agentId = some cell.agentId ∧
        entity.get? Key.index = some cell.index ∧ (entity.get? Key.value).isSome = true) ∧
      (∀ observations cell, Tracks observations cell) ∧
      (∀ (table : CellTable) operation entity, sighted? entity = none →
        (table.observe operation entity).1 = table ∧
          (table.observe operation entity).2.change? = none) ∧
      (∀ (table : CellTable) operation entity cell, Cell.ofNode? entity ≠ some cell →
        (table.observe operation entity).1.history cell = table.history cell) ∧
      ∀ retention observations,
        ((empty retention).observeAll observations).size = (cellsOf observations).dedup.length ∧
          (∀ cell, ((empty retention).observeAll observations).history cell ≠ [] ↔
            cell ∈ cellsOf observations) ∧
          ∀ entry ∈ ((empty retention).observeAll observations).entries, entry.2.toList ≠ [] := by
  refine ⟨fun entity cell => sighted?_eq_some_iff, fun observations cell => ⟨?_, ?_⟩,
    fun table operation entity => table.observe_of_overlooked operation,
    fun table operation entity cell hother => ?_,
    fun retention observations => ⟨size_observeAll retention observations, fun cell => ?_,
      fun entry _ => ?_⟩⟩
  · exact history_observeAll observations cell
  · exact answered_eq cell observations
  · exact table.history_observe_of_ne operation fun hsighted => hother (ofNode?_of_sighted hsighted)
  · rw [history_observeAll_ne_nil]
    exact or_iff_right fun hstates => hstates rfl
  · -- The states of a history end in the latest one.
    exact List.concat_ne_nil _ _

/-- A register without an index is forgotten, and leaves the one with an index as it was. -/
theorem tracking_run_noIndex :
    let plain : Node :=
      (Node.bare "e1").noteAll [(Key.name, "R1"), (Key.agentId, "1"), (Key.value, "7")]
    let table := (empty .full).observeAll [(.write, (Node.bare "e0").noteAll
      [(Key.name, "R1"), (Key.agentId, "1"), (Key.index, "0"), (Key.value, "5")])]
    sighted? plain = none ∧ Cell.ofNode? plain ≠ some ⟨"R1", "1", "0"⟩ ∧
      (table.observe .write plain).1 = table ∧ (table.observe .write plain).2.change? = none ∧
      ((table.observe .write plain).1.history ⟨"R1", "1", "0"⟩).map Node.id = ["e0"] := by
  intro plain table
  -- Without an index it is not known which cell the entity is about.
  have hplain : sighted? plain = none := by decide +kernel
  have hother : Cell.ofNode? plain ≠ some ⟨"R1", "1", "0"⟩ := by decide +kernel
  obtain ⟨htable, hchange⟩ := tracking_run.2.2.1 table .write plain hplain
  refine ⟨hplain, hother, htable, hchange, ?_⟩
  rw [tracking_run.2.2.2.1 table .write plain _ hother]
  decide +kernel

end Lineage.Session.CellTable
