import Lineage.Proofs.Retained
import Lineage.Session.CellTable

/-!
# The history of a cell

The table of cells is updated entity by entity. What it holds in the end can be said without it: an
entity is *about* a cell if it has the annotations of the cell and a value (`CellTable.sighted?`),
and of the entities that are about a cell the table retains the first, whatever was done to it, and
from then on each one that was written with a value that differs from the value retained last
(`retained`). The entities of other cells make no difference.

* `CellTable.history_observeAll`: with all of it kept, the history of a cell is what is retained of
  the entities about it.
* `CellTable.changes_observeAll`: the changes reported of a cell are the steps of its
  history, in their order.

Both go by induction on what was observed, from its end. One observation has one of four results
(`CellTable.Observes`), and what each of them does to the history of a cell is said by
`CellTable.grown`.
-/

namespace Lineage

open Lineage.Graph Telemetry

namespace Session

/-- The change that an observation reports, with its cell. -/
def Observation.cellChange? : Observation → Option (Cell × Change)
  | changed cell change => some (cell, change)
  | _ => none

/-- Without its cell, a change is the one that the observation reports. -/
theorem Observation.map_snd_cellChange? (observation : Observation) :
    observation.cellChange?.map Prod.snd = observation.change? := by
  cases observation <;> rfl

namespace CellTable

/-! ### One observation -/

/-- The cell that an entity is about, if it has the value that the table asks for. -/
def sighted? (entity : Node) : Option Cell :=
  match Cell.ofNode? entity, entity.get? Key.value with
  | some cell, some _ => some cell
  | _, _ => none

/-- What may come of an observation: the table afterwards, and the change that is reported. -/
inductive Observes (table : CellTable) (operation : Operation) (entity : Node) :
    CellTable → Option (Cell × Change) → Prop
  /-- The entity is about no cell, or has no value. -/
  | overlooked (hsighted : sighted? entity = none) : Observes table operation entity table none
  /-- The cell was not observed before. -/
  | seeded {cell : Cell} (hsighted : sighted? entity = some cell)
      (hnew : table.history? cell = none) : Observes table operation entity
        (table.put cell (.single entity)) none
  /-- Another value was written. -/
  | changed {cell : Cell} {history : History} (hsighted : sighted? entity = some cell)
      (hknown : table.history? cell = some history) (hwrite : operation = .write)
      (hvalue : history.latest.get? Key.value ≠ entity.get? Key.value) :
      Observes table operation entity (table.put cell (history.push table.retention entity))
        (some (cell, ⟨history.latest, entity⟩))
  /-- Nothing was written, or the same value again. -/
  | unchanged {cell : Cell} {history : History} (hsighted : sighted? entity = some cell)
      (hknown : table.history? cell = some history)
      (hsame : ¬ (operation = .write ∧ history.latest.get? Key.value ≠ entity.get? Key.value)) :
      Observes table operation entity table none

/-- Every observation is one of the four. -/
theorem observes (table : CellTable) (operation : Operation) (entity : Node) :
    Observes table operation entity (table.observe operation entity).1
      (table.observe operation entity).2.cellChange? := by
  -- The cases are those of the table: no cell, no value, a new cell, a change, and none.
  unfold observe
  split
  next hcell => exact .overlooked (by simp [sighted?, hcell])
  next hcell hvalue => exact .overlooked (by simp [sighted?, hcell, hvalue])
  next cell value hcell hvalue =>
    have hsighted : sighted? entity = some cell := by simp [sighted?, hcell, hvalue]
    split
    next hnew => exact .seeded hsighted hnew
    next history hknown =>
      split
      next hchange =>
        simp only [isChange, Bool.and_eq_true, decide_eq_true_eq] at hchange
        exact .changed hsighted hknown hchange.1 (hvalue ▸ hchange.2)
      next hsame =>
        simp only [isChange, Bool.and_eq_true, decide_eq_true_eq] at hsame
        exact .unchanged hsighted hknown (hvalue ▸ hsame)

/-- The latest state of a cell is the last one of its history, however much of that is kept. -/
theorem getLast?_history (table : CellTable) (cell : Cell) :
    (table.history cell).getLast? = table.latest? cell := by
  unfold history latest?
  cases table.history? cell with
  | none => rfl
  | some history => simp [History.toList]

/-- A history that is filed is that of its cell, and of no other. -/
theorem history_put (table : CellTable) (cell cell' : Cell) (history : History) :
    (table.put cell history).history cell' =
      if cell = cell' then history.toList else table.history cell' := by
  simp only [CellTable.history, history?_put]
  split <;> rfl

/-- The latest state of a cell after one more entity about it. -/
def refreshed (latest : Option Node) (operation : Operation) (entity : Node) : Node :=
  match latest with
  | none => entity
  | some latest =>
    if operation = .write ∧ latest.get? Key.value ≠ entity.get? Key.value then entity else latest

/-- What is latest then is the entity or was latest before. -/
theorem refreshed_eq_or (latest : Option Node) (operation : Operation) (entity : Node) :
    refreshed latest operation entity = entity ∨
      latest = some (refreshed latest operation entity) := by
  unfold refreshed
  cases latest with
  | none => exact .inl rfl
  | some latest =>
    simp only [Option.some.injEq]
    split
    · exact .inl rfl
    · exact .inr rfl

/-- A history with one more entity about its cell. -/
def grown (history : List Node) (operation : Operation) (entity : Node) : List Node :=
  match history.getLast? with
  | none => [entity]
  | some latest =>
    if operation = .write ∧ latest.get? Key.value ≠ entity.get? Key.value then history ++ [entity]
    else history

/-- A cell that is not in the table has no history. -/
theorem history?_eq_none {table : CellTable} {cell : Cell} (h : cell ∉ table.entries.map (·.1)) :
    table.history? cell = none := by
  rw [history?, Option.map_eq_none_iff, List.find?_eq_none]
  intro entry hentry hcell
  exact h (List.mem_map.2 ⟨entry, hentry, of_decide_eq_true hcell⟩)

/-- A cell is in the table if it has states there. -/
theorem mem_cells_iff {table : CellTable} {cell : Cell} :
    cell ∈ table.entries.map (·.1) ↔ table.history cell ≠ [] := by
  constructor
  · intro hmem
    obtain ⟨entry, hentry, rfl⟩ := List.mem_map.1 hmem
    obtain ⟨found, hfound⟩ : ∃ found, table.entries.find? (·.1 = entry.1) = some found :=
      Option.isSome_iff_exists.1 (List.find?_isSome.2 ⟨entry, hentry, decide_eq_true rfl⟩)
    rw [CellTable.history, history?, hfound]
    -- A history holds one state at least.
    exact List.concat_ne_nil _ _
  · intro hstates
    by_contra hnot
    rw [CellTable.history, history?_eq_none hnot] at hstates
    exact hstates rfl

/-- Filing a history adds its cell to the table, unless the cell was observed before. -/
theorem size_put_le (table : CellTable) (cell : Cell) (history : History) :
    (table.put cell history).size ≤ table.size + (table.history? cell).isNone.toNat := by
  have hcells := congrArg List.length (map_putByKey (·.1) (cell, history) table.entries)
  rw [List.length_map] at hcells
  -- The number of entries is that of their keys, and one key more or none is there.
  change (putByKey (·.1) (cell, history) table.entries).length ≤ table.entries.length + _
  rw [hcells]
  split
  · rw [List.length_map]
    exact Nat.le_add_right ..
  next hnew =>
    rw [List.length_append, List.length_map, history?_eq_none hnew]
    exact Nat.le_refl _

section Observes

variable {table table' : CellTable} {operation : Operation} {entity : Node}
  {change : Option (Cell × Change)}

/-- How much is kept is settled once and for all. -/
theorem Observes.retention_eq (h : Observes table operation entity table' change) :
    table'.retention = table.retention := by
  cases h <;> rfl

/-- An observation adds a cell or reports a change, but not both. -/
theorem Observes.size_add_change_le (h : Observes table operation entity table' change) :
    table'.size + change.toList.length ≤ table.size + 1 := by
  cases h with
  | overlooked hsighted => exact Nat.le_succ _
  | @seeded cell hsighted hnew =>
    -- The cell is new, and nothing is reported.
    have hsize := table.size_put_le cell (.single entity)
    rw [hnew] at hsize
    exact hsize
  | @changed cell history hsighted hknown hwrite hvalue =>
    -- The cell was known, so what is filed takes the place of its history.
    have hsize := table.size_put_le cell (history.push table.retention entity)
    rw [hknown] at hsize
    exact Nat.succ_le_succ hsize
  | unchanged hsighted hknown hsame => exact Nat.le_succ _

/-- An observation is of no matter for the cells that the entity is not about. -/
theorem Observes.history?_of_ne (h : Observes table operation entity table' change) {cell : Cell}
    (hother : sighted? entity ≠ some cell) : table'.history? cell = table.history? cell := by
  cases h with
  | overlooked hsighted => rfl
  | seeded hsighted hnew =>
    rw [history?_put, if_neg]
    -- What is filed is filed under the cell that was sighted.
    rintro rfl
    exact hother hsighted
  | changed hsighted hknown hwrite hvalue =>
    rw [history?_put, if_neg]
    rintro rfl
    exact hother hsighted
  | unchanged hsighted hknown hsame => rfl

/-- However much of the history is kept, an entity becomes the latest state of the cell that it is
about, if it is the first one or was written with another value. -/
theorem Observes.latest?_eq (h : Observes table operation entity table' change) {cell : Cell}
    (hcell : sighted? entity = some cell) :
    table'.latest? cell = some (refreshed (table.latest? cell) operation entity) := by
  cases h with
  | overlooked hsighted => exact absurd (hsighted.symm.trans hcell) (by simp)
  | seeded hsighted hnew =>
    obtain rfl := Option.some.inj (hsighted.symm.trans hcell)
    rw [latest?, latest?, history?_put, if_pos rfl, hnew]
    rfl
  | changed hsighted hknown hwrite hvalue =>
    obtain rfl := Option.some.inj (hsighted.symm.trans hcell)
    rw [latest?, latest?, history?_put, if_pos rfl, hknown, Option.map_some, Option.map_some,
      refreshed, if_pos ⟨hwrite, hvalue⟩]
    -- The entity is pushed last, whatever is kept in front of it.
    cases table.retention <;> rfl
  | unchanged hsighted hknown hsame =>
    obtain rfl := Option.some.inj (hsighted.symm.trans hcell)
    rw [latest?, hknown, Option.map_some, refreshed, if_neg hsame]

/-- With all of it kept, the history of the cell that an entity is about grows by the entity, if it
is the first one or was written with another value. -/
theorem Observes.history_eq (h : Observes table operation entity table' change)
    (hfull : table.retention = .full) {cell : Cell} (hcell : sighted? entity = some cell) :
    table'.history cell = grown (table.history cell) operation entity := by
  have hlast := table.getLast?_history cell
  cases h with
  | overlooked hsighted => exact absurd (hsighted.symm.trans hcell) (by simp)
  | seeded hsighted hnew =>
    obtain rfl := Option.some.inj (hsighted.symm.trans hcell)
    rw [latest?, hnew, Option.map_none] at hlast
    rw [grown, hlast, history_put, if_pos rfl]
    rfl
  | @changed _ history hsighted hknown hwrite hvalue =>
    obtain rfl := Option.some.inj (hsighted.symm.trans hcell)
    rw [latest?, hknown, Option.map_some] at hlast
    -- Only here does it matter that the whole history is kept.
    rw [grown, hlast, history_put, if_pos rfl, hfull]
    simp only [hwrite, true_and, hvalue, ne_eq, not_false_eq_true, if_true]
    rw [CellTable.history, hknown]
    rfl
  | @unchanged _ history hsighted hknown hsame =>
    obtain rfl := Option.some.inj (hsighted.symm.trans hcell)
    rw [latest?, hknown, Option.map_some] at hlast
    rw [grown, hlast]
    exact (if_neg hsame).symm

/-- A change is reported of the cell that the entity is about. -/
theorem Observes.sighted_of_change {cell : Cell} {change : Change}
    (h : Observes table operation entity table' (some (cell, change))) :
    sighted? entity = some cell := by
  cases h with
  | changed hsighted hknown hwrite hvalue => exact hsighted

/-- A change is reported if another value was written to a cell that was observed before; it is from
the latest state to the new one. -/
theorem Observes.change_eq (h : Observes table operation entity table' change) :
    change = (sighted? entity).bind fun cell => (table.latest? cell).bind fun latest =>
      if operation = .write ∧ latest.get? Key.value ≠ entity.get? Key.value then
        some (cell, ⟨latest, entity⟩)
      else none := by
  cases h with
  | overlooked hsighted => rw [hsighted, Option.bind_none]
  -- Without a state before there is no change, whatever the operation was.
  | seeded hsighted hnew =>
    rw [hsighted, Option.bind_some, latest?, hnew]
    rfl
  | changed hsighted hknown hwrite hvalue =>
    rw [hsighted, Option.bind_some, latest?, hknown, Option.map_some, Option.bind_some]
    exact (if_pos ⟨hwrite, hvalue⟩).symm
  | unchanged hsighted hknown hsame =>
    rw [hsighted, Option.bind_some, latest?, hknown, Option.map_some, Option.bind_some]
    exact (if_neg hsame).symm

end Observes

/-! ### All observations -/

/-- The table after some observations. -/
def observeAll (table : CellTable) (observations : List (Operation × Node)) : CellTable :=
  observations.foldl (fun table observation => (table.observe observation.1 observation.2).1) table

/-- The changes that are reported of some observations. -/
def changes (table : CellTable) : List (Operation × Node) → List (Cell × Change)
  | [] => []
  | observation :: observations =>
    (table.observe observation.1 observation.2).2.cellChange?.toList ++
      changes (table.observe observation.1 observation.2).1 observations

/-- Whether an observation is one of a write. -/
def wasWritten (observation : Operation × Node) : Bool :=
  observation.1 = .write

/-- The value that was observed. -/
def valueOf (observation : Operation × Node) : Option String :=
  observation.2.get? Key.value

/-- The observations that are about a cell. -/
def about (cell : Cell) (observations : List (Operation × Node)) : List (Operation × Node) :=
  observations.filter fun observation => sighted? observation.2 = some cell

/-- Observations go on with the table that those before have left. -/
theorem observeAll_append (table : CellTable) (before later : List (Operation × Node)) :
    table.observeAll (before ++ later) = (table.observeAll before).observeAll later :=
  List.foldl_append

/-- So do the changes that they report. -/
theorem changes_append (table : CellTable) (before later : List (Operation × Node)) :
    table.changes (before ++ later) = table.changes before ++
      (table.observeAll before).changes later := by
  induction before generalizing table with
  | nil => rfl
  | cons observation before ih => simp [changes, observeAll, ih]

/-- No row of observations changes how much is kept. -/
theorem retention_observeAll (table : CellTable) (observations : List (Operation × Node)) :
    (table.observeAll observations).retention = table.retention := by
  induction observations generalizing table with
  | nil => rfl
  | cons observation observations ih => exact (ih _).trans (table.observes _ _).retention_eq

/-- What is about a cell is so wherever it stands. -/
theorem about_append (cell : Cell) (before later : List (Operation × Node)) :
    about cell (before ++ later) = about cell before ++ about cell later :=
  List.filter_append ..

/-- What is kept of some observations grows as the history does. -/
theorem map_extended (kept : List (Operation × Node)) (operation : Operation) (entity : Node) :
    (extended wasWritten valueOf kept (operation, entity)).map (·.2) =
      grown (kept.map (·.2)) operation entity := by
  rw [extended, grown, List.getLast?_map]
  cases kept.getLast? with
  | none => rfl
  | some latest =>
    simp only [wasWritten, valueOf, decide_eq_true_eq, Option.map_some]
    split <;> simp

/-- **The history of a cell**, with all of it kept, is what is retained of the entities
about the cell. -/
theorem history_observeAll (observations : List (Operation × Node)) (cell : Cell) :
    ((empty .full).observeAll observations).history cell =
      (retained wasWritten valueOf (about cell observations)).map (·.2) := by
  induction observations using List.reverseRecOn with
  | nil => rfl
  | append_singleton observations observation ih =>
    obtain ⟨operation, entity⟩ := observation
    have hfull : ((empty .full).observeAll observations).retention = .full :=
      retention_observeAll _ _
    rw [observeAll_append, about_append]
    -- From here on the table before is any table that keeps all of its histories.
    generalize (empty .full).observeAll observations = table at hfull ih
    have h := table.observes operation entity
    change (table.observe operation entity).1.history cell = _
    by_cases hcell : sighted? entity = some cell
    · -- The entity is about the cell, and both sides grow as the latest state has it.
      have habout : about cell [(operation, entity)] = [(operation, entity)] := by
        simp [about, hcell]
      rw [habout, retained_append_singleton, map_extended, ← ih]
      exact h.history_eq hfull hcell
    · have habout : about cell [(operation, entity)] = [] := by simp [about, hcell]
      rw [habout, List.append_nil, ← ih, CellTable.history, h.history?_of_ne hcell]
      rfl

/-- A history makes one more step if it grows, unless it was empty. -/
theorem stepsOf_grown (history : List Node) (operation : Operation) (entity : Node) :
    stepsOf (grown history operation entity) = stepsOf history ++
      (history.getLast?.bind fun latest =>
        if operation = .write ∧ latest.get? Key.value ≠ entity.get? Key.value then
          some (latest, entity)
        else none).toList := by
  unfold grown
  cases hlast : history.getLast? with
  | none =>
    -- A single state makes no step.
    obtain rfl := List.getLast?_eq_none_iff.1 hlast
    rfl
  | some latest =>
    simp only [Option.bind_some]
    split
    · rw [stepsOf_append_singleton, hlast]
      rfl
    · exact (List.append_nil _).symm

/-- **The changes of a cell** are the steps of its history, in their order. -/
theorem changes_observeAll (observations : List (Operation × Node)) (cell : Cell) :
    (((empty .full).changes observations).filter (·.1 = cell)).map
        (fun change => (change.2.previous, change.2.current)) =
      stepsOf (((empty .full).observeAll observations).history cell) := by
  induction observations using List.reverseRecOn with
  | nil => rfl
  | append_singleton observations observation ih =>
    obtain ⟨operation, entity⟩ := observation
    have hfull : ((empty .full).observeAll observations).retention = .full :=
      retention_observeAll _ _
    rw [observeAll_append, changes_append, List.filter_append, List.map_append, ih]
    generalize (empty .full).observeAll observations = table at hfull
    have h := table.observes operation entity
    simp only [changes, List.append_nil]
    change _ = stepsOf ((table.observe operation entity).1.history cell)
    by_cases hcell : sighted? entity = some cell
    · -- A step more on the right is just a change more on the left.
      rw [h.history_eq hfull hcell, stepsOf_grown, h.change_eq, hcell, Option.bind_some,
        getLast?_history]
      congr 1
      cases table.latest? cell with
      | none => rfl
      | some latest =>
        simp only [Option.bind_some]
        split <;> simp
    · -- An entity about another cell, or about none, reports nothing of this one.
      have hforeign : (table.observe operation entity).2.cellChange?.toList.filter (·.1 = cell) =
          [] := by
        rw [List.filter_eq_nil_iff]
        intro change hmem hsame
        rw [Option.mem_toList] at hmem
        rw [hmem] at h
        exact hcell (h.sighted_of_change.trans (congrArg some (of_decide_eq_true hsame)))
      rw [hforeign, List.map_nil, List.append_nil, CellTable.history, CellTable.history,
        h.history?_of_ne hcell]

/-- A change is reported just if it is a step of the history of its cell. -/
theorem mem_changes {observations : List (Operation × Node)} {cell : Cell} {change : Change} :
    (cell, change) ∈ (empty .full).changes observations ↔
      (change.previous, change.current) ∈ stepsOf
        (((empty .full).observeAll observations).history cell) := by
  rw [← changes_observeAll, List.mem_map]
  constructor
  · exact fun h => ⟨(cell, change), List.mem_filter.2 ⟨h, by simp⟩, rfl⟩
  · rintro ⟨⟨cell', previous, current⟩, hmem, hpair⟩
    obtain ⟨hchange, hcell⟩ := List.mem_filter.1 hmem
    obtain rfl : cell' = cell := of_decide_eq_true hcell
    obtain ⟨rfl, rfl⟩ := Prod.mk.inj hpair
    exact hchange

end CellTable

end Session

end Lineage
