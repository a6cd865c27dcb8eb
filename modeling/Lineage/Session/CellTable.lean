import Lineage.Keyed
import Lineage.Session.Numbering
import Lineage.Session.Retention

/-!
# Cells and their histories

A register cell is told apart by the name of its register, the device and the index. The table
remembers the states of every cell that was observed: the first observation of a cell, whatever was
done to it, starts its history, and from then on a write is added if its value differs from the
latest one. All else leaves the history as it is.

An entity is about a cell if it is annotated with a name, an agent id and an index; only one that
has a value as well is taken in (`CellTable.observe`).
-/

namespace Lineage.Session

open Lineage.Graph Telemetry

/-- A register cell. -/
structure Cell where
  name : String
  /-- The device that the register is on. -/
  agentId : String
  /-- The place of the cell in the register. -/
  index : String
deriving DecidableEq, Repr

/-- The cell that an entity is about. -/
def Cell.ofNode? (entity : Node) : Option Cell :=
  match entity.get? Key.name, entity.get? Key.agentId, entity.get? Key.index with
  | some name, some agentId, some index => some ⟨name, agentId, index⟩
  | _, _, _ => none

/-- The states of a cell that are kept; there is always a latest one. -/
structure History where
  /-- The states before the latest one, oldest first. -/
  earlier : List Node
  latest : Node
deriving DecidableEq

namespace History

/-- All states that are kept, oldest first. -/
def toList (history : History) : List Node :=
  history.earlier ++ [history.latest]

/-- The history of a cell that was observed once. -/
def single (entity : Node) : History := ⟨[], entity⟩

def push (history : History) (retention : Retention) (entity : Node) : History :=
  match retention with
  -- The latest state joins the earlier ones.
  | .full => ⟨history.toList, entity⟩
  | .latestOnly => single entity

end History

/-- The cells that were observed. -/
structure CellTable where
  /-- How much of each history is kept. -/
  retention : Retention
  entries : List (Cell × History)
  nodup_cells : (entries.map (·.1)).Nodup

/-- What comes of an observation. -/
inductive Observation
  | noCell
  | noValue
  /-- The cell is observed for the first time. -/
  | seeded
  /-- The value is not a new one, or nothing was written. -/
  | unchanged
  | changed (cell : Cell) (change : Change)
deriving DecidableEq

/-- The change that an observation reports. -/
def Observation.change? : Observation → Option Change
  | changed _ change => some change
  | _ => none

namespace CellTable

def empty (retention : Retention) : CellTable := ⟨retention, [], .nil⟩

instance : Inhabited CellTable := ⟨empty default⟩

/-- The history of a cell, if it was observed. -/
def history? (table : CellTable) (cell : Cell) : Option History :=
  (table.entries.find? (·.1 = cell)).map (·.2)

/-- The states of a cell that are kept, oldest first. -/
def history (table : CellTable) (cell : Cell) : List Node :=
  ((table.history? cell).map History.toList).getD []

/-- The latest state of a cell. -/
def latest? (table : CellTable) (cell : Cell) : Option Node :=
  (table.history? cell).map History.latest

def size (table : CellTable) : Nat :=
  table.entries.length

/-- Files the history of a cell. -/
def put (table : CellTable) (cell : Cell) (history : History) : CellTable :=
  { table with
    entries := putByKey (·.1) (cell, history) table.entries
    nodup_cells := nodup_map_putByKey (·.1) (cell, history) table.nodup_cells }

/-- The history filed last is found, and other cells keep theirs. -/
@[simp] theorem history?_put (table : CellTable) (cell cell' : Cell) (history : History) :
    (table.put cell history).history? cell' = if cell = cell' then some history
    else table.history? cell' := by
  simp only [history?, put, find?_putByKey]
  split <;> simp

/-- Whether an entity adds to a history: a write of another value does. -/
def isChange (operation : Operation) (latest : Node) (value : String) : Bool :=
  operation = .write && latest.get? Key.value ≠ some value

/-- Observes an entity after an operation. -/
def observe (table : CellTable) (operation : Operation) (entity : Node) : CellTable × Observation :=
  match Cell.ofNode? entity, entity.get? Key.value with
  -- Without a cell it is not asked whether there is a value.
  | none, _ => (table, .noCell)
  | some _, none => (table, .noValue)
  | some cell, some value =>
    match table.history? cell with
    -- The first observation seeds the history, be it of a read or of a write.
    | none => (table.put cell (.single entity), .seeded)
    | some history =>
      if isChange operation history.latest value then
        (table.put cell (history.push table.retention entity),
          .changed cell ⟨history.latest, entity⟩)
      else (table, .unchanged)

end CellTable

end Lineage.Session
