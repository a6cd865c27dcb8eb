import Lineage.Proofs.CellHistory
import Lineage.Proofs.Run
import Mathlib.Data.List.Forall2

/-!
# What the table of cells sees of a run

The table of cells is shown the entities with a state, each with the operation that its message
names, in the order in which they come. So the cells after a run are what the table makes of these
entities alone (`Session.cells_after`), and the derivations of a run are the changes that the table
reports, one for one (`Session.derivations_edges`).

In a run of messages that are well formed, the entities that the table takes to be about a cell
are those of the messages that name the cell (`about_observationsOf`); messages of other devices
are not among them.
-/

namespace Lineage

open Lineage.Graph Session Session.CellTable Telemetry

/-! ### Announcements about a state -/

namespace Announcement

def cell? (announcement : Announcement) : Option Cell :=
  announcement.message.cell?

def value? (announcement : Announcement) : Option String :=
  announcement.message.value?

/-- Whether a message says that something was written. -/
def isWrite (announcement : Announcement) : Bool :=
  announcement.message.operation? = some .write

/-- What the table of cells is shown of a message. -/
def observation? (announcement : Announcement) : Option (Operation × Node) :=
  announcement.message.observation? announcement.index

/-- The entity of a message, with what was done to it. -/
def observed (announcement : Announcement) : Operation × Node :=
  (announcement.message.operation?.getD .read, announcement.node)

/-- An announcement tells the state of a cell: the table of cells is shown its entity, which is
about that cell and has the value that the message tells. -/
structure Tells (announcement : Announcement) (cell : Cell) : Prop where
  cell?_eq : announcement.cell? = some cell
  agentId_eq : cell.agentId = announcement.agentId
  event_eq : announcement.message.event = .entity
  observation?_eq : announcement.observation? = some announcement.observed
  ofNode?_eq : Cell.ofNode? announcement.node = some cell
  value_eq : announcement.node.get? Key.value = announcement.value?
  isSome_value? : announcement.value?.isSome = true
  wasWritten_eq : wasWritten announcement.observed = announcement.isWrite

variable {a : Announcement} {cell : Cell}

/-- **The table sees what messages name**: a message that is well formed is shown to the table as an
entity about the cell that it names, and one that names no cell is not shown. -/
theorem tells_or_none (h : a.message.WellFormed) :
    (∃ cell, a.Tells cell) ∨ a.cell? = none ∧ a.observation? = none := by
  obtain ⟨message, index⟩ := a
  cases message with
  | agent header agentType => exact .inr ⟨rfl, rfl⟩
  | activity header activityType => exact .inr ⟨rfl, rfl⟩
  | entity header entityType operation payload =>
    -- What is shown to the table depends on the type of the entity, and so does whether a cell is
    -- named.
    by_cases hstate : (EntityKind.ofTag entityType).isStateful = true
    · obtain ⟨cell, value, hcell, hdevice, hofNode, hvalue, hget⟩ :=
        Message.node_of_isStateful h hstate index
      exact .inl ⟨cell,
        { cell?_eq := hcell
          agentId_eq := hdevice
          event_eq := rfl
          observation?_eq := if_pos hstate
          ofNode?_eq := hofNode
          value_eq := hget.trans hvalue.symm
          isSome_value? := Option.isSome_iff_exists.2 ⟨value, hvalue⟩
          wasWritten_eq := (decide_eq_decide.2 Option.some_inj).symm }⟩
    · exact .inr ⟨if_neg hstate, if_neg hstate⟩

/-- A message that names a cell tells its state. -/
theorem tells_of_cell? (h : a.message.WellFormed) (hcell : a.cell? = some cell) : a.Tells cell := by
  rcases tells_or_none h with ⟨cell', htells⟩ | ⟨hnone, -⟩
  · obtain rfl := Option.some.inj (htells.cell?_eq.symm.trans hcell)
    exact htells
  · exact absurd (hnone.symm.trans hcell) (by simp)

/-- The table takes the entity to be about the cell. -/
theorem Tells.sighted (h : a.Tells cell) : sighted? a.node = some cell := by
  obtain ⟨value, hvalue⟩ := Option.isSome_iff_exists.1 h.isSome_value?
  simp [sighted?, h.ofNode?_eq, h.value_eq, hvalue]

/-- An announcement that tells a state is one of an entity. -/
theorem Tells.endpoint_eq (h : a.Tells cell) : a.vertex.endpoint = ⟨.entity, a.node.id⟩ := by
  rw [vertex, h.event_eq]
  rfl

end Announcement

/-- What the table of cells is shown of some announcements. -/
def observationsOf (announcements : List Announcement) : List (Operation × Node) :=
  announcements.filterMap Announcement.observation?

/-- What the table takes to be about a cell was announced about the cell. -/
theorem about_observationsOf {announcements : List Announcement}
    (h : ∀ a ∈ announcements, a.message.WellFormed) (cell : Cell) :
    about cell (observationsOf announcements) =
      (announcements.filter (·.cell? = some cell)).map Announcement.observed := by
  induction announcements with
  | nil => rfl
  | cons a announcements ih =>
    have ha : a.message.WellFormed := h a List.mem_cons_self
    have hrest := ih fun b hb => h b (List.mem_cons_of_mem _ hb)
    simp only [observationsOf, about] at hrest ⊢
    -- The first is shown as an entity about the cell that it names, or it is not shown.
    rcases Announcement.tells_or_none ha with ⟨cell', htells⟩ | ⟨hnone, hunseen⟩
    · rw [List.filterMap_cons_some htells.observation?_eq, List.filter_cons, List.filter_cons,
        hrest,
        show sighted? a.observed.2 = some cell' from htells.sighted, htells.cell?_eq]
      split <;> rfl
    · rw [List.filterMap_cons_none hunseen, List.filter_cons, hrest, hnone]
      rfl

/-- What the table retains of a cell is what is retained of the announcements about the cell. -/
theorem retained_about_observationsOf {announcements : List Announcement}
    (h : ∀ a ∈ announcements, a.message.WellFormed) (cell : Cell) :
    (retained wasWritten valueOf (about cell (observationsOf announcements))).map (·.2) =
      (retained Announcement.isWrite Announcement.value?
        (announcements.filter (·.cell? = some cell))).map Announcement.node := by
  have htells : ∀ a ∈ announcements.filter (·.cell? = some cell), a.Tells cell := by
    intro a ha
    obtain ⟨hmem, hcell⟩ := List.mem_filter.1 ha
    exact Announcement.tells_of_cell? (h a hmem) (of_decide_eq_true hcell)
  -- The table and the announcements say the same of what was written and of the values.
  rw [about_observationsOf h, ← map_retained Announcement.observed
    (fun a ha => (htells a ha).wasWritten_eq) (fun a ha => (htells a ha).value_eq), List.map_map]
  rfl

namespace Session

/-! ### One message -/

/-- The announcement that a message makes if it comes next. -/
def announcing (session : Session) (message : Message) : Announcement :=
  ⟨message, session.numbering.vertices⟩

/-- The node of the announcement is the one that the message is given. -/
@[simp] theorem node_announcing (session : Session) (message : Message) :
    (session.announcing message).node = session.nodeFor message := rfl

section Message

variable {session : Session} {message : Message} {cell : Cell}

/-- A message that tells the state of a cell becomes its latest state, if it is the first one or
wrote another value. -/
theorem latest?_cellsAfter_of_tells (h : (session.announcing message).Tells cell) :
    (session.cellsAfter message).latest? cell =
      some (refreshed (session.cells.latest? cell) (session.announcing message).observed.1
        (session.nodeFor message)) := by
  have hshown : message.observation? session.numbering.vertices =
      some (session.announcing message).observed := h.observation?_eq
  rw [cellsAfter, hshown]
  exact (session.cells.observes _ _).latest?_eq h.sighted

/-- A message is of no matter for the cells that it does not name. -/
theorem history?_cellsAfter_of_ne (hwell : message.WellFormed) (hcell : message.cell? ≠ some cell) :
    (session.cellsAfter message).history? cell = session.cells.history? cell := by
  have hknown : ∀ observation, message.observation? session.numbering.vertices = some observation →
      sighted? observation.2 ≠ some cell := by
    intro observation hshown
    rcases Announcement.tells_or_none
      (show (session.announcing message).message.WellFormed from hwell) with
      ⟨cell', htells⟩ | ⟨-, hunseen⟩
    · obtain rfl := Option.some.inj (hshown.symm.trans htells.observation?_eq)
      rw [show sighted? (session.announcing message).observed.2 = _ from htells.sighted]
      exact fun heq => hcell (htells.cell?_eq.trans heq)
    · exact absurd (hshown.symm.trans hunseen) (by simp)
  -- Shown or not, the entity is not about the cell.
  rw [cellsAfter]
  cases hshown : message.observation? session.numbering.vertices with
  | none => rfl
  | some observation =>
    exact (session.cells.observes observation.1 observation.2).history?_of_ne (hknown _ hshown)

/-- So it leaves the latest states of other cells as they are. -/
theorem latest?_cellsAfter_of_ne (hwell : message.WellFormed) (hcell : message.cell? ≠ some cell) :
    (session.cellsAfter message).latest? cell = session.cells.latest? cell := by
  rw [latest?, latest?, history?_cellsAfter_of_ne hwell hcell]

/-- A message that tells the state of a cell changes it if it wrote another value than the
latest. -/
theorem changeFor?_of_tells (h : (session.announcing message).Tells cell) :
    session.changeFor? message = (session.cells.latest? cell).bind fun latest =>
      if (session.announcing message).observed.1 = .write ∧
          latest.get? Key.value ≠ (session.nodeFor message).get? Key.value then
        some ⟨latest, session.nodeFor message⟩
      else none := by
  have hshown : message.observation? session.numbering.vertices =
      some (session.announcing message).observed := h.observation?_eq
  have hchange := congrArg (Option.map Prod.snd)
    (session.cells.observes (session.announcing message).observed.1
      (session.nodeFor message)).change_eq
  rw [show sighted? (session.nodeFor message) = some cell from h.sighted, Option.bind_some,
    Observation.map_snd_cellChange?] at hchange
  rw [changeFor?, hshown, Option.bind_some]
  refine hchange.trans ?_
  -- The first state of a cell changes nothing.
  cases session.cells.latest? cell with
  | none => rfl
  | some latest =>
    simp only [Option.bind_some]
    split <;> rfl

/-- A message that names no cell changes none. -/
theorem changeFor?_of_cell?_eq_none (hwell : message.WellFormed) (hcell : message.cell? = none) :
    session.changeFor? message = none := by
  rcases Announcement.tells_or_none
    (show (session.announcing message).message.WellFormed from hwell) with
    ⟨cell, htells⟩ | ⟨-, hunseen⟩
  · exact absurd (htells.cell?_eq.symm.trans hcell) (by simp)
  · rw [changeFor?, show message.observation? session.numbering.vertices = none from hunseen]
    rfl

/-- A change is of the cell that the message names, from its latest state to the vertex
of the message. -/
theorem exists_of_changeFor? (hwell : message.WellFormed) {change : Change}
    (hchange : session.changeFor? message = some change) :
    ∃ cell latest, (session.announcing message).Tells cell ∧
      session.cells.latest? cell = some latest ∧
      change = ⟨latest, session.nodeFor message⟩ := by
  cases hcell : message.cell? with
  | none =>
    rw [changeFor?_of_cell?_eq_none hwell hcell] at hchange
    exact absurd hchange (by simp)
  | some cell =>
    have htells : (session.announcing message).Tells cell := Announcement.tells_of_cell? hwell hcell
    rw [changeFor?_of_tells htells, Option.bind_eq_some_iff] at hchange
    obtain ⟨latest, hlatest, hchange⟩ := hchange
    -- There is a change only where another value was written.
    split at hchange
    · exact ⟨cell, latest, htells, hlatest, (Option.some.inj hchange).symm⟩
    · exact absurd hchange (by simp)

end Message

/-! ### The cells after a run -/

/-- **The cells after a run** are what the table makes of the entities that were announced. -/
theorem cells_after (session : Session) (inputs : List (Except MessageError Message)) :
    (session.after inputs).cells =
      session.cells.observeAll
        (observationsOf (announcementsFrom session.numbering.vertices inputs)) := by
  induction inputs generalizing session with
  | nil => rfl
  | cons input inputs ih =>
    cases input with
    -- The table is shown nothing of what is refused.
    | error e => exact ih (session.drop e)
    | ok message =>
      rw [after_cons, ih, cells_receive, numbering_receive, cellsAfter, announcementsFrom,
        observationsOf, observationsOf]
      -- An entity without a state is no observation, and the table is not shown it.
      cases hobservation : message.observation? session.numbering.vertices with
      | none =>
        rw [List.filterMap_cons_none (show Announcement.observation? ⟨message, _⟩ =
          none from hobservation)]
      | some observation =>
        rw [List.filterMap_cons_some (show Announcement.observation? ⟨message, _⟩ =
          some _ from hobservation)]
        rfl

/-! ### Derivations -/

/-- Whether an edge is the derivation of a change. -/
def Derives (change : Cell × Change) (edge : Edge) : Prop :=
  ∃ number operation, edge = derivationEdge number operation change.2

/-- A message leads to the derivation of the change that it brings about, and to no other. -/
theorem derivations_edgesFor (session : Session) (message : Message) : ∃ number operation,
    (session.edgesFor message).filter (·.relation = .wasDerivedFrom) =
      (session.changeFor? message).toList.map (derivationEdge number operation) := by
  by_cases hevent : message.event = .entity
  · cases message with
    | agent header agentType => exact nomatch hevent
    | activity header activityType => exact nomatch hevent
    | entity header entityType operation payload =>
      refine ⟨session.numbering.edges + 1, operation, ?_⟩
      -- All of the first part are derivations, and nothing of the second is.
      simp only [edgesFor, List.filter_append]
      rw [List.filter_eq_self.2, List.filter_eq_nil_iff.2, List.append_nil]
      · intro edge hedge
        obtain ⟨activity, -, rfl⟩ := List.mem_map.1 hedge
        cases operation <;> simp [Operation.relation]
      · intro edge hedge
        obtain ⟨change, -, rfl⟩ := List.mem_map.1 hedge
        simp
  · -- Agents and activities lead to associations only.
    have hchange : session.changeFor? message = none := by
      cases message with
      | agent header agentType => rfl
      | activity header activityType => rfl
      | entity header entityType operation payload => exact absurd rfl hevent
    refine ⟨0, .read, ?_⟩
    rw [hchange, Option.toList_none, List.map_nil, List.filter_eq_nil_iff]
    intro edge hedge
    rw [(relation_edgesFor hedge).2 hevent]
    decide

/-- **The derivations of a run** are the changes that the table of cells reports, one for one. -/
theorem derivations_edges (session : Session) (inputs : List (Except MessageError Message)) :
    List.Forall₂ Derives
      (session.cells.changes (observationsOf (announcementsFrom session.numbering.vertices inputs)))
      ((session.edges inputs).filter (·.relation = .wasDerivedFrom)) := by
  induction inputs generalizing session with
  | nil => exact .nil
  | cons input inputs ih =>
    cases input with
    | error e => exact ih (session.drop e)
    | ok message =>
      have hrest := ih (session.receive (.ok message)).session
      obtain ⟨number, operation, hown⟩ := session.derivations_edgesFor message
      rw [edges_ok, List.filter_append, hown, announcementsFrom, observationsOf]
      rw [numbering_receive, cells_receive, cellsAfter, observationsOf] at hrest
      -- The derivation of this message is that of the change that is reported first, if there is an
      -- observation.
      cases hobservation : message.observation? session.numbering.vertices with
      | none =>
        rw [List.filterMap_cons_none (show Announcement.observation? ⟨message, _⟩ =
          none from hobservation), changeFor?, hobservation]
        rw [hobservation] at hrest
        exact hrest
      | some observation =>
        rw [List.filterMap_cons_some (show Announcement.observation? ⟨message, _⟩ =
          some _ from hobservation), changeFor?, hobservation, Option.bind_some, changes]
        rw [hobservation] at hrest
        refine List.rel_append ?_ hrest
        cases (session.cells.observe observation.1 observation.2).2 with
        | changed cell change => exact .cons ⟨number, operation, rfl⟩ .nil
        | _ => exact .nil

end Session

end Lineage
