import Lineage.Proofs.Counters
import Lineage.Proofs.Delivery
import Lineage.Proofs.Observations
import Mathlib.Data.List.Perm.Basic
import Mathlib.Logic.Function.Basic

/-!
# Interleaved deliveries

Several callers may share a recorder. Their lines are processed one at a time, but in what order
they come in is not for the callers to say. As long as the lines are about entities, or are refused,
it shows only for lines about the same register cell (`Recorder.interleaving_run`).

The order does show in the numbers of the vertices and the edges, so two orders do not lead to
the same session. What is left when the numbers are not looked at is the `Session.View` of a
session: its counters, its registry, and what the states of its cells tell. Three facts about it
make up the argument.

* The view of a session takes in refused inputs and entities as the session does
  (`Session.view_after`): which edges an entity leads to depends on the activity of its device and
  on the latest value of its cell, and both can be seen.
* Inputs about different cells commute on views (`Session.View.take_comm`). Both count in the same
  catalogs, but it does not matter in which order things are counted.
* If steps with different keys commute, then a permutation that keeps the order within each key
  leads to the same (`foldl_eq_of_perm`).
-/

namespace Lineage

open Lineage.Graph Session Session.CellTable Telemetry

/-! ### Steps with keys -/

section Keyed

variable {α κ τ : Type} {step : τ → α → τ} {key? : α → Option κ}

/-- Two things that do not have one key. -/
def Apart (key? : α → Option κ) (a b : α) : Prop :=
  ∀ k, key? a = some k → key? b ≠ some k

/-- Neither of the two comes first in this. -/
theorem Apart.symm {a b : α} (h : Apart key? a b) : Apart key? b a :=
  fun k hb ha => h k ha hb

/-- What comes first among some things may as well come behind others that are apart from it. -/
theorem foldl_append_cons_of_apart
    (hstep : ∀ s a b, Apart key? a b → step (step s b) a = step (step s a) b) {before : List α}
    {a : α} (hbefore : ∀ b ∈ before, Apart key? a b) (later : List α) (s : τ) :
    (before ++ a :: later).foldl step s = (before ++ later).foldl step (step s a) := by
  induction before generalizing s with
  | nil => rfl
  -- `a` moves past `b`, and `ih` has moved it past the others.
  | cons b before ih =>
    rw [List.forall_mem_cons] at hbefore
    rw [List.cons_append, List.foldl_cons, ih hbefore.2, hstep s a b hbefore.1]
    rfl

/-- Nothing stands before the first occurrence of what comes first. -/
theorem eq_nil_of_append_cons_eq_cons {a : α} {before later rest : List α}
    (h : before ++ a :: later = a :: rest) (hfirst : a ∉ before) : before = [] ∧ later = rest := by
  cases before with
  | nil => exact ⟨rfl, List.tail_eq_of_cons_eq h⟩
  | cons b before =>
    obtain rfl : b = a := List.head_eq_of_cons_eq h
    exact absurd List.mem_cons_self hfirst

/-- **Order matters within a key only**: if steps that are apart commute, then things that are
permuted lead to the same, as long as those with one key keep their order. -/
theorem foldl_eq_of_perm [DecidableEq κ]
    (hstep : ∀ s a b, Apart key? a b → step (step s b) a = step (step s a) b) {as bs : List α}
    (hperm : bs.Perm as) (horder : ∀ k, bs.filter (key? · = some k) = as.filter (key? · = some k))
    (s : τ) : bs.foldl step s = as.foldl step s := by
  -- The induction is on one of the orders; what comes first there is looked up in the other.
  induction as generalizing bs s with
  | nil => rw [hperm.eq_nil]
  | cons a as ih =>
    obtain ⟨before, later, rfl, hfirst⟩ :=
      List.eq_append_cons_of_mem (hperm.mem_iff.2 List.mem_cons_self)
    -- What shares a key with the first thing comes behind it, as it did.
    have hown : ∀ k, key? a = some k →
        before.filter (key? · = some k) = [] ∧
          later.filter (key? · = some k) = as.filter (key? · = some k) := by
      intro k hkey
      have hkeys := horder k
      rw [List.filter_append, List.filter_cons, List.filter_cons, if_pos (decide_eq_true hkey),
        if_pos (decide_eq_true hkey)] at hkeys
      exact eq_nil_of_append_cons_eq_cons hkeys fun hmem => hfirst (List.mem_of_mem_filter hmem)
    have hbefore : ∀ b ∈ before, Apart key? a b := by
      intro b hb k hkey
      have hnone := List.filter_eq_nil_iff.1 (hown k hkey).1 b hb
      simpa using hnone
    -- So it can be taken to the front, and the rest is a permutation of the rest.
    rw [foldl_append_cons_of_apart hstep hbefore, List.foldl_cons]
    refine ih (List.perm_middle.symm.trans hperm).cons_inv (fun k => ?_) _
    rw [List.filter_append]
    by_cases hkey : key? a = some k
    · rw [(hown k hkey).1, (hown k hkey).2, List.nil_append]
    · have hkeys := horder k
      rwa [List.filter_append, List.filter_cons, List.filter_cons, if_neg (by simpa using hkey),
        if_neg (by simpa using hkey)] at hkeys

end Keyed

namespace Session

/-! ### What an input adds to the counters -/

/-- What an input adds to the counters, besides a message: the labels under which
something is counted. -/
structure Gain where
  vertices : List String
  edges : List String
  dropped : List String
  missingCorrelations : Nat

/-- The counters with a message and what it adds. -/
def Stats.add (stats : Stats) (gain : Gain) : Stats where
  messages := stats.messages + 1
  vertices := gain.vertices.foldl Catalog.increment stats.vertices
  edges := gain.edges.foldl Catalog.increment stats.edges
  dropped := gain.dropped.foldl Catalog.increment stats.dropped
  missingCorrelations := stats.missingCorrelations + gain.missingCorrelations

/-- It does not matter in which order things are counted. -/
theorem foldl_increment_comm (counters : Catalog Nat) (as bs : List String) :
    bs.foldl Catalog.increment (as.foldl Catalog.increment counters) =
      as.foldl Catalog.increment (bs.foldl Catalog.increment counters) := by
  have : RightCommutative Catalog.increment := ⟨Catalog.increment_comm⟩
  rw [← List.foldl_append, ← List.foldl_append]
  exact List.perm_append_comm.foldl_eq counters

/-- So two inputs may add to the counters in either order. -/
theorem Stats.add_comm (stats : Stats) (gain gain' : Gain) :
    (stats.add gain).add gain' = (stats.add gain').add gain := by
  simp only [add, foldl_increment_comm _ gain.vertices, foldl_increment_comm _ gain.edges,
    foldl_increment_comm _ gain.dropped, Nat.add_right_comm]

/-! ### What shows of a session -/

/-- What a state of a cell tells: what was done, and the value. -/
def stateOf (entity : Node) : Option String × Option String :=
  (entity.get? Key.operation, entity.get? Key.value)

/-- What shows of a session when the numbers of its vertices and edges do not. -/
structure View where
  stats : Stats
  registry : Registry
  retention : Retention
  /-- What the states of each cell tell, oldest first. -/
  states : Cell → List (Option String × Option String)

def view (session : Session) : View :=
  ⟨session.stats, session.registry, session.cells.retention,
    fun cell => (session.cells.history cell).map stateOf⟩

end Session

/-- The cell whose state an input tells. -/
def Telemetry.cellOf? (input : Except MessageError Message) : Option Cell :=
  input.toOption.bind Message.cell?

namespace Session.View

variable (view : View)

/-- Whether a message writes another value to its cell than the latest. -/
def isChanged (message : Message) : Bool :=
  match message.cell?.bind fun cell => (view.states cell).getLast? with
  | some latest => message.operation? = some .write ∧ latest.2 ≠ message.value?
  | none => false

/-- The activity that an entity goes back to. -/
def cause? (message : Message) : Option Node :=
  causeFor? view.registry message.header.agentId

/-- The relations of the edges that an entity leads to. -/
def relations (message : Message) : List Relation :=
  (if view.isChanged message then [.wasDerivedFrom] else []) ++
    (view.cause? message).toList.filterMap fun _ => message.operation?.map Operation.relation

/-- What an input adds to the counters. -/
def gain : Except MessageError Message → Gain
  | .error error => ⟨[], [], [error.kind], 0⟩
  | .ok message =>
    ⟨[message.event.vertexKind.label], (view.relations message).map Relation.label, [],
      (view.cause? message).isNone.toNat⟩

/-- What the states of a cell tell after a message about the cell. -/
def statesWith (message : Message) (cell : Cell) : List (Option String × Option String) :=
  let state := (message.operation?.map Operation.tag, message.value?)
  if view.states cell = [] then [state]
  else if view.isChanged message then
    match view.retention with
    | .full => view.states cell ++ [state]
    | .latestOnly => [state]
  else view.states cell

/-- What the states of all cells tell after an input. -/
def statesAfter (input : Except MessageError Message) :
    Cell → List (Option String × Option String) :=
  match input with
  | .error _ => view.states
  | .ok message =>
    match message.cell? with
    | some cell => Function.update view.states cell (view.statesWith message cell)
    | none => view.states

/-- What shows of a session after a refused input or an entity. -/
def take (input : Except MessageError Message) : View :=
  { view with stats := view.stats.add (view.gain input), states := view.statesAfter input }

section Take

variable {view} {input other : Except MessageError Message} {cell : Cell}

/-- An input is of no matter for the cells whose states it does not tell. -/
theorem statesAfter_of_ne (h : cellOf? input ≠ some cell) :
    view.statesAfter input cell = view.states cell := by
  cases input with
  | error error => rfl
  | ok message =>
    rw [statesAfter]
    cases hcell : message.cell? with
    | none => rfl
    | some cell' =>
      refine Function.update_of_ne ?_ _ _
      rintro rfl
      exact h hcell

/-- Whether a message changes its cell does not depend on an input that is apart from it. -/
theorem isChanged_take {message : Message} (h : Apart cellOf? (.ok message) other) :
    (view.take other).isChanged message = view.isChanged message := by
  cases hcell : message.cell? with
  | none => simp only [isChanged, hcell, Option.bind_none]
  | some cell =>
    -- `other` does not tell the state of `cell`, so the latest state there is the same.
    have hstates : (view.take other).states cell = view.states cell :=
      statesAfter_of_ne (h cell hcell)
    simp only [isChanged, hcell, Option.bind_some, hstates]

/-- Nor does what a message adds to the counters. -/
theorem gain_take (h : Apart cellOf? input other) :
    (view.take other).gain input = view.gain input := by
  cases input with
  | error error => rfl
  | ok message =>
    simp only [gain, relations, isChanged_take h]
    rfl

/-- Nor what the states of its cell tell. -/
theorem statesAfter_take (h : Apart cellOf? input other) (hcell : cellOf? input = some cell) :
    (view.take other).statesAfter input cell = view.statesAfter input cell := by
  cases input with
  | error error => exact nomatch hcell
  | ok message =>
    have hmessage : message.cell? = some cell := hcell
    have hstates : (view.take other).states cell = view.states cell :=
      statesAfter_of_ne (h cell hcell)
    have hretention : (view.take other).retention = view.retention := rfl
    simp only [statesAfter, hmessage, Function.update_self, statesWith, hstates, isChanged_take h,
      hretention]

/-- **Inputs that are apart commute**: it does not show which of two inputs came first, unless they
tell the state of one cell. -/
theorem take_comm (view : View) (a b : Except MessageError Message) (h : Apart cellOf? a b) :
    (view.take b).take a = (view.take a).take b := by
  have hstats : ((view.take b).take a).stats = ((view.take a).take b).stats :=
    calc (view.stats.add (view.gain b)).add ((view.take b).gain a)
        = (view.stats.add (view.gain b)).add (view.gain a) := by rw [gain_take h]
      _ = (view.stats.add (view.gain a)).add (view.gain b) := view.stats.add_comm _ _
      _ = (view.stats.add (view.gain a)).add ((view.take a).gain b) := by rw [gain_take h.symm]
  have hstates : (view.take b).statesAfter a = (view.take a).statesAfter b := by
    funext cell
    by_cases ha : cellOf? a = some cell
    · calc (view.take b).statesAfter a cell
          = view.statesAfter a cell := statesAfter_take h ha
        _ = (view.take a).states cell := rfl
        _ = (view.take a).statesAfter b cell := (statesAfter_of_ne (h cell ha)).symm
    · by_cases hb : cellOf? b = some cell
      · calc (view.take b).statesAfter a cell
            = view.statesAfter b cell := statesAfter_of_ne ha
          _ = (view.take a).statesAfter b cell := (statesAfter_take h.symm hb).symm
      · -- Neither of the two tells the state of the cell.
        calc (view.take b).statesAfter a cell
            = view.statesAfter b cell := statesAfter_of_ne ha
          _ = view.states cell := statesAfter_of_ne hb
          _ = (view.take a).states cell := (statesAfter_of_ne ha).symm
          _ = (view.take a).statesAfter b cell := (statesAfter_of_ne hb).symm
  exact congrArg₂ (View.mk · view.registry view.retention ·) hstats hstates

end Take

end Session.View

/-! ### What an entity leaves -/

/-- The history of the cell that an entity is about, after the entity was observed: a first state
starts it, and a change adds to it or takes its place. -/
theorem Session.CellTable.Observes.history_about {table table' : CellTable}
    {operation : Operation} {entity : Node} {change : Option (Cell × Change)}
    (h : Observes table operation entity table' change) {cell : Cell}
    (hcell : sighted? entity = some cell) :
    table'.history cell =
      if table.history cell = [] then [entity]
      else if change.isSome then
        match table.retention with
        | .full => table.history cell ++ [entity]
        | .latestOnly => [entity]
      else table.history cell := by
  have hknown : ∀ {history : History}, table.history? cell = some history →
      table.history cell = history.toList := by
    intro history hhistory
    rw [CellTable.history, hhistory]
    rfl
  -- A cell in the table has a state, so its history tells that it is known.
  have hstates : ∀ history : History, history.toList ≠ [] := fun history => List.concat_ne_nil _ _
  cases h with
  | overlooked hsighted => exact absurd (hsighted.symm.trans hcell) (by simp)
  | seeded hsighted hnew =>
    obtain rfl := Option.some.inj (hcell.symm.trans hsighted)
    have hnone : table.history cell = [] := by
      rw [CellTable.history, hnew]
      rfl
    rw [history_put, if_pos rfl, if_pos hnone]
    rfl
  | @changed _ history hsighted hhistory hwrite hvalue =>
    obtain rfl := Option.some.inj (hcell.symm.trans hsighted)
    rw [history_put, if_pos rfl, hknown hhistory, if_neg (hstates history)]
    cases table.retention <;> rfl
  | @unchanged _ history hsighted hhistory hsame =>
    obtain rfl := Option.some.inj (hcell.symm.trans hsighted)
    rw [hknown hhistory, if_neg (hstates history)]
    rfl

namespace Session

section Entity

variable (session : Session) {message : Message}

/-- The vertex of an entity tells what its message does. -/
theorem stateOf_node (hwell : message.WellFormed) (hevent : message.event = .entity) {index : Nat}
    {cell : Cell} (h : (Announcement.mk message index).Tells cell) :
    stateOf (message.node index) = (message.operation?.map Operation.tag, message.value?) := by
  have hvalue : (message.node index).get? Key.value = message.value? := h.value_eq
  rw [stateOf, hvalue, Message.get?_node hwell]
  cases message with
  | agent header agentType => exact nomatch hevent
  | activity header activityType => exact nomatch hevent
  | entity header entityType operation payload => rfl

/-- It can be seen whether a message changes its cell. -/
theorem isSome_changeFor? (hwell : message.WellFormed) :
    (session.changeFor? message).isSome = session.view.isChanged message := by
  cases hcell : message.cell? with
  | none =>
    rw [changeFor?_of_cell?_eq_none hwell hcell, View.isChanged, hcell]
    rfl
  | some cell =>
    have htells : (session.announcing message).Tells cell := Announcement.tells_of_cell? hwell hcell
    have hlast :
        (session.view.states cell).getLast? = (session.cells.latest? cell).map stateOf := by
      rw [← getLast?_history, ← List.getLast?_map]
      rfl
    have hvalue : (session.nodeFor message).get? Key.value = message.value? := htells.value_eq
    have hwrite : decide ((session.announcing message).observed.1 = .write) =
        decide (message.operation? = some .write) := htells.wasWritten_eq
    rw [changeFor?_of_tells htells, View.isChanged, hcell, Option.bind_some, hlast]
    cases session.cells.latest? cell with
    -- A first state is no change.
    | none => rfl
    | some latest =>
      simp only [Option.bind_some, Option.map_some, hvalue, stateOf, decide_eq_decide.1 hwrite]
      split
      next hchange => exact (decide_eq_true hchange).symm
      next hsame => exact (decide_eq_false hsame).symm

/-- The edges that an entity leads to are of the relations that can be seen. -/
theorem map_relation_edgesFor (hwell : message.WellFormed) (hevent : message.event = .entity) :
    (session.edgesFor message).map Edge.relation = session.view.relations message := by
  have hchange := session.isSome_changeFor? hwell
  cases message with
  | agent header agentType => exact nomatch hevent
  | activity header activityType => exact nomatch hevent
  | entity header entityType operation payload =>
    -- The derivation of a change comes first, and then the edge to the activity.
    rw [View.relations, ← hchange, edgesFor, List.map_append]
    refine congrArg₂ (· ++ ·) ?_ ?_
    · cases session.changeFor? (.entity header entityType operation payload) <;> rfl
    · have hcause : session.view.cause? (.entity header entityType operation payload) =
          causeFor? session.registry header.agentId := rfl
      rw [hcause]
      cases causeFor? session.registry header.agentId with
      | none => rfl
      | some activity => simp [Message.operation?]

/-- The history of the cell that a message names, after the message. -/
theorem history_cellsAfter_of_cell? (hwell : message.WellFormed) {cell : Cell}
    (hcell : message.cell? = some cell) :
    (session.cellsAfter message).history cell =
      if session.cells.history cell = [] then [session.nodeFor message]
      else if (session.changeFor? message).isSome then
        match session.cells.retention with
        | .full => session.cells.history cell ++ [session.nodeFor message]
        | .latestOnly => [session.nodeFor message]
      else session.cells.history cell := by
  have htells : (session.announcing message).Tells cell := Announcement.tells_of_cell? hwell hcell
  have hshown : message.observation? session.numbering.vertices =
      some (session.announcing message).observed :=
    htells.observation?_eq
  have hobserves :=
    session.cells.observes (session.announcing message).observed.1 (session.nodeFor message)
  -- Whether there is a change shows in what the table answers.
  have hchange : (session.changeFor? message).isSome =
      (session.cells.observe (session.announcing message).observed.1
        (session.nodeFor message)).2.cellChange?.isSome := by
    rw [changeFor?, hshown, Option.bind_some, ← Observation.map_snd_cellChange?, Option.isSome_map]
    rfl
  rw [hchange, cellsAfter, hshown]
  exact hobserves.history_about htells.sighted

/-- What the states of the cells tell after an entity can be seen from what they told before. -/
theorem states_receive (hwell : message.WellFormed) (hevent : message.event = .entity) :
    (session.receive (.ok message)).session.view.states =
      session.view.statesAfter (.ok message) := by
  funext cell
  have hcells : (session.receive (.ok message)).session.view.states cell =
      ((session.cellsAfter message).history cell).map stateOf := by
    rw [view, cells_receive]
  have hstates : session.view.states cell = (session.cells.history cell).map stateOf := rfl
  by_cases hcell : message.cell? = some cell
  · have htells : (session.announcing message).Tells cell := Announcement.tells_of_cell? hwell hcell
    have htold : stateOf (session.nodeFor message) =
        (message.operation?.map Operation.tag, message.value?) :=
      stateOf_node hwell hevent htells
    have hretention : session.view.retention = session.cells.retention := rfl
    rw [hcells, session.history_cellsAfter_of_cell? hwell hcell, View.statesAfter, hcell]
    simp only [Function.update_self, View.statesWith, hstates, List.map_eq_nil_iff, ← htold,
      hretention, ← session.isSome_changeFor? hwell]
    -- The cases are those of the history: a first state, a change, and none.
    split
    · rfl
    · split
      · cases session.cells.retention with
        | full => exact List.map_append
        | latestOnly => rfl
      · rfl
  · have hother : cellOf? (.ok message) ≠ some cell := hcell
    rw [View.statesAfter_of_ne hother, hcells, hstates, CellTable.history,
      history?_cellsAfter_of_ne hwell hcell]
    rfl

/-- What an entity counts can be seen as well. -/
theorem stats_receive_add (hwell : message.WellFormed) (hevent : message.event = .entity) :
    (session.receive (.ok message)).session.stats =
      session.stats.add (session.view.gain (.ok message)) := by
  have hrelations := session.map_relation_edgesFor hwell hevent
  have hedges : (session.stats.countEdges (session.edgesFor message)).edges =
      ((session.view.relations message).map Relation.label).foldl Catalog.increment
        session.stats.edges := by
    rw [← hrelations, List.map_map, List.foldl_map]
    rfl
  -- Both ask the registry for the activity of the device.
  have hcause : session.isUncaused message = (session.view.cause? message).isNone := by
    cases message with
    | agent header agentType => exact nomatch hevent
    | activity header activityType => exact nomatch hevent
    | entity header entityType operation payload => rfl
  rw [stats_receive, hcause]
  exact congrArg
    (fun edges => ({ session.stats.add (session.view.gain (.ok message)) with edges } : Stats))
    hedges

/-- **What shows of a session changes with what shows**: the view of a session takes an entity as
the session does. -/
theorem view_receive_ok (hwell : message.WellFormed) (hevent : message.event = .entity) :
    (session.receive (.ok message)).session.view = session.view.take (.ok message) := by
  -- An entity is filed nowhere, so the registry stays; the counters and the states are those of the
  -- lemmas above.
  have hregistry : (session.receive (.ok message)).session.registry = session.registry := by
    cases message with
    | agent header agentType => exact nomatch hevent
    | activity header activityType => exact nomatch hevent
    | entity header entityType operation payload => exact registry_onEntity _ _ _ _ _
  have hretention : (session.receive (.ok message)).session.cells.retention =
      session.cells.retention := by
    rw [cells_receive, cellsAfter]
    cases message.observation? session.numbering.vertices with
    | none => rfl
    | some observation => exact (session.cells.observes observation.1 observation.2).retention_eq
  have hstates := session.states_receive hwell hevent
  rw [view] at hstates ⊢
  rw [View.take, ← hstates, session.stats_receive_add hwell hevent, hregistry, hretention]
  rfl

/-- A refused input changes what shows by its counters. -/
theorem view_receive_error (error : MessageError) :
    (session.receive (.error error)).session.view = session.view.take (.error error) := rfl

/-- What shows after refused inputs and entities follows from what showed before. -/
theorem view_after {inputs : List (Except MessageError Message)}
    (h : ∀ message, .ok message ∈ inputs → message.WellFormed ∧ message.event = .entity) :
    (session.after inputs).view = inputs.foldl View.take session.view := by
  induction inputs generalizing session with
  | nil => rfl
  | cons input inputs ih =>
    -- One step is that of `input`, and `ih` is about the session it leaves.
    have hfirst : (session.receive input).session.view = session.view.take input := by
      cases input with
      | error error => exact session.view_receive_error error
      | ok message =>
        exact session.view_receive_ok (h message List.mem_cons_self).1
          (h message List.mem_cons_self).2
    rw [after_cons, List.foldl_cons, ← hfirst]
    exact ih _ fun message hmem => h message (List.mem_cons_of_mem _ hmem)

end Entity

end Session

namespace Recorder

variable {σ : Type} [Sink σ]

/-- Callers that share a recorder take turns: their lines are processed one at a time, in the order
in which they come in. -/
def deliverAll (recorder : Recorder σ) (lines : List String) : Recorder σ :=
  (recorder.run (lines.map .process)).recorder

/-- The session behind the recorder runs on what the lines are read as. -/
theorem session_deliverAll (recorder : Recorder σ) (lines : List String) :
    (recorder.deliverAll lines).session = recorder.session.after (lines.map Message.decode) := by
  rw [deliverAll, session_run, List.map_map]
  rfl

/-- What shows after lines that are refused or about entities follows from what showed before,
line by line. -/
theorem view_deliverAll (recorder : Recorder σ) {lines : List String}
    (hkinds : ∀ line ∈ lines, ∀ message, Message.decode line = .ok message →
      message.event = .entity) :
    (recorder.deliverAll lines).session.view =
      lines.foldl (fun view line => view.take (Message.decode line)) recorder.session.view := by
  have hinputs : ∀ message, .ok message ∈ lines.map Message.decode →
      message.WellFormed ∧ message.event = .entity := by
    intro message hmem
    obtain ⟨line, hline, hdecode⟩ := List.mem_map.1 hmem
    exact ⟨Message.wellFormed_of_decode hdecode, hkinds line hline message hdecode⟩
  rw [session_deliverAll, view_after recorder.session hinputs, List.foldl_map]

/-- **How deliveries interleave does not show.** If lines that are refused or about entities come in
another order, and those about one register cell keep theirs, then whatever the recorder has seen
before, each line has counted once, the counters are the same afterwards, the registry is, the same
cells are in the table, and the history of each of them tells the same operations and values. -/
theorem interleaving_run (recorder : Recorder σ) {lines lines' : List String}
    (hkinds : ∀ line ∈ lines, ∀ message, Message.decode line = .ok message →
      message.event = .entity)
    (hperm : lines'.Perm lines)
    (horder : ∀ cell, lines'.filter (fun line => cellOf? (Message.decode line) = some cell) =
      lines.filter fun line => cellOf? (Message.decode line) = some cell) :
    let after := (recorder.deliverAll lines).session
    let after' := (recorder.deliverAll lines').session
    after.stats.messages = recorder.session.stats.messages + lines.length ∧
      after'.stats = after.stats ∧ after'.registry = after.registry ∧
      (∀ cell, cell ∈ after'.cells.entries.map (·.1) ↔ cell ∈ after.cells.entries.map (·.1)) ∧
      ∀ cell, (after'.cells.history cell).map stateOf = (after.cells.history cell).map stateOf := by
  have hkinds' : ∀ line ∈ lines', ∀ message, Message.decode line = .ok message →
      message.event = .entity :=
    fun line hline => hkinds line (hperm.mem_iff.1 hline)
  -- Lines about different cells may change places, and those about one cell do not have to.
  have hview : (recorder.deliverAll lines').session.view =
      (recorder.deliverAll lines).session.view := by
    rw [recorder.view_deliverAll hkinds, recorder.view_deliverAll hkinds']
    exact foldl_eq_of_perm (fun view line line' h => view.take_comm _ _ h) hperm horder _
  have hstates : ∀ cell, ((recorder.deliverAll lines').session.cells.history cell).map stateOf =
      ((recorder.deliverAll lines).session.cells.history cell).map stateOf :=
    fun cell => congrFun (congrArg View.states hview) cell
  refine ⟨?_, congrArg View.stats hview, congrArg View.registry hview, fun cell => ?_, hstates⟩
  · rw [session_deliverAll, messages_after, List.length_map]
  · -- A cell is in the table if its history is not empty, and that can be seen.
    rw [CellTable.mem_cells_iff, CellTable.mem_cells_iff, ne_eq,
      ← List.map_eq_nil_iff (f := stateOf), hstates, List.map_eq_nil_iff]

/-- Two writers and a line that is refused, the other way round. -/
theorem interleaving_run_reverse :
    let first := "ENTITY|R1|s1|1|Register|WRITE|\x7b\"index\":1,\"value\":5\x7d"
    let second := "ENTITY|R2|s1|2|Register|WRITE|\x7b\"index\":1,\"value\":6\x7d"
    cellOf? (Message.decode first) = some ⟨"R1", "s1", "1"⟩ ∧
      cellOf? (Message.decode second) = some ⟨"R2", "s1", "1"⟩ ∧
      cellOf? (Message.decode "HELLO") = none ∧
      ((start .full Document.empty).deliverAll ["HELLO", second, first]).session.stats =
        ((start .full Document.empty).deliverAll [first, second, "HELLO"]).session.stats := by
  intro first second
  have hfirst : cellOf? (Message.decode first) = some ⟨"R1", "s1", "1"⟩ := by decide +kernel
  have hsecond : cellOf? (Message.decode second) = some ⟨"R2", "s1", "1"⟩ := by decide +kernel
  have hrefused : cellOf? (Message.decode "HELLO") = none := by decide +kernel
  have hentities : ∀ line ∈ [first, second, "HELLO"],
      ((Message.decode line).toOption.all fun message => message.event = .entity) = true := by
    decide +kernel
  have hkinds : ∀ line ∈ [first, second, "HELLO"], ∀ message,
      Message.decode line = .ok message → message.event = .entity := by
    intro line hline message hdecode
    have hentity := hentities line hline
    rw [hdecode] at hentity
    exact of_decide_eq_true hentity
  refine ⟨hfirst, hsecond, hrefused,
    (interleaving_run (start .full Document.empty) hkinds ?_ ?_).2.1⟩
  · decide +kernel
  · intro cell
    simp only [List.filter_cons, hfirst, hsecond, hrefused]
    -- No cell is that of both lines.
    by_cases hcell : cell = ⟨"R1", "s1", "1"⟩
    · subst hcell
      rfl
    · simp [Ne.symm hcell]

end Recorder

end Lineage
