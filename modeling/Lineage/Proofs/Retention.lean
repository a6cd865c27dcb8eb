import Lineage.Proofs.CellHistory
import Lineage.Proofs.Delivery

/-!
# Retention shows in the histories alone

A recorder that keeps the latest state of each cell only cannot be told from one that keeps all of
them, except by the histories themselves. The latest state is all that a change is recognized by,
and no other part of a session looks at the cells.

So there is a map from sessions that keep all of the histories to sessions that keep the latest
states (`Session.brief`), and it goes along with every operation: forgetting the earlier states and
then taking in a message is taking in the message and then forgetting them
(`Session.receive_brief`). Both recorders start alike, so whatever they are called with, one of them
is what the other becomes by forgetting (`Recorder.run_brief`).
-/

namespace Lineage

open Lineage.Graph Session Telemetry

/-! ### Forgetting earlier states -/

namespace Session

/-- The history of a cell without its earlier states. -/
def History.brief (history : History) : History :=
  .single history.latest

namespace CellTable

/-- The table that keeps the latest states only. -/
def brief (table : CellTable) : CellTable where
  retention := .latestOnly
  entries := table.entries.map fun entry => (entry.1, entry.2.brief)
  nodup_cells := by
    rw [List.map_map]
    exact table.nodup_cells

variable (table : CellTable)

/-- A cell has a history in the one table if it has one in the other. -/
@[simp] theorem history?_brief (cell : Cell) :
    table.brief.history? cell = (table.history? cell).map History.brief := by
  simp only [history?, brief, List.find?_map, Option.map_map]
  rfl

/-- Forgetting takes nothing away that is the latest state of a cell. -/
theorem latest?_brief (cell : Cell) : table.brief.latest? cell = table.latest? cell := by
  rw [latest?, latest?, history?_brief, Option.map_map]
  rfl

/-- Of a history the latest state is left. -/
theorem history_brief (cell : Cell) :
    table.brief.history cell = (table.history cell).getLast?.toList := by
  rw [history, history, history?_brief]
  cases table.history? cell with
  | none => rfl
  | some history => simp [History.brief, History.single, History.toList]

/-- No cell is forgotten. -/
theorem cells_brief : table.brief.entries.map (·.1) = table.entries.map (·.1) := by
  rw [brief, List.map_map]
  rfl

/-- A state that is added is all that is left of the history. -/
theorem brief_push (history : History) (retention : Retention) (entity : Node) :
    (history.push retention entity).brief = history.brief.push .latestOnly entity := by
  cases retention <;> rfl

/-- A cell that is in the table has a latest state. -/
theorem exists_latest? {cell : Cell} (h : cell ∈ table.entries.map (·.1)) :
    ∃ state, table.latest? cell = some state := by
  obtain ⟨entry, hentry, rfl⟩ := List.mem_map.1 h
  rw [latest?, history?, find?_key_of_mem (·.1) table.nodup_cells hentry]
  exact ⟨_, rfl⟩

/-- Filing a history and then forgetting is forgetting and then filing what is left of the
history. -/
theorem brief_put (cell : Cell) (history : History) :
    (table.put cell history).brief = table.brief.put cell history.brief := by
  have hentries :=
    map_putByKey_comm (·.1) (·.1) (f := fun entry : Cell × History => (entry.1, entry.2.brief))
      (fun _ => rfl) (cell, history) table.entries
  simp only [put, brief, hentries]

/-- Which states are kept makes no difference to an observation. -/
theorem observe_brief (operation : Operation) (entity : Node) :
    table.brief.observe operation entity =
      ((table.observe operation entity).1.brief, (table.observe operation entity).2) := by
  simp only [observe]
  cases hcell : Cell.ofNode? entity with
  | none => rfl
  | some cell =>
    cases hvalue : entity.get? Key.value with
    | none => rfl
    | some value =>
      simp only [history?_brief]
      -- The same is asked of both histories: whether there is one, and what its latest state is.
      cases hhistory : table.history? cell with
      | none => simp only [Option.map_none, brief_put, History.brief, History.single]
      | some history =>
        have hlatest : history.brief.latest = history.latest := rfl
        simp only [Option.map_some, hlatest]
        -- The latest states are the same, and so is the change.
        split
        · rw [brief_put, brief_push]
          rfl
        · rfl

end CellTable

def brief (session : Session) : Session :=
  { session with cells := session.cells.brief }

end Session

def Step.brief (step : Step) : Step :=
  { step with session := step.session.brief }

/-! ### Taking in a message -/

/-- Which states are kept makes no difference to the derivation of a new one. -/
theorem Step.observe_brief (step : Step) (operation : Operation) (entity : Node) :
    step.brief.observe operation entity = (step.observe operation entity).brief := by
  have hobserve := step.session.cells.observe_brief operation entity
  rcases hfull : step.session.cells.observe operation entity with ⟨cells, observation⟩
  rw [hfull] at hobserve
  have hbrief : step.brief.session.cells.observe operation entity = (cells.brief, observation) :=
    hobserve
  simp only [observe, hfull, hbrief]
  cases observation.change? <;> rfl

/-- Nor does it to an entity that has no state. -/
theorem Step.see_brief (step : Step) (entityType : String) (operation : Operation) (entity : Node) :
    step.brief.see entityType operation entity = (step.see entityType operation entity).brief := by
  unfold see
  split
  · exact step.observe_brief operation entity
  · rfl

namespace Session

section Handlers

variable (agentId : String) (node : Node) (step : Step)

/-- An agent is taken in the same way, -/
theorem onAgent_brief : onAgent agentId node step.brief = (onAgent agentId node step).brief := by
  have hregistry : step.brief.session.registry = step.session.registry := rfl
  simp only [onAgent, hregistry]
  split <;> rfl

/-- an activity is, -/
theorem onActivity_brief :
    onActivity agentId node step.brief = (onActivity agentId node step).brief := by
  have hregistry : step.brief.session.registry = step.session.registry := rfl
  simp only [onActivity, hregistry]
  split <;> rfl

/-- and an entity is, whose cell is known in both tables or in neither. -/
theorem onEntity_brief (entityType : String) (operation : Operation) :
    onEntity agentId entityType operation node step.brief =
      (onEntity agentId entityType operation node step).brief := by
  -- The registry knows nothing of cells.
  have hregistry : step.brief.session.registry = step.session.registry := rfl
  rw [onEntity_eq, onEntity_eq, hregistry, step.see_brief]
  cases causeFor? step.session.registry agentId <;> rfl

end Handlers

/-- So every message is, with its vertex. -/
theorem apply_brief (session : Session) (message : Message) :
    session.brief.apply message = (session.apply message).brief := by
  have hvertex : session.brief.addVertex message =
      ((session.addVertex message).1, (session.addVertex message).2.brief) := rfl
  have hcontinue :
      continueWith message (session.addVertex message).1 (session.addVertex message).2.brief =
        (continueWith message (session.addVertex message).1
          (session.addVertex message).2).brief := by
    cases message with
    | agent header agentType => exact onAgent_brief _ _ _
    | activity header activityType => exact onActivity_brief _ _ _
    | entity header entityType operation payload => exact onEntity_brief _ _ _ _ _
  simp only [apply, hvertex, hcontinue]
  rfl

/-- **Forgetting goes along with taking in**: what becomes of an input is the same, but for the
session afterwards, which has forgotten the same states. -/
theorem receive_brief (session : Session) (input : Except MessageError Message) :
    session.brief.receive input =
      { session.receive input with session := (session.receive input).session.brief } := by
  cases input with
  | error error => rfl
  | ok message =>
    -- The message is counted first, and the counters have no part in forgetting.
    have happly := apply_brief { session with stats := session.stats.countMessage } message
    have hcount : { session.brief with stats := session.brief.stats.countMessage } =
        ({ session with stats := session.stats.countMessage } : Session).brief := rfl
    simp only [receive, hcount, happly]
    rfl

end Session

/-! ### Answering calls -/

namespace Recorder

variable {σ : Type} [Sink σ]

def brief (recorder : Recorder σ) : Recorder σ :=
  ⟨recorder.session.brief, recorder.sink⟩

/-- Which states are kept makes no difference to an answer, to the journal or to the sink. -/
theorem perform_brief (recorder : Recorder σ) (call : Call) :
    recorder.brief.perform call =
      { recorder.perform call with recorder := (recorder.perform call).recorder.brief } := by
  have hdispatch : ∀ spans decoded, recorder.brief.dispatchIn spans decoded =
      { recorder.dispatchIn spans decoded with
        recorder := (recorder.dispatchIn spans decoded).recorder.brief } := by
    intro spans decoded
    simp only [dispatchIn, brief, receive_brief]
  have hprocess : ∀ spans decoded, recorder.brief.processIn spans decoded =
      { recorder.processIn spans decoded with
        recorder := (recorder.processIn spans decoded).recorder.brief } := by
    intro spans decoded
    -- The number of a span is taken from the counters.
    have hspan : recorder.brief.spanFor decoded = recorder.spanFor decoded := rfl
    simp only [processIn, hspan, hdispatch]
    split <;> rfl
  cases call with
  | dispatch line => simp only [perform, dispatch, hdispatch]
  | process line => simp only [perform, process, hprocess]
  | processBytes raw => simp only [perform, processBytes, hprocess]

/-- **Forgetting goes along with a run.** -/
theorem run_brief (recorder : Recorder σ) (calls : List Call) :
    recorder.brief.run calls =
      { recorder.run calls with recorder := (recorder.run calls).recorder.brief } := by
  induction calls generalizing recorder with
  | nil => rfl
  | cons call calls ih => simp only [run, perform_brief, ih]

end Recorder

/-- Two runs that are told apart by their histories alone: the first keeps all states, the
second the latest. -/
structure AgreeButHistories {σ : Type} (whole short : Delivery (Tape σ) (List Answer)) : Prop where
  /-- Every call has the same answer. -/
  result : short.result = whole.result
  /-- The same is told. -/
  journal : short.journal = whole.journal
  /-- The same elements are submitted, in the same order. -/
  taken : short.recorder.sink.taken = whole.recorder.sink.taken
  /-- The sink is the same afterwards. -/
  sink : short.recorder.sink.sink = whole.recorder.sink.sink
  /-- The same is counted. -/
  stats : short.recorder.session.stats = whole.recorder.session.stats
  /-- The same devices are known. -/
  registry : short.recorder.session.registry = whole.recorder.session.registry
  /-- The same cells were observed. -/
  cells : short.recorder.session.cells.entries.map (·.1) =
    whole.recorder.session.cells.entries.map (·.1)
  /-- Every cell has the same latest state. -/
  latest? : ∀ cell,
    short.recorder.session.cells.latest? cell = whole.recorder.session.cells.latest? cell
  /-- Of the history of every cell that was observed, the last state is left. -/
  history : ∀ cell ∈ whole.recorder.session.cells.entries.map (·.1), ∃ state,
    (whole.recorder.session.cells.history cell).getLast? = some state ∧
      short.recorder.session.cells.history cell = [state]

/-- **Retention shows in the histories alone**, whatever the calls are and however the
sink behaves. -/
theorem Recorder.latestOnly_run {σ : Type} [Sink σ] (sink : σ) (calls : List Call) :
    AgreeButHistories ((start .full (Tape.blank sink)).run calls)
      ((start .latestOnly (Tape.blank sink)).run calls) := by
  -- At the start there is nothing to forget, so one recorder is the other one's brief form from
  -- then on.
  have hstart : start .latestOnly (Tape.blank sink) = (start .full (Tape.blank sink)).brief := rfl
  rw [hstart, run_brief]
  refine ⟨rfl, rfl, rfl, rfl, rfl, rfl, CellTable.cells_brief _, CellTable.latest?_brief _, ?_⟩
  intro cell hcell
  obtain ⟨state, hstate⟩ := CellTable.exists_latest? _ hcell
  have hlast := (CellTable.getLast?_history _ cell).trans hstate
  refine ⟨state, hlast, (CellTable.history_brief _ cell).trans ?_⟩
  rw [hlast]
  rfl

end Lineage
