import Lineage.Proofs.Counters
import Lineage.Proofs.Detachment

/-!
# What is told of a message

A session tells of each message that it takes in: first what the table of cells makes of it, then
that its activity is missing, if it is, and last that it was taken in (`Session.told_receive`). The
sink adds the elements that it refuses, and nothing else is told (`Effect.countP_performAll`).

What an event says is in its level, its text and its details. By these a message that was dropped, a
missing activity and a refused element can be told from all else (`Event.warnsOfDrop_iff`,
`Event.warnsOfMissing_iff`, `Event.tellsOfRefusal_eq`). None of the first and the last is ever told
by a session itself (`Session.losses_told`).
-/

namespace Lineage

open Lineage.Graph Session Telemetry

/-! ### What is said in an event -/

/-- An element by its sort and its id. -/
inductive ElementId
  | vertex (id : String)
  | edge (id : String)
deriving DecidableEq

def Graph.Element.elementId : Element → ElementId
  | .vertex v => .vertex v.id
  | .edge e => .edge e.id

namespace Event

/-- Whether an event warns that a message was dropped for an error of a kind. -/
def warnsOfDrop (kind : String) (event : Event) : Bool :=
  event.level = .warn ∧ event.text = "Dropping telemetry message" ∧
    event.details.lookup "error_kind" = some kind

/-- Whether an event warns of an entity for which no activity is known. -/
def warnsOfMissing (event : Event) : Bool :=
  event.level = .warn ∧ event.text = "Entity has no causal activity"

/-- Whether an event is the error that an element was refused. -/
def tellsOfRefusal (event : Event) : Bool :=
  event.level = .error ∧
    (event.text = "Failed to submit provenance vertex" ∨
      event.text = "Failed to submit provenance edge")

/-- The element that was refused, as an event names it. -/
def refusedId? (event : Event) : Option ElementId :=
  if event.level = .error ∧ event.text = "Failed to submit provenance vertex" then
    (event.details.lookup "vertex_id").map .vertex
  else if event.level = .error ∧ event.text = "Failed to submit provenance edge" then
    (event.details.lookup "edge_id").map .edge
  else none

/-- Only a message that was dropped is warned of so, and with the kind of its error. -/
theorem warnsOfDrop_iff {kind : String} {event : Event} :
    event.warnsOfDrop kind = true ↔
      ∃ error : MessageError, event = .messageDropped error ∧ error.kind = kind := by
  -- Of each event it is looked up what it says.
  cases event <;> simp [warnsOfDrop, level, text, details, List.lookup_cons]

/-- Only a missing activity is warned of so. -/
theorem warnsOfMissing_iff {event : Event} :
    event.warnsOfMissing = true ↔
      ∃ agentId entityId, event = .noCausalActivity agentId entityId := by
  cases event <;> simp [warnsOfMissing, level, text]

/-- An event says that an element was refused just if it is the event of a refusal. -/
theorem tellsOfRefusal_eq : tellsOfRefusal = isRefusal := by
  funext event
  cases event with
  | submissionFailed element error => cases element <;> rfl
  | _ => simp [tellsOfRefusal, isRefusal, level, text]

/-- It names the element by its id, and its text tells the sort. -/
theorem refusedId?_submissionFailed (element : Element) (error : SinkError) :
    (submissionFailed element error).refusedId? = some element.elementId := by
  cases element <;> simp [refusedId?, level, text, details, List.lookup_cons, Element.elementId]

/-- The warning that a message was dropped is of no element. -/
theorem isRefusal_of_warnsOfDrop {kind : String} {event : Event}
    (h : event.warnsOfDrop kind = true) : event.isRefusal = false := by
  obtain ⟨error, rfl, -⟩ := warnsOfDrop_iff.1 h
  rfl

/-- Nor is the one of a missing activity. -/
theorem isRefusal_of_warnsOfMissing {event : Event} (h : event.warnsOfMissing = true) :
    event.isRefusal = false := by
  obtain ⟨agentId, entityId, rfl⟩ := warnsOfMissing_iff.1 h
  rfl

/-- Nothing but a refusal names an element that was refused. -/
theorem refusedId?_eq_none {event : Event} (h : event.isRefusal = false) :
    event.refusedId? = none := by
  cases event with
  | submissionFailed element error => exact absurd h (by simp [isRefusal])
  | _ => simp [refusedId?, level, text]

end Event

/-! ### What a session tells -/

namespace Step

/-- The events that a step has told. -/
def told (step : Step) : List Event :=
  step.effects.filterMap Effect.event?

variable (step : Step)

/-- What is told comes last. -/
theorem told_tell (event : Event) : (step.tell event).told = step.told ++ [event] := by
  simp [tell, told, Effect.event?]

/-- Adding an edge tells of nothing. -/
theorem told_addEdge (edge : Nat → Edge) : (step.addEdge edge).told = step.told := by
  simp [addEdge, told, Effect.event?]

/-- That an activity is missing is told where it is flagged. -/
theorem told_flagMissing (agentId : String) :
    (step.flagMissing agentId).told =
      step.told ++ [.noCausalActivity agentId step.outcome.vertex] := by
  simp [flagMissing, told, Effect.event?]

/-- What the table makes of an entity is told. -/
theorem told_observe (operation : Operation) (entity : Node) :
    (step.observe operation entity).told =
      step.told ++ ((step.session.cells.observe operation entity).2.event? entity).toList := by
  have hnote : ∀ note : Option Event, (note.toList.map Effect.tell).filterMap Effect.event? =
      note.toList := by
    intro note
    cases note <;> rfl
  rcases hobserve : step.session.cells.observe operation entity with ⟨cells, observation⟩
  cases hchange : observation.change? with
  | none =>
    simp only [observe, hobserve, hchange, told]
    rw [List.filterMap_append, hnote]
  | some change =>
    -- The edge that the change leads to tells of nothing.
    simp only [observe, hobserve, hchange]
    rw [told_addEdge, told, told, List.filterMap_append, hnote]

/-- An entity that the table is not shown leads to nothing that is told. -/
theorem told_see (entityType : String) (operation : Operation) (entity : Node) :
    (step.see entityType operation entity).told =
      step.told ++
        ((if (EntityKind.ofTag entityType).isStateful then some (operation, entity) else none).bind
          fun observation => (step.session.cells.observe observation.1 observation.2).2.event?
            observation.2).toList := by
  unfold see
  by_cases hstate : (EntityKind.ofTag entityType).isStateful = true
  · rw [if_pos hstate, if_pos hstate, Option.bind_some]
    exact step.told_observe operation entity
  · rw [if_neg hstate, if_neg hstate, Option.bind_none]
    exact (List.append_nil _).symm

end Step

namespace Session

/-- What the table of cells tells of a message. -/
def cellNote? (session : Session) (message : Message) : Option Event :=
  (message.observation? session.numbering.vertices).bind fun observation =>
    (session.cells.observe observation.1 observation.2).2.event? observation.2

/-- The warning that no activity is known for the entity of a message, if none is. -/
def missingNote? (session : Session) (message : Message) : Option Event :=
  if session.isUncaused message then
    some (.noCausalActivity message.header.agentId (session.nodeFor message).id)
  else none

/-- What a session tells of a message besides that it was taken in. -/
def notesFor (session : Session) (message : Message) : List Event :=
  (session.cellNote? message).toList ++ (session.missingNote? message).toList

section Told

variable (session : Session) (message : Message)

/-- Of an agent nothing else is told, -/
theorem told_onAgent (agentId : String) (node : Node) (step : Step) :
    (onAgent agentId node step).told = step.told := by
  unfold onAgent
  cases awaitingAgent? step.session.registry agentId node with
  | none => rfl
  | some activity => exact Step.told_addEdge _ _

/-- nor of an activity. -/
theorem told_onActivity (agentId : String) (node : Node) (step : Step) :
    (onActivity agentId node step).told = step.told := by
  unfold onActivity
  cases agentFor? step.session.registry agentId node with
  | none => rfl
  | some agent => exact Step.told_addEdge _ _

/-- What the table tells of an entity comes before the warning that its activity is missing. -/
theorem told_onEntity (agentId entityType : String) (operation : Operation) (node : Node)
    (step : Step) {notes : List Event}
    (hsee : (step.see entityType operation node).told = step.told ++ notes)
    (hvertex : (step.see entityType operation node).outcome.vertex = node.id) :
    (onEntity agentId entityType operation node step).told =
      step.told ++ (notes ++
        (if (causeFor? step.session.registry agentId).isNone then
          some (Event.noCausalActivity agentId node.id)
        else none).toList) := by
  rw [onEntity_eq]
  -- The warning, if there is one, comes behind what the cell is worth telling.
  cases causeFor? step.session.registry agentId with
  | none =>
    rw [Step.told_flagMissing, hsee, hvertex, List.append_assoc]
    rfl
  | some activity =>
    rw [Step.told_addEdge, hsee]
    exact congrArg (step.told ++ ·) (List.append_nil notes).symm

/-- Before it is told that a message was taken in, its notes are told. -/
theorem told_continueWith :
    (continueWith message (session.nodeFor message) (session.addVertex message).2).told =
      session.notesFor message := by
  -- Adding the vertex has told of nothing yet.
  have hstart : (session.addVertex message).2.told = [] := rfl
  cases message with
  | agent header agentType => exact (told_onAgent header.agentId _ _).trans hstart
  | activity header activityType => exact (told_onActivity header.agentId _ _).trans hstart
  | entity header entityType operation payload =>
    have hvertex :=
      (Step.extends_see (session.addVertex (.entity header entityType operation payload)).2
        entityType operation (session.nodeFor (.entity header entityType operation payload))).vertex
    exact told_onEntity header.agentId entityType operation _ _ (Step.told_see _ _ _ _) hvertex

/-- The last thing that is told is that the message was taken in, with the number of its edges. -/
theorem told_apply : (session.apply message).told =
    session.notesFor message ++
      [.messageDispatched (session.nodeFor message).id (session.edgesFor message).length] := by
  have hextends := extends_continueWith session message
  have hedges :
      (continueWith message (session.nodeFor message) (session.addVertex message).2).outcome.edges =
        (session.edgesFor message).map Edge.id := hextends.reported
  have happly : session.apply message =
      (continueWith message (session.nodeFor message) (session.addVertex message).2).tell
        (.messageDispatched (continueWith message (session.nodeFor message)
          (session.addVertex message).2).outcome.vertex
        (continueWith message (session.nodeFor message)
          (session.addVertex message).2).outcome.edges.length) := rfl
  -- The last note tells the vertex and the number of edges.
  rw [happly, Step.told_tell, told_continueWith, hextends.vertex, hedges, List.length_map]
  rfl

/-- **What a session tells of a message**: its notes, and then that the message was taken in. -/
theorem told_receive : (session.receive (.ok message)).effects.filterMap Effect.event? =
    session.notesFor message ++
      [.messageDispatched (session.nodeFor message).id (session.edgesFor message).length] :=
  -- The message counts before it is taken in; nothing that is told looks at the counters.
  told_apply { session with stats := session.stats.countMessage } message

/-- The table of cells tells of cells only. -/
theorem cellNote?_cases {event : Event} (h : session.cellNote? message = some event) :
    (∃ entityId, event = .noCell entityId) ∨ ∃ cell change, event = .cellChanged cell change := by
  obtain ⟨observation, -, hevent⟩ := Option.bind_eq_some_iff.1 h
  cases hobserved : (session.cells.observe observation.1 observation.2).2 with
  | noCell => exact .inl ⟨_, Option.some.inj (hobserved ▸ hevent).symm⟩
  | changed cell change => exact .inr ⟨cell, change, Option.some.inj (hobserved ▸ hevent).symm⟩
  -- Of these the table tells nothing.
  | noValue | seeded | unchanged =>
    rw [hobserved] at hevent
    cases hevent

/-- A session tells neither of messages that are dropped nor of elements that are refused. -/
theorem losses_told {event : Event}
    (h : event ∈ (session.receive (.ok message)).effects.filterMap Effect.event?) :
    event.isRefusal = false ∧ ∀ kind, event.warnsOfDrop kind = false := by
  rw [told_receive, notesFor, List.mem_append, List.mem_append, List.mem_singleton,
    Option.mem_toList, Option.mem_toList] at h
  rcases h with (hcell | hmissing) | rfl
  · rcases session.cellNote?_cases message hcell with ⟨entityId, rfl⟩ | ⟨cell, change, rfl⟩ <;>
      exact ⟨rfl, fun kind => rfl⟩
  · -- A missing activity is warned of by another text.
    obtain ⟨-, hevent⟩ := Option.ite_none_right_eq_some.1 hmissing
    obtain rfl := Option.some.inj hevent
    exact ⟨rfl, fun kind => by simp [Event.warnsOfDrop, Event.text]⟩
  · exact ⟨rfl, fun kind => rfl⟩

/-- A session warns of a missing activity where it counts one. -/
theorem countP_warnsOfMissing_told :
    ((session.receive (.ok message)).effects.filterMap Effect.event?).countP Event.warnsOfMissing =
      (session.isUncaused message).toNat := by
  -- What the table tells is no such warning.
  have hcell : (session.cellNote? message).toList.countP Event.warnsOfMissing = 0 := by
    refine List.countP_eq_zero.2 fun event hmem => ?_
    rcases session.cellNote?_cases message (Option.mem_toList.1 hmem) with
      ⟨entityId, rfl⟩ | ⟨cell, change, rfl⟩ <;>
      exact Bool.false_ne_true
  have hmissing : (session.missingNote? message).toList.countP Event.warnsOfMissing =
      (session.isUncaused message).toNat := by
    unfold missingNote?
    cases session.isUncaused message <;> rfl
  rw [told_receive, notesFor, List.countP_append, List.countP_append, hcell, hmissing, Nat.zero_add]
  rfl

end Told

end Session

/-- An element is submitted, and told of if it is refused, before anything else is done. -/
theorem Effect.performAll_submit {σ : Type} [Sink σ] (sink : σ) (element : Element)
    (effects : List Effect) :
    performAll sink (.submit element :: effects) =
      ((performAll (Sink.submit sink element).1 effects).1,
        ((Sink.submit sink element).2.map (Event.submissionFailed element)).toList ++
          (performAll (Sink.submit sink element).1 effects).2) := rfl

/-- What is no refusal is told as often as the effects say. -/
theorem Effect.countP_performAll {σ : Type} [Sink σ] (sink : σ) (effects : List Effect)
    {p : Event → Bool} (hp : ∀ event, p event = true → event.isRefusal = false) :
    (performAll sink effects).2.countP p = (effects.filterMap Effect.event?).countP p := by
  have hkept : ∀ events : List Event,
      (events.filter fun event => !event.isRefusal).countP p = events.countP p := by
    intro events
    rw [List.countP_filter]
    refine List.countP_congr fun event _ => ?_
    simp only [Bool.and_eq_true, Bool.not_eq_true', and_iff_left_iff_imp]
    exact hp event
  -- What the sink adds are refusals, and `p` holds of none.
  rw [← hkept, filter_performAll_snd, hkept]

end Lineage
