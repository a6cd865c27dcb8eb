import Lineage.Proofs.Annotations
import Lineage.Session.Dispatch

/-!
# What one message does to a session

A session takes in a message by a chain of small changes to a `Step`. Here the outcome of the whole
chain is said once, in terms of the session before and of the message:

* the message adds its vertex, `Session.nodeFor`, and after it the edges `Session.edgesFor`, which
  are numbered on from the last edge before (`Session.submissions_receive`,
  `Session.result_receive`, `Session.numbering_receive`);
* it is filed as the latest agent or activity of its device (`Session.agentOf?_receive`,
  `Session.activityOf?_receive`), and just the activities that its association edges start from are
  marked (`Session.isAssociated_receive`);
* the table of cells observes it if it is about a state (`Session.cells_receive`).

A refused message changes the counters alone (`Session.drop`). Everything that is shown of runs goes
through these equations; the chain itself is not looked into again.
-/

namespace Lineage

open Lineage.Graph Session Telemetry

/-! ### Elements of one sort -/

/-- The vertex that an element is. -/
def Graph.Element.vertex? : Element → Option Vertex
  | .vertex v => some v
  | .edge _ => none

/-- The edge that an element is. -/
def Graph.Element.edge? : Element → Option Edge
  | .vertex _ => none
  | .edge e => some e

/-! ### Steps that add edges -/

namespace Step

/-- The elements that a step has submitted. -/
def submitted (step : Step) : List Element :=
  step.effects.filterMap Effect.element?

/-- A step goes on to another one by adding some edges: they are numbered, reported and submitted in
their order, and of what was said before nothing is taken back. -/
structure Extends (step : Step) (added : List Edge) (next : Step) : Prop where
  vertices : next.session.numbering.vertices = step.session.numbering.vertices
  edges : next.session.numbering.edges = step.session.numbering.edges + added.length
  event : next.outcome.event = step.outcome.event
  vertex : next.outcome.vertex = step.outcome.vertex
  reported : next.outcome.edges = step.outcome.edges ++ added.map Edge.id
  submitted : next.submitted = step.submitted ++ added.map .edge

/-- One step may go on behind the other. -/
theorem Extends.trans {step middle next : Step} {es fs : List Edge} (h : step.Extends es middle)
    (h' : middle.Extends fs next) : step.Extends (es ++ fs) next where
  vertices := h'.vertices.trans h.vertices
  edges := by rw [h'.edges, h.edges, List.length_append, Nat.add_assoc]
  event := h'.event.trans h.event
  vertex := h'.vertex.trans h.vertex
  reported := by rw [h'.reported, h.reported, List.map_append, List.append_assoc]
  submitted := by rw [h'.submitted, h.submitted, List.map_append, List.append_assoc]

variable (step : Step)

/-- A step goes on to itself without an edge, -/
theorem extends_refl : step.Extends [] step := by
  constructor <;> simp

/-- and so it does when something is told, -/
theorem extends_tell (event : Event) : step.Extends [] (step.tell event) := by
  constructor <;> simp [tell, submitted, Effect.element?]

/-- when something is filed, -/
theorem extends_mapRegistry (f : Registry → Registry) : step.Extends [] (step.mapRegistry f) := by
  constructor <;> simp [mapRegistry, submitted]

/-- or when an activity is missed. -/
theorem extends_flagMissing (agentId : String) : step.Extends [] (step.flagMissing agentId) := by
  constructor <;> simp [flagMissing, submitted, Effect.element?]

/-- An edge is added under the next number. -/
theorem extends_addEdge (edge : Nat → Edge) :
    step.Extends [edge (step.session.numbering.edges + 1)] (step.addEdge edge) := by
  constructor <;> simp [addEdge, Numbering.addEdge, submitted, Effect.element?]

/-- An observation adds the derivation of the change that it reports, if it reports one. -/
theorem extends_observe (operation : Operation) (entity : Node) :
    step.Extends
      ((step.session.cells.observe operation entity).2.change?.toList.map
        (derivationEdge (step.session.numbering.edges + 1) operation))
      (step.observe operation entity) := by
  -- Telling what was observed submits nothing.
  have htold : ∀ observation : Observation,
      List.filterMap Effect.element? ((observation.event? entity).toList.map Effect.tell) = [] := by
    intro observation
    cases observation.event? entity <;> rfl
  rcases hobserve : step.session.cells.observe operation entity with ⟨cells, observation⟩
  -- Without a change there is only what is told; with one, its edge is added behind it.
  cases hchange : observation.change? with
  | none => constructor <;> simp [observe, hobserve, hchange, submitted, htold]
  | some change =>
    constructor <;>
      simp [observe, hobserve, hchange, addEdge, Numbering.addEdge, submitted, Effect.element?,
        htold]

/-- A step after the table of cells was shown an entity, if it is about a state. -/
def see (entityType : String) (operation : Operation) (entity : Node) : Step :=
  if (EntityKind.ofTag entityType).isStateful then step.observe operation entity else step

/-- An entity that is shown to the table adds the derivation of the change that it brings about. -/
theorem extends_see (entityType : String) (operation : Operation) (entity : Node) :
    step.Extends
      (((if (EntityKind.ofTag entityType).isStateful then some (operation, entity) else none).bind
          fun observation =>
            (step.session.cells.observe observation.1 observation.2).2.change?).toList.map
        (derivationEdge (step.session.numbering.edges + 1) operation))
      (step.see entityType operation entity) := by
  unfold see
  by_cases hstate : (EntityKind.ofTag entityType).isStateful = true
  · rw [if_pos hstate, if_pos hstate, Option.bind_some]
    exact step.extends_observe operation entity
  · rw [if_neg hstate, if_neg hstate, Option.bind_none]
    exact step.extends_refl

/-! What a step does besides adding edges. -/

@[simp] theorem addEdge_registry (edge : Nat → Edge) :
    (step.addEdge edge).session.registry = step.session.registry := rfl

@[simp] theorem addEdge_cells (edge : Nat → Edge) :
    (step.addEdge edge).session.cells = step.session.cells := rfl

@[simp] theorem addEdge_missingCorrelation (edge : Nat → Edge) :
    (step.addEdge edge).outcome.missingCorrelation = step.outcome.missingCorrelation := rfl

@[simp] theorem mapRegistry_registry (f : Registry → Registry) :
    (step.mapRegistry f).session.registry = f step.session.registry := rfl

@[simp] theorem flagMissing_registry (agentId : String) :
    (step.flagMissing agentId).session.registry = step.session.registry := rfl

@[simp] theorem flagMissing_cells (agentId : String) :
    (step.flagMissing agentId).session.cells = step.session.cells := rfl

@[simp] theorem observe_registry (operation : Operation) (entity : Node) :
    (step.observe operation entity).session.registry = step.session.registry := by
  rcases hobserve : step.session.cells.observe operation entity with ⟨cells, observation⟩
  cases hchange : observation.change? <;> simp [observe, hobserve, hchange]

@[simp] theorem observe_cells (operation : Operation) (entity : Node) :
    (step.observe operation entity).session.cells =
      (step.session.cells.observe operation entity).1 := by
  rcases hobserve : step.session.cells.observe operation entity with ⟨cells, observation⟩
  cases hchange : observation.change? <;> simp [observe, hobserve, hchange]

@[simp] theorem observe_missingCorrelation (operation : Operation) (entity : Node) :
    (step.observe operation entity).outcome.missingCorrelation =
      step.outcome.missingCorrelation := by
  rcases hobserve : step.session.cells.observe operation entity with ⟨cells, observation⟩
  cases hchange : observation.change? <;> simp [observe, hobserve, hchange]

@[simp] theorem see_registry (entityType : String) (operation : Operation) (entity : Node) :
    (step.see entityType operation entity).session.registry = step.session.registry := by
  unfold see
  split
  · exact step.observe_registry operation entity
  · rfl

@[simp] theorem see_missingCorrelation (entityType : String) (operation : Operation)
    (entity : Node) :
    (step.see entityType operation entity).outcome.missingCorrelation =
      step.outcome.missingCorrelation := by
  unfold see
  split
  · exact step.observe_missingCorrelation operation entity
  · rfl

/-- The table has seen an entity with a state, and no other. -/
theorem see_cells (entityType : String) (operation : Operation) (entity : Node) :
    (step.see entityType operation entity).session.cells =
      if (EntityKind.ofTag entityType).isStateful then
        (step.session.cells.observe operation entity).1
      else step.session.cells := by
  unfold see
  split
  · exact step.observe_cells operation entity
  · rfl

end Step

/-! ### What a message is -/

namespace Telemetry.Message

/-- Whether a message announces the agent of a device. -/
def isAgentOf (agentId : String) : Message → Bool
  | .agent header _ => header.agentId = agentId
  | _ => false

/-- Whether a message announces an activity of a device. -/
def isActivityOf (agentId : String) : Message → Bool
  | .activity header _ => header.agentId = agentId
  | _ => false

/-- What the table of cells is shown of a message whose vertex has a number: the entity, with what
was done to it. -/
def observation? (message : Message) (index : Nat) : Option (Operation × Node) :=
  match message with
  | .entity _ entityType operation _ =>
    if (EntityKind.ofTag entityType).isStateful then some (operation, message.node index) else none
  | _ => none

end Telemetry.Message

namespace Session

/-! ### What a message leads to -/

/-- The node of the vertex that a message adds. -/
def nodeFor (session : Session) (message : Message) : Node :=
  message.node session.numbering.vertices

/-- The vertex that a message adds. -/
def vertexFor (session : Session) (message : Message) : Vertex :=
  (session.nodeFor message).toVertex message.event.vertexKind

/-- The change of a cell that a message brings about. -/
def changeFor? (session : Session) (message : Message) : Option Change :=
  (message.observation? session.numbering.vertices).bind fun observation =>
    (session.cells.observe observation.1 observation.2).2.change?

/-- The edges that a message leads to, in their order. -/
def edgesFor (session : Session) (message : Message) : List Edge :=
  let node := session.nodeFor message
  let next := session.numbering.edges + 1
  match message with
  | .agent header _ =>
    (awaitingAgent? session.registry header.agentId node).toList.map fun activity =>
      associationEdge next activity node
  | .activity header _ =>
    (agentFor? session.registry header.agentId node).toList.map fun agent =>
      associationEdge next node agent
  | .entity header _ operation _ =>
    let derivations := (session.changeFor? message).toList.map (derivationEdge next operation)
    derivations ++ (causeFor? session.registry header.agentId).toList.map
      (causalEdge (next + derivations.length) operation node)

/-- The vertices that are submitted for an input. -/
def Reception.vertices (reception : Reception) : List Vertex :=
  reception.submissions.filterMap Element.vertex?

/-- The edges that are submitted for an input. -/
def Reception.edges (reception : Reception) : List Edge :=
  reception.submissions.filterMap Element.edge?

/-- Whether a message is about an entity for which no activity is known. -/
def isUncaused (session : Session) : Message → Bool
  | .entity header _ _ _ => (causeFor? session.registry header.agentId).isNone
  | _ => false

/-- The table of cells after a message. -/
def cellsAfter (session : Session) (message : Message) : CellTable :=
  match message.observation? session.numbering.vertices with
  | some (operation, entity) => (session.cells.observe operation entity).1
  | none => session.cells

section Edges

variable {session : Session} {header : Header} {edge : Edge}

/-- The one edge that an agent may lead to associates the activity that was waiting for it. -/
theorem mem_edgesFor_agent {agentType : String} :
    edge ∈ session.edgesFor (.agent header agentType) ↔
      ∃ activity,
        awaitingAgent? session.registry header.agentId
          (session.nodeFor (.agent header agentType)) = some activity ∧
        edge = associationEdge (session.numbering.edges + 1) activity
          (session.nodeFor (.agent header agentType)) := by
  simp [edgesFor, eq_comm]

/-- The one edge that an activity may lead to associates it with the agent that is there for it. -/
theorem mem_edgesFor_activity {activityType : String} :
    edge ∈ session.edgesFor (.activity header activityType) ↔
      ∃ agent,
        agentFor? session.registry header.agentId
          (session.nodeFor (.activity header activityType)) = some agent ∧
        edge = associationEdge (session.numbering.edges + 1)
          (session.nodeFor (.activity header activityType)) agent := by
  simp [edgesFor, eq_comm]

/-- An entity may lead to the derivation of a change, and to an edge to the activity of its
device. -/
theorem mem_edgesFor_entity {entityType : String} {operation : Operation} {payload : Payload} :
    edge ∈ session.edgesFor (.entity header entityType operation payload) ↔
      (∃ change, session.changeFor? (.entity header entityType operation payload) = some change ∧
        edge = derivationEdge (session.numbering.edges + 1) operation change) ∨
      ∃ activity, causeFor? session.registry header.agentId = some activity ∧
        edge = causalEdge
          (session.numbering.edges + 1 +
            (session.changeFor? (.entity header entityType operation payload)).toList.length)
          operation (session.nodeFor (.entity header entityType operation payload)) activity := by
  simp [edgesFor, eq_comm]

/-- Agents and activities lead to associations, and entities to none. -/
theorem relation_edgesFor {message : Message} (hedge : edge ∈ session.edgesFor message) :
    edge.relation = .wasAssociatedWith ↔ message.event ≠ .entity := by
  cases message with
  | agent header agentType =>
    obtain ⟨activity, -, rfl⟩ := mem_edgesFor_agent.1 hedge
    simp [Message.event]
  | activity header activityType =>
    obtain ⟨agent, -, rfl⟩ := mem_edgesFor_activity.1 hedge
    simp [Message.event]
  | entity header entityType operation payload =>
    rcases mem_edgesFor_entity.1 hedge with ⟨change, -, rfl⟩ | ⟨activity, -, rfl⟩
    · simp [Message.event]
    · cases operation <;> simp [Message.event, Operation.relation]

end Edges

/-! ### The handlers -/

section Handlers

variable (agentId : String) (node : Node) (step : Step)

/-- An agent adds the association with the activity that was waiting for it, if there is one. -/
theorem extends_onAgent :
    step.Extends
      ((awaitingAgent? step.session.registry agentId node).toList.map fun activity =>
        associationEdge (step.session.numbering.edges + 1) activity node)
      (onAgent agentId node step) := by
  unfold onAgent
  cases awaitingAgent? step.session.registry agentId node with
  | none => exact step.extends_mapRegistry _
  | some activity =>
    -- Filing and marking add no edges; the association is the only one.
    have hknown := (step.extends_mapRegistry (·.registerAgent agentId node)).trans
      (Step.extends_mapRegistry _ (·.markAssociated activity.id))
    exact hknown.trans (Step.extends_addEdge _ fun index => associationEdge index activity node)

/-- An activity adds the association with its agent, if there is one. -/
theorem extends_onActivity :
    step.Extends
      ((agentFor? step.session.registry agentId node).toList.map fun agent =>
        associationEdge (step.session.numbering.edges + 1) node agent)
      (onActivity agentId node step) := by
  unfold onActivity
  cases agentFor? step.session.registry agentId node with
  | none => exact step.extends_mapRegistry _
  | some agent =>
    -- As with an agent, only the association is an edge.
    have hknown := (step.extends_mapRegistry (·.registerActivity agentId node)).trans
      (Step.extends_mapRegistry _ (·.markAssociated node.id))
    exact hknown.trans (Step.extends_addEdge _ fun index => associationEdge index node agent)

/-- Going on with an entity is showing it to the table and then tying it to its activity. -/
theorem onEntity_eq (entityType : String) (operation : Operation) :
    onEntity agentId entityType operation node step =
      match causeFor? step.session.registry agentId with
      | some activity =>
        (step.see entityType operation node).addEdge fun index =>
          causalEdge index operation node activity
      | none => (step.see entityType operation node).flagMissing agentId := by
  -- The table does not touch the registry, so the activity may be looked up before.
  rw [← step.see_registry entityType operation node]
  rfl

/-- The edge to the activity of an entity is numbered after what the table makes of the entity. -/
theorem extends_onEntity (entityType : String) (operation : Operation) {derivations : List Edge}
    (hsee : step.Extends derivations (step.see entityType operation node)) :
    step.Extends
      (derivations ++ (causeFor? step.session.registry agentId).toList.map
        (causalEdge (step.session.numbering.edges + 1 + derivations.length) operation node))
      (onEntity agentId entityType operation node step) := by
  rw [onEntity_eq]
  -- What the table makes of the entity comes first, and takes its number before the edge to the
  -- activity does.
  refine hsee.trans ?_
  cases causeFor? step.session.registry agentId with
  | none => exact Step.extends_flagMissing _ agentId
  | some activity =>
    have hadd := (step.see entityType operation node).extends_addEdge fun index =>
      causalEdge index operation node activity
    rw [hsee.edges, Nat.add_right_comm] at hadd
    exact hadd

/-- An agent marks the activity that was waiting for it. -/
theorem isAssociated_onAgent (id : String) :
    (onAgent agentId node step).session.registry.isAssociated id = true ↔
      step.session.registry.isAssociated id = true ∨
        ∃ activity, awaitingAgent? step.session.registry agentId node = some activity ∧
          activity.id = id := by
  unfold onAgent
  cases awaitingAgent? step.session.registry agentId node with
  -- Filing an agent marks nothing.
  | none => simp
  | some activity =>
    simp only [Step.addEdge_registry, Step.mapRegistry_registry,
      Registry.isAssociated_markAssociated, Registry.isAssociated_registerAgent, Option.some.injEq,
      exists_eq_left', eq_comm (a := id)]
    exact or_comm

/-- An activity is marked if there is an agent for it. -/
theorem isAssociated_onActivity (id : String) :
    (onActivity agentId node step).session.registry.isAssociated id = true ↔
      step.session.registry.isAssociated id = true ∨
        ∃ agent, agentFor? step.session.registry agentId node = some agent ∧ node.id = id := by
  unfold onActivity
  cases agentFor? step.session.registry agentId node with
  | none => simp
  | some agent =>
    simp only [Step.addEdge_registry, Step.mapRegistry_registry,
      Registry.isAssociated_markAssociated, Registry.isAssociated_registerActivity,
      Option.some.injEq, exists_eq_left', eq_comm (a := id)]
    exact or_comm

/-- An entity is filed nowhere. -/
theorem registry_onEntity (entityType : String) (operation : Operation) :
    (onEntity agentId entityType operation node step).session.registry = step.session.registry := by
  rw [onEntity_eq]
  split <;> simp

/-- It goes to the table of cells if it has a state. -/
theorem cells_onEntity (entityType : String) (operation : Operation) :
    (onEntity agentId entityType operation node step).session.cells =
      if (EntityKind.ofTag entityType).isStateful then (step.session.cells.observe operation node).1
      else step.session.cells := by
  rw [onEntity_eq, ← step.see_cells]
  split <;> simp

/-- And it is flagged just if no activity is there for it. -/
theorem missingCorrelation_onEntity (entityType : String) (operation : Operation)
    (hstep : step.outcome.missingCorrelation = false) :
    (onEntity agentId entityType operation node step).outcome.missingCorrelation =
      (causeFor? step.session.registry agentId).isNone := by
  rw [onEntity_eq]
  cases causeFor? step.session.registry agentId with
  -- `flagMissing` sets the flag.
  | none => rfl
  | some activity =>
    rw [Step.addEdge_missingCorrelation, Step.see_missingCorrelation, hstep, Option.isNone_some]

end Handlers

/-! ### The whole step -/

section Receive

variable (session : Session) (message : Message)

/-- A message leads to the edges `edgesFor`, after its vertex. -/
theorem extends_continueWith :
    (session.addVertex message).2.Extends (session.edgesFor message)
      (continueWith message (session.nodeFor message) (session.addVertex message).2) := by
  cases message with
  | agent header agentType => exact extends_onAgent header.agentId _ _
  | activity header activityType => exact extends_onActivity header.agentId _ _
  -- The number of the second edge depends on the first, which `extends_see` tells.
  | entity header entityType operation payload =>
    exact extends_onEntity header.agentId _ _ entityType operation (Step.extends_see _ _ _ _)

/-- Taking in a message extends the step that adds its vertex by the edges `edgesFor`. -/
theorem extends_apply :
    (session.addVertex message).2.Extends (session.edgesFor message) (session.apply message) := by
  -- The last thing that a step does is to tell of the message, and that adds nothing.
  have h := (extends_continueWith session message).trans (Step.extends_tell _ (.messageDispatched
    (continueWith message (session.nodeFor message) (session.addVertex message).2).outcome.vertex
    (continueWith message (session.nodeFor message)
      (session.addVertex message).2).outcome.edges.length))
  rw [List.append_nil] at h
  exact h

/-- A message takes one number for its vertex and one for each of its edges. -/
theorem numbering_receive : (session.receive (.ok message)).session.numbering =
    ⟨session.numbering.vertices + 1,
      session.numbering.edges + (session.edgesFor message).length⟩ := by
  -- The message counts before it is taken in; nothing but the counters looks at that.
  have h := extends_apply { session with stats := session.stats.countMessage } message
  calc (session.receive (.ok message)).session.numbering
      = ⟨(session.receive (.ok message)).session.numbering.vertices,
          (session.receive (.ok message)).session.numbering.edges⟩ := rfl
    _ = ⟨session.numbering.vertices + 1,
          session.numbering.edges + (session.edgesFor message).length⟩ := by
      rw [show (session.receive (.ok message)).session.numbering.vertices = _ from h.vertices,
        show (session.receive (.ok message)).session.numbering.edges = _ from h.edges]
      rfl

/-- A message submits its vertex and then its edges. -/
theorem submissions_receive : (session.receive (.ok message)).submissions =
    .vertex (session.vertexFor message) :: (session.edgesFor message).map .edge :=
  (extends_apply { session with stats := session.stats.countMessage } message).submitted

/-- Of the submissions the vertex of the message is the only one. -/
theorem vertices_receive :
    (session.receive (.ok message)).vertices = [session.vertexFor message] := by
  -- Behind the vertex there are edges only.
  have hnone : ((session.edgesFor message).map Element.edge).filterMap Element.vertex? = [] := by
    rw [List.filterMap_map, List.filterMap_eq_nil_iff]
    exact fun edge _ => rfl
  rw [Reception.vertices, submissions_receive, List.filterMap_cons]
  simp only [Element.vertex?, hnone]

/-- And the edges are those that the message leads to. -/
theorem edges_receive : (session.receive (.ok message)).edges = session.edgesFor message := by
  rw [Reception.edges, submissions_receive, List.filterMap_cons, List.filterMap_map]
  exact List.filterMap_some

/-- A message is flagged if it is an entity without an activity. -/
theorem missingCorrelation_continueWith :
    (continueWith message (session.nodeFor message)
        (session.addVertex message).2).outcome.missingCorrelation =
      session.isUncaused message := by
  cases message with
  | agent header agentType =>
    simp only [continueWith, onAgent, isUncaused]
    split <;> rfl
  | activity header activityType =>
    simp only [continueWith, onActivity, isUncaused]
    split <;> rfl
  | entity header entityType operation payload =>
    exact missingCorrelation_onEntity _ _ _ entityType operation rfl

/-- A message is reported with the ids of its vertex and of its edges. -/
theorem result_receive :
    (session.receive (.ok message)).result = .ok ⟨message.event, (session.nodeFor message).id,
      (session.edgesFor message).map Edge.id, session.isUncaused message⟩ := by
  have h := extends_apply { session with stats := session.stats.countMessage } message
  have hmissing :=
    missingCorrelation_continueWith { session with stats := session.stats.countMessage } message
  -- The outcome is built up along the way; only its last part is not in what was reported.
  calc (session.receive (.ok message)).result
      = .ok ({ session with stats := session.stats.countMessage }.apply message).outcome := rfl
    _ = .ok ⟨({ session with stats := session.stats.countMessage }.apply message).outcome.event,
          ({ session with stats := session.stats.countMessage }.apply message).outcome.vertex,
          ({ session with stats := session.stats.countMessage }.apply message).outcome.edges,
          session.isUncaused message⟩ :=
          congrArg (fun missing => Except.ok (Outcome.mk _ _ _ missing)) hmissing
    _ = .ok ⟨message.event, (session.nodeFor message).id, (session.edgesFor message).map Edge.id,
          session.isUncaused message⟩ := by
      rw [h.event, h.vertex, h.reported]
      rfl

/-! ### The registry and the cells after a message -/

/-- A message is filed as the latest agent of its device, if it announces one. -/
theorem agentOf?_receive (agentId : String) :
    (session.receive (.ok message)).session.registry.agentOf? agentId =
      if message.isAgentOf agentId then some (session.nodeFor message)
      else session.registry.agentOf? agentId := by
  cases message with
  | agent header agentType =>
    -- Whether or not an activity was waiting for it, the agent is filed.
    simp only [receive, apply, continueWith, onAgent, Message.isAgentOf, decide_eq_true_eq,
      eq_comm (b := agentId)]
    split <;> exact Registry.agentOf?_registerAgent _ _ _ _
  | activity header activityType =>
    simp only [receive, apply, continueWith, onActivity, Message.isAgentOf]
    split <;> rfl
  | entity header entityType operation payload =>
    exact congrArg (Registry.agentOf? · agentId) (registry_onEntity _ _ _ _ _)

/-- A message is filed as the latest activity of its device, if it announces one. -/
theorem activityOf?_receive (agentId : String) :
    (session.receive (.ok message)).session.registry.activityOf? agentId =
      if message.isActivityOf agentId then some (session.nodeFor message)
      else session.registry.activityOf? agentId := by
  cases message with
  | agent header agentType =>
    simp only [receive, apply, continueWith, onAgent, Message.isActivityOf]
    split <;> rfl
  | activity header activityType =>
    simp only [receive, apply, continueWith, onActivity, Message.isActivityOf, decide_eq_true_eq,
      eq_comm (b := agentId)]
    split <;> exact Registry.activityOf?_registerActivity _ _ _ _
  | entity header entityType operation payload =>
    exact congrArg (Registry.activityOf? · agentId) (registry_onEntity _ _ _ _ _)

/-- A message marks just the activities that its association edges start from. -/
theorem isAssociated_receive (id : String) :
    (session.receive (.ok message)).session.registry.isAssociated id = true ↔
      session.registry.isAssociated id = true ∨
        ∃ edge ∈ session.edgesFor message, edge.relation = .wasAssociatedWith ∧
          edge.source = id := by
  cases message with
  | agent header agentType =>
    refine (isAssociated_onAgent header.agentId _ _ id).trans (or_congr_right ?_)
    simp only [mem_edgesFor_agent]
    constructor
    · rintro ⟨activity, hawaiting, rfl⟩
      exact ⟨_, ⟨activity, hawaiting, rfl⟩, rfl, rfl⟩
    · rintro ⟨edge, ⟨activity, hawaiting, rfl⟩, -, rfl⟩
      exact ⟨activity, hawaiting, rfl⟩
  | activity header activityType =>
    refine (isAssociated_onActivity header.agentId _ _ id).trans (or_congr_right ?_)
    simp only [mem_edgesFor_activity]
    constructor
    · rintro ⟨agent, hagent, rfl⟩
      exact ⟨_, ⟨agent, hagent, rfl⟩, rfl, rfl⟩
    · rintro ⟨edge, ⟨agent, hagent, rfl⟩, -, rfl⟩
      exact ⟨agent, hagent, rfl⟩
  | entity header entityType operation payload =>
    -- An entity marks nothing, and none of its edges is an association.
    have hedges : ¬ ∃ edge ∈ session.edgesFor (.entity header entityType operation payload),
        edge.relation = .wasAssociatedWith ∧ edge.source = id := by
      rintro ⟨edge, hedge, hrelation, -⟩
      exact (relation_edgesFor hedge).1 hrelation rfl
    rw [or_iff_left hedges]
    exact iff_of_eq (congrArg (Registry.isAssociated · id = true) (registry_onEntity _ _ _ _ _))

/-- A message is shown to the table of cells if it is about a state. -/
theorem cells_receive :
    (session.receive (.ok message)).session.cells = session.cellsAfter message := by
  cases message with
  | agent header agentType =>
    simp only [receive, apply, continueWith, onAgent]
    split <;> rfl
  | activity header activityType =>
    simp only [receive, apply, continueWith, onActivity]
    split <;> rfl
  | entity header entityType operation payload =>
    refine (cells_onEntity _ _ _ entityType operation).trans ?_
    -- An entity without a state is not shown.
    by_cases hstate : (EntityKind.ofTag entityType).isStateful = true
    · simp [cellsAfter, Message.observation?, hstate]
    · simp [cellsAfter, Message.observation?, hstate]

end Receive

end Session

end Lineage
