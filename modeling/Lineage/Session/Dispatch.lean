import Lineage.Journal
import Lineage.Session.Registry
import Lineage.Session.Stats

/-!
# Sessions

A session takes in messages one after the other and says, for each, what is added to the graph. It
is a state machine on its own: what becomes of the elements that it hands out does not come back to
it. So a session is the same whatever sink is behind it, and a message that is refused leaves
nothing behind but its counters.

* `Session.apply` takes in a message. Its answer is a `Step`: the next session, the outcome, and the
  effects, which are elements to submit and events to tell, in their order.
* `Session.receive` takes in what was read as a message or refused as one.

Every message adds a vertex. After that

* an agent is associated with the activity that its device announced last, if that is one of its own
  and has not been associated before;
* an activity is associated with the agent that its device announced last, if it is one of its own;
* a register cell with a new value is derived from its state before, and any entity is tied to the
  activity that its device announced last.
-/

namespace Lineage

open Lineage.Graph Session Telemetry

/-- What a message led to. -/
structure Outcome where
  event : EventKind
  vertex : String
  /-- The ids of its edges, in their order. -/
  edges : List String
  /-- Whether it is an entity for which no activity is known. -/
  missingCorrelation : Bool
deriving DecidableEq, Repr

/-- What a session asks to be done. -/
inductive Effect
  | submit (element : Element)
  | tell (event : Event)
deriving DecidableEq

/-- The element that is to be submitted. -/
def Effect.element? : Effect → Option Element
  | submit element => some element
  | tell _ => none

/-- What a session remembers. -/
structure Session where
  numbering : Numbering
  registry : Registry
  cells : CellTable
  stats : Stats

/-- A session that has taken in a message, or is about to. -/
structure Step where
  session : Session
  outcome : Outcome
  /-- What is to be done, in order. -/
  effects : List Effect

namespace Step

def tell (step : Step) (event : Event) : Step :=
  { step with effects := step.effects ++ [.tell event] }

def addEdge (step : Step) (edge : Nat → Edge) : Step :=
  -- An edge is numbered, counted, told in the outcome and submitted at once.
  let (edge, numbering) := step.session.numbering.addEdge edge
  { session :=
      { step.session with numbering, stats := step.session.stats.countEdge edge.relation.label }
    outcome := { step.outcome with edges := step.outcome.edges ++ [edge.id] }
    effects := step.effects ++ [.submit (.edge edge)] }

/-- Changes what is known about devices. -/
def mapRegistry (step : Step) (f : Registry → Registry) : Step :=
  { step with session := { step.session with registry := f step.session.registry } }

/-- Notes that no activity is known for an entity of a device. -/
def flagMissing (step : Step) (agentId : String) : Step :=
  { session := { step.session with stats := step.session.stats.countMissing }
    outcome := { step.outcome with missingCorrelation := true }
    effects := step.effects ++ [.tell (.noCausalActivity agentId step.outcome.vertex)] }

/-- Observes the cell that an entity is about, and derives a new state from the one before. -/
def observe (step : Step) (operation : Operation) (entity : Node) : Step :=
  let (cells, observation) := step.session.cells.observe operation entity
  -- What the table tells comes before the edge that its change leads to.
  let step :=
    { step with
      session := { step.session with cells }
      effects := step.effects ++ (observation.event? entity).toList.map .tell }
  match observation.change? with
  | some change => step.addEdge fun index => derivationEdge index operation change
  | none => step

end Step

namespace Session

def start (retention : Retention) : Session :=
  ⟨.start, .empty, .empty retention, .start⟩

instance : Inhabited Session := ⟨start default⟩

/-! ### Taking in a message -/

/-- Adds the vertex of a message. -/
def addVertex (session : Session) (message : Message) : Node × Step :=
  -- So is a vertex.
  let (node, numbering) := session.numbering.addVertex message
  let kind := message.event.vertexKind
  (node,
    { session := { session with numbering, stats := session.stats.countVertex kind.label }
      outcome := ⟨message.event, node.id, [], false⟩
      effects := [.submit (.vertex (node.toVertex kind))] })

/-- The activity that a new agent is to be associated with. -/
def awaitingAgent? (registry : Registry) (agentId : String) (agent : Node) : Option Node :=
  (registry.activityOf? agentId).filter fun activity =>
    !registry.isAssociated activity.id && belongsTo activity agent

/-- The agent that a new activity is to be associated with. -/
def agentFor? (registry : Registry) (agentId : String) (activity : Node) : Option Node :=
  (registry.agentOf? agentId).filter fun agent => belongsTo activity agent

/-- The activity that an entity of a device is tied to. -/
def causeFor? (registry : Registry) (agentId : String) : Option Node :=
  (registry.activityOf? agentId).filter fun activity => activity.get? Key.agentId = some agentId

/-- Goes on with the vertex of an agent. -/
def onAgent (agentId : String) (agent : Node) (step : Step) : Step :=
  let known := step.mapRegistry (·.registerAgent agentId agent)
  -- Filing the agent changed no activity, so the registry before it answers as well.
  match awaitingAgent? step.session.registry agentId agent with
  | some activity =>
    (known.mapRegistry (·.markAssociated activity.id)).addEdge fun index =>
      associationEdge index activity agent
  | none => known

/-- Goes on with the vertex of an activity. -/
def onActivity (agentId : String) (activity : Node) (step : Step) : Step :=
  let known := step.mapRegistry (·.registerActivity agentId activity)
  -- The activity is new, so it need not be asked whether it has been associated.
  match agentFor? step.session.registry agentId activity with
  | some agent =>
    (known.mapRegistry (·.markAssociated activity.id)).addEdge fun index =>
      associationEdge index activity agent
  | none => known

/-- Goes on with the vertex of an entity. -/
def onEntity (agentId entityType : String) (operation : Operation) (entity : Node) (step : Step) :
    Step :=
  -- The derivation takes its number before the edge to the activity does.
  let step :=
    if (EntityKind.ofTag entityType).isStateful then step.observe operation entity else step
  match causeFor? step.session.registry agentId with
  | some activity => step.addEdge fun index => causalEdge index operation entity activity
  | none => step.flagMissing agentId

/-- Goes on with the vertex of a message. -/
def continueWith (message : Message) (node : Node) (step : Step) : Step :=
  match message with
  | .agent header _ => onAgent header.agentId node step
  | .activity header _ => onActivity header.agentId node step
  | .entity header entityType operation _ => onEntity header.agentId entityType operation node step

def apply (session : Session) (message : Message) : Step :=
  let (node, step) := session.addVertex message
  let step := continueWith message node step
  step.tell (.messageDispatched step.outcome.vertex step.outcome.edges.length)

/-! ### Taking in what should be a message -/

/-- What becomes of something that should be a message. -/
structure Reception where
  session : Session
  /-- The outcome, or why there is no message. -/
  result : Except MessageError Outcome
  /-- What is to be done, in order. -/
  effects : List Effect
  /-- What is announced and by which device. -/
  identity : Option (EventKind × String)

/-- Counts a message that is refused. -/
def drop (session : Session) (error : MessageError) : Session :=
  { session with stats := (session.stats.countMessage).countDrop error.kind }

/-- Takes in what was read as a message or refused as one. -/
def receive (session : Session) (decoded : Except MessageError Message) : Reception :=
  match decoded with
  | .error error => ⟨session.drop error, .error error, [], none⟩
  | .ok message =>
    -- The message counts before it is taken in, as a refused one does.
    let step := { session with stats := session.stats.countMessage }.apply message
    ⟨step.session, .ok step.outcome, step.effects, some (message.event, message.header.agentId)⟩

def Reception.submissions (reception : Reception) : List Element :=
  reception.effects.filterMap Effect.element?

end Session

end Lineage
