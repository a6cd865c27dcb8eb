import Lineage.Feed.Arrival
import Lineage.Graph.Sink
import Lineage.Session.CellTable
import Lineage.Text.Quoted

/-!
# The journal

What is worth telling while messages are taken in. An `Event` is what happened; its level, its text
and its named details follow from it. An event happens inside some spans, which say what was going
on: a feed being consumed, and a message being dispatched. An `Entry` is an event with its spans,
the outermost first.
-/

namespace Lineage

open Lineage.Graph Session Telemetry

/-- How much an event matters. -/
inductive Level
  | error
  /-- Something is not as it should be. -/
  | warn
  | info
  | debug
deriving DecidableEq, Repr

def Level.label : Level → String
  | error => "ERROR"
  | warn => "WARN"
  | info => "INFO"
  | debug => "DEBUG"

/-- What can happen. -/
inductive Event
  | messageDropped (error : MessageError)
  /-- A message was taken in; it added a vertex and so many edges. -/
  | messageDispatched (vertexId : String) (edges : Nat)
  /-- No activity was known for an entity of a device. -/
  | noCausalActivity (agentId entityId : String)
  /-- An entity that should have been about a cell was not. -/
  | noCell (entityId : String)
  | cellChanged (cell : Cell) (change : Change)
  | submissionFailed (element : Element) (error : SinkError)
  /-- A sink could not make durable what it had taken in. -/
  | flushFailed (error : SinkError)
  | fileOpened (path : String)
  | feedConnected (address queue : String)
  | intakeStarted
  | feedFailed (reason : String)
  | intakeStopped (received vertices edges dropped : Nat) (stop : Feed.StopReason)
deriving DecidableEq

/-- How a reason to stop is told in an event. -/
def Feed.StopReason.note : Feed.StopReason → String
  | endOfInput => "EndOfInput"
  | shutdown => "Shutdown"
  | failure reason => s!"SourceError({Text.quoted reason})"

namespace Event

def level : Event → Level
  -- What is lost or not as announced is warned of; what the sink or the feed failed to do is an
  -- error.
  | messageDropped _ | noCausalActivity _ _ => .warn
  | messageDispatched _ _ | noCell _ | cellChanged _ _ => .debug
  | submissionFailed _ _ | flushFailed _ | feedFailed _ => .error
  | fileOpened _ | feedConnected _ _ | intakeStarted | intakeStopped _ _ _ _ _ => .info

def text : Event → String
  | messageDropped _ => "Dropping telemetry message"
  | messageDispatched _ _ => "Message dispatched"
  | noCausalActivity _ _ => "Entity has no causal activity"
  | noCell _ => "Entity has no state key, skipping change detection"
  | cellChanged _ _ => "State transition detected"
  | submissionFailed (.vertex _) _ => "Failed to submit provenance vertex"
  | submissionFailed (.edge _) _ => "Failed to submit provenance edge"
  | flushFailed _ => "Failed to flush provenance sink"
  | fileOpened _ => "Opened JSON-lines provenance sink"
  | feedConnected _ _ => "Connected to telemetry feed"
  | intakeStarted => "Consumer started"
  | feedFailed _ => "Message source failed"
  | intakeStopped _ _ _ _ _ => "Consumer stopped"

/-- The details of an event, by name. -/
def details : Event → List (String × String)
  | messageDropped error => [("error", error.message), ("error_kind", error.kind)]
  | messageDispatched vertexId edges => [("vertex", vertexId), ("edges", toString edges)]
  | noCausalActivity agentId entityId =>
    [("error", (MessageError.missingCorrelation agentId).message), ("entity_id", entityId)]
  | noCell entityId => [("entity_id", entityId)]
  | cellChanged cell change =>
    [("name", cell.name), ("agent_id", cell.agentId), ("index", cell.index),
      ("previous", change.previous.id), ("current", change.current.id)]
  | submissionFailed (.vertex v) error =>
    [("error", error.message), ("kind", v.kind.label), ("vertex_id", v.id)]
  | submissionFailed (.edge e) error =>
    [("error", error.message), ("kind", e.relation.label), ("edge_id", e.id)]
  | flushFailed error => [("error", error.message)]
  | fileOpened path => [("path", path)]
  | feedConnected address queue => [("address", address), ("queue", queue)]
  | intakeStarted => []
  | feedFailed reason => [("error", reason)]
  | intakeStopped received vertices edges dropped stop =>
    [("received", toString received), ("vertices", toString vertices), ("edges", toString edges),
      ("dropped", toString dropped), ("stop", stop.note)]

end Event

/-- What an observation is worth telling. -/
def Session.Observation.event? (entity : Node) : Session.Observation → Option Event
  | noCell => some (.noCell entity.id)
  | changed cell change => some (.cellChanged cell change)
  | _ => none

/-- What goes on while events happen. -/
inductive Span
  | consume (source : String)
  /-- The message with this number is dispatched; once it is decoded, its event and its
  device are known. -/
  | dispatch (sequence : Nat) (identity : Option (EventKind × String))
deriving DecidableEq

namespace Span

def name : Span → String
  | consume _ => "consume"
  | dispatch _ _ => "dispatch_message"

/-- The details of a span, by name. -/
def details : Span → List (String × String)
  | consume source => [("source", source)]
  | dispatch sequence none => [("sequence", toString sequence)]
  | dispatch sequence (some (event, agentId)) =>
    [("sequence", toString sequence), ("event", event.tag), ("agent_id", agentId)]

end Span

/-- An event with the spans that it happened in, the outermost first. -/
structure Entry where
  event : Event
  spans : List Span
deriving DecidableEq

end Lineage
