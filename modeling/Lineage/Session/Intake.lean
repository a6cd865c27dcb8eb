import Lineage.Session.Recorder

/-!
# Consuming a feed

A recorder consumes a feed by processing the messages that it fetches, one after the other,
until the feed ends or fails or a stop is requested. Before each fetch it is looked whether a
stop was requested. A message that is fetched is processed, even if the request came during its
fetch. At the end the sink is flushed, and a summary tells how it went; the counters in it are
those of the whole session.
-/

namespace Lineage

open Lineage.Graph Session Telemetry Lineage.Json

/-- How the consumption of a feed went. -/
structure Summary where
  source : String
  /-- The number of messages that were fetched. -/
  received : Nat
  stop : Feed.StopReason
  stats : Stats
deriving DecidableEq

/-- The written form of a reason to stop. -/
def Feed.StopReason.toJson (reason : Feed.StopReason) : Value :=
  match reason with
  | failure detail => .object [("reason", .text reason.label), ("detail", .text detail)]
  | _ => .object [("reason", .text reason.label)]

/-- The written form of a summary. -/
def Summary.toJson (summary : Summary) : Value :=
  .object [("source", .text summary.source), ("received", .ofNat summary.received),
    ("stop", summary.stop.toJson), ("stats", summary.stats.toJson)]

/-- What consuming a feed leaves. -/
structure Intake (σ : Type) where
  recorder : Recorder σ
  /-- The number of messages that were fetched. -/
  received : Nat
  stop : Feed.StopReason
  stopRequested : Bool
  rest : List Feed.Arrival
  journal : List Entry

namespace Recorder

variable {σ : Type} [Sink σ]

/-- Fetches and processes messages until there is a reason to stop. -/
def drain (spans : List Span) (recorder : Recorder σ) (stopRequested : Bool)
    (arrivals : List Feed.Arrival) : Intake σ :=
  if stopRequested then ⟨recorder, 0, .shutdown, true, arrivals, []⟩
  else
    let fetched := Feed.fetch arrivals
    match _h : fetched.result with
    | .message raw =>
      -- The message is processed even if a stop was requested while it was fetched.
      let delivery := recorder.processIn spans (Message.decodeBytes raw)
      let intake := drain spans delivery.recorder fetched.stopRequested fetched.rest
      { intake with received := intake.received + 1, journal := delivery.journal ++ intake.journal }
    | .failed reason =>
      ⟨recorder, 0, .failure reason, fetched.stopRequested, fetched.rest,
        [⟨.feedFailed reason, spans⟩]⟩
    | .ended => ⟨recorder, 0, .endOfInput, fetched.stopRequested, fetched.rest, []⟩
    -- Behind a silence only a request to stop ends the wait.
    | .silent => ⟨recorder, 0, .shutdown, fetched.stopRequested, fetched.rest, []⟩
termination_by arrivals.length
decreasing_by exact Feed.length_fetch_rest _h

def flushEvents (error : Option SinkError) : List Event :=
  error.toList.map .flushFailed

def consume (recorder : Recorder σ) (stopRequested : Bool) (feed : Feed) : Summary × Intake σ :=
  let spans := [Span.consume feed.label]
  let intake := recorder.drain spans stopRequested feed.arrivals
  -- Whatever the reason to stop was, the sink is flushed.
  let (recorder, error) := intake.recorder.flush
  let stats := recorder.session.stats
  let stopped :=
    Event.intakeStopped intake.received stats.vertexTotal stats.edgeTotal
      stats.droppedTotal intake.stop
  let ending := (flushEvents error ++ [stopped]).map fun event => (⟨event, spans⟩ : Entry)
  (⟨feed.label, intake.received, intake.stop, stats⟩,
    { intake with recorder, journal := ⟨.intakeStarted, spans⟩ :: (intake.journal ++ ending) })

end Recorder

end Lineage
