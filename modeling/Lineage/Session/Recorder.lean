import Lineage.Session.Dispatch

/-!
# Recorders

A recorder is a session with the sink that its elements go to. It carries out the effects of each
message in their order; a sink that refuses an element is told of in the journal, and nothing
else comes of it.

A message may be dispatched, with the error as the answer if it is refused (`Recorder.dispatch`), or
processed, where a refusal is told of in the journal (`Recorder.process`). A message that is
processed has a span of its own.
-/

namespace Lineage

open Lineage.Graph Session Telemetry

/-- Carries out effects; the events are those told and those of refused elements. -/
def Effect.performAll {σ : Type} [Sink σ] (sink : σ) : List Effect → σ × List Event
  | [] => (sink, [])
  | .tell event :: effects =>
    let (sink, events) := performAll sink effects
    (sink, event :: events)
  | .submit element :: effects =>
    -- The answer of the sink goes to the journal and nowhere else.
    let (sink, error) := Sink.submit sink element
    let (sink, events) := performAll sink effects
    (sink, (error.map (Event.submissionFailed element)).toList ++ events)

/-- A session and the sink that its elements go to. -/
structure Recorder (σ : Type) where
  session : Session
  sink : σ

/-- What a recorder answers. -/
structure Delivery (σ α : Type) where
  recorder : Recorder σ
  result : α
  journal : List Entry

namespace Recorder

variable {σ : Type} [Sink σ]

def start (retention : Retention) (sink : σ) : Recorder σ :=
  ⟨.start retention, sink⟩

/-- Takes in what was read as a message or refused as one, inside some spans. -/
def dispatchIn (spans : List Span) (recorder : Recorder σ) (decoded : Except MessageError Message) :
    Delivery σ (Except MessageError Outcome) :=
  let reception := recorder.session.receive decoded
  let (sink, events) := Effect.performAll recorder.sink reception.effects
  ⟨⟨reception.session, sink⟩, reception.result, events.map fun event => ⟨event, spans⟩⟩

/-- The span in which the next message is processed. -/
def spanFor (recorder : Recorder σ) (decoded : Except MessageError Message) : Span :=
  -- Messages are numbered from one, those that are refused included.
  .dispatch (recorder.session.stats.messages + 1)
    (decoded.toOption.map fun message => (message.event, message.header.agentId))

/-- Processes what was read as a message or refused as one, inside some spans and one of its own. -/
def processIn (spans : List Span) (recorder : Recorder σ) (decoded : Except MessageError Message) :
    Delivery σ (Option Outcome) :=
  let spans := spans ++ [recorder.spanFor decoded]
  let delivery := recorder.dispatchIn spans decoded
  match delivery.result with
  | .ok outcome => ⟨delivery.recorder, some outcome, delivery.journal⟩
  | .error error => ⟨delivery.recorder, none, delivery.journal ++ [⟨.messageDropped error, spans⟩]⟩

def dispatch (recorder : Recorder σ) (line : String) : Delivery σ (Except MessageError Outcome) :=
  recorder.dispatchIn [] (Message.decode line)

def process (recorder : Recorder σ) (line : String) : Delivery σ (Option Outcome) :=
  recorder.processIn [] (Message.decode line)

/-- Processes the bytes of a line. -/
def processBytes (recorder : Recorder σ) (raw : List UInt8) : Delivery σ (Option Outcome) :=
  recorder.processIn [] (Message.decodeBytes raw)

/-- Makes durable what the sink has taken in. -/
def flush (recorder : Recorder σ) : Recorder σ × Option SinkError :=
  let (sink, error) := Sink.flush recorder.sink
  (⟨recorder.session, sink⟩, error)

end Recorder

end Lineage
