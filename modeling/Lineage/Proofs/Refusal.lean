import Lineage.Proofs.Counters
import Lineage.Proofs.Ends
import Lineage.Proofs.Utf8

/-!
# Refused messages leave only their counters

Whether a message is refused is decided by what it is read as, before the session is looked at: a
line is refused if it does not decode, and with the same error; bytes are refused if they are not
UTF-8, or if the text that they encode does not decode. A refused message raises two counters and
changes nothing else.

Nothing in a session depends on those counters. What a session does next follows from its numbering,
its registry and its cells, so two sessions that differ in their counters only do the same
(`Session.receive_withStats`). Therefore a run from which the refused messages are left out cannot
be told from the whole run, except by the number of messages and of refusals
(`Recorder.refusal_run`).
-/

namespace Lineage

open Lineage.Graph Session Telemetry

/-! ### Other counters -/

/-- The same session with other counters. -/
def Session.withStats (session : Session) (stats : Stats) : Session :=
  { session with stats }

/-- The same step with other counters. -/
def Step.withStats (step : Step) (stats : Stats) : Step :=
  { step with session := step.session.withStats stats }

namespace Step

variable (step : Step) (stats : Stats)

/-! An operation on steps reads no counters, so only its own counting shows which ones were
there. -/

/-- What the table makes of an entity is the same. -/
theorem observe_withStats (operation : Operation) (entity : Node) :
    (step.withStats stats).observe operation entity =
      (step.observe operation entity).withStats
        ((step.withStats stats).observe operation entity).session.stats := by
  have hcells : (step.withStats stats).session.cells = step.session.cells := rfl
  rcases hobserve : step.session.cells.observe operation entity with ⟨cells, observation⟩
  simp only [observe, hcells, hobserve]
  -- An edge is counted on top of whatever counters there are.
  cases observation.change? <;> rfl

/-- And so it is for an entity without a state. -/
theorem see_withStats (entityType : String) (operation : Operation) (entity : Node) :
    (step.withStats stats).see entityType operation entity =
      (step.see entityType operation entity).withStats
        ((step.withStats stats).see entityType operation entity).session.stats := by
  unfold see
  split
  · exact step.observe_withStats stats operation entity
  · rfl

end Step

namespace Session

section Handlers

variable (agentId : String) (node : Node) (step : Step) (stats : Stats)

/-- An agent is taken in the same way, -/
theorem onAgent_withStats :
    onAgent agentId node (step.withStats stats) =
      (onAgent agentId node step).withStats
        (onAgent agentId node (step.withStats stats)).session.stats := by
  have hregistry : (step.withStats stats).session.registry = step.session.registry := rfl
  simp only [onAgent, hregistry]
  cases awaitingAgent? step.session.registry agentId node <;> rfl

/-- an activity is, -/
theorem onActivity_withStats :
    onActivity agentId node (step.withStats stats) =
      (onActivity agentId node step).withStats
        (onActivity agentId node (step.withStats stats)).session.stats := by
  have hregistry : (step.withStats stats).session.registry = step.session.registry := rfl
  simp only [onActivity, hregistry]
  cases agentFor? step.session.registry agentId node <;> rfl

/-- and an entity is. -/
theorem onEntity_withStats (entityType : String) (operation : Operation) :
    onEntity agentId entityType operation node (step.withStats stats) =
      (onEntity agentId entityType operation node step).withStats
        (onEntity agentId entityType operation node (step.withStats stats)).session.stats := by
  have hregistry : (step.withStats stats).session.registry = step.session.registry := rfl
  -- Showing the entity to the table comes first, as `see_withStats` has it.
  rw [onEntity_eq, onEntity_eq, hregistry, step.see_withStats]
  cases causeFor? step.session.registry agentId <;> rfl

/-- So every message is, once its vertex has been added. -/
theorem continueWith_withStats (message : Message) :
    continueWith message node (step.withStats stats) =
      (continueWith message node step).withStats
        (continueWith message node (step.withStats stats)).session.stats := by
  cases message with
  | agent header agentType => exact onAgent_withStats header.agentId node step stats
  | activity header activityType => exact onActivity_withStats header.agentId node step stats
  | entity header entityType operation payload =>
    exact onEntity_withStats header.agentId node step stats entityType operation

end Handlers

/-- And its vertex is numbered alike. -/
theorem apply_withStats (session : Session) (stats : Stats) (message : Message) :
    (session.withStats stats).apply message =
      (session.apply message).withStats
        ((session.withStats stats).apply message).session.stats := by
  have hvertex : (session.withStats stats).addVertex message =
      ((session.addVertex message).1,
        (session.addVertex message).2.withStats
          (stats.countVertex message.event.vertexKind.label)) := rfl
  simp only [apply, hvertex]
  rw [continueWith_withStats]
  rfl

/-- **Counters have no say**: what becomes of an input is the same, but for the counters
afterwards. -/
theorem receive_withStats (session : Session) (stats : Stats)
    (input : Except MessageError Message) :
    (session.withStats stats).receive input =
      { session.receive input with
        session := (session.receive input).session.withStats
          ((session.withStats stats).receive input).session.stats } := by
  cases input with
  | error error => rfl
  | ok message =>
    have happly := apply_withStats { session with stats := session.stats.countMessage }
      stats.countMessage message
    -- The message is counted first, on either side.
    have hcount :
        { session.withStats stats with stats := (session.withStats stats).stats.countMessage } =
          ({ session with stats := session.stats.countMessage } : Session).withStats
            stats.countMessage := rfl
    simp only [receive, hcount]
    rw [happly]
    rfl

/-! ### The same but for messages and refusals -/

/-- Two sessions that differ in the number of messages and of refusals only. -/
structure AgreeButRefusals (whole kept : Session) : Prop where
  numbering : kept.numbering = whole.numbering
  registry : kept.registry = whole.registry
  cells : kept.cells = whole.cells
  vertices : kept.stats.vertices = whole.stats.vertices
  edges : kept.stats.edges = whole.stats.edges
  missingCorrelations : kept.stats.missingCorrelations = whole.stats.missingCorrelations

section Agree

variable {whole kept : Session}

/-- A session agrees with itself. -/
theorem agreeButRefusals_refl (session : Session) : AgreeButRefusals session session :=
  ⟨rfl, rfl, rfl, rfl, rfl, rfl⟩

/-- The one session is the other with counters of its own. -/
theorem AgreeButRefusals.eq_withStats (h : AgreeButRefusals whole kept) :
    kept = whole.withStats kept.stats := by
  obtain ⟨numbering, registry, cells, stats⟩ := kept
  obtain ⟨rfl, rfl, rfl, -⟩ := h
  rfl

/-- A refusal makes no other difference. -/
theorem AgreeButRefusals.drop (h : AgreeButRefusals whole kept) (error : MessageError) :
    AgreeButRefusals (whole.drop error) kept :=
  ⟨h.numbering, h.registry, h.cells, h.vertices, h.edges, h.missingCorrelations⟩

/-- Such sessions do the same with a message. -/
theorem AgreeButRefusals.receive_eq (h : AgreeButRefusals whole kept)
    (input : Except MessageError Message) :
    kept.receive input =
      { whole.receive input with
        session :=
          (whole.receive input).session.withStats (kept.receive input).session.stats } := by
  have hreceive := whole.receive_withStats kept.stats input
  rwa [← h.eq_withStats] at hreceive

/-- And they stay such sessions. -/
theorem AgreeButRefusals.receive (h : AgreeButRefusals whole kept) (message : Message) :
    AgreeButRefusals (whole.receive (.ok message)).session
      (kept.receive (.ok message)).session := by
  have hsession : (kept.receive (.ok message)).session =
      (whole.receive (.ok message)).session.withStats (kept.receive (.ok message)).session.stats :=
    congrArg Reception.session (h.receive_eq (.ok message))
  -- What is counted is read off the same registry and the same cells.
  have hedges : kept.edgesFor message = whole.edgesFor message := by
    rw [h.eq_withStats]
    rfl
  have huncaused : kept.isUncaused message = whole.isUncaused message := by
    rw [h.eq_withStats]
    rfl
  refine ⟨?_, ?_, ?_, ?_, ?_, ?_⟩
  · rw [hsession, withStats]
  · rw [hsession, withStats]
  · rw [hsession, withStats]
  · rw [stats_receive, stats_receive]
    exact congrArg (Catalog.increment · message.event.vertexKind.label) h.vertices
  · rw [stats_receive, stats_receive, hedges]
    exact congrArg (fun counters => (whole.edgesFor message).foldl
      (fun c e => c.increment e.relation.label) counters) h.edges
  · rw [stats_receive, stats_receive, huncaused]
    exact congrArg (· + (whole.isUncaused message).toNat) h.missingCorrelations

end Agree

end Session

/-! ### Runs without the refused messages -/

namespace Recorder

variable {σ : Type} [Sink σ]

/-- Two recorders that differ in the number of messages and of refusals only. -/
structure AgreeButRefusals (whole kept : Recorder σ) : Prop where
  session : Session.AgreeButRefusals whole.session kept.session
  sink : kept.sink = whole.sink

/-- A recorder after it has counted a refused message. -/
def countRefusal (recorder : Recorder σ) (error : MessageError) : Recorder σ :=
  { recorder with
    session := { recorder.session with
      stats := { recorder.session.stats with
        messages := recorder.session.stats.messages + 1
        dropped := recorder.session.stats.dropped.increment error.kind } } }

/-- A refused call leaves its counters only. -/
theorem perform_error (recorder : Recorder σ) {call : Call} {error : MessageError}
    (h : call.input = .error error) :
    (recorder.perform call).recorder = recorder.countRefusal error := by
  have hsession := recorder.session_perform call
  have hsink := recorder.sink_perform call
  rw [h] at hsession hsink
  exact congrArg₂ Recorder.mk hsession hsink

section Agree

variable {whole kept : Recorder σ} {call : Call}

/-- A refused call may be made to one of the two only. -/
theorem AgreeButRefusals.refused (h : AgreeButRefusals whole kept) (hcall : call.isTaken = false) :
    AgreeButRefusals (whole.perform call).recorder kept := by
  obtain ⟨error, hinput⟩ := Call.isTaken_eq_false_iff.1 hcall
  rw [perform_error whole hinput]
  exact ⟨h.session.drop error, h.sink⟩

/-- A call that brings a message keeps them in agreement. -/
theorem AgreeButRefusals.taken (h : AgreeButRefusals whole kept) (hcall : call.isTaken = true) :
    AgreeButRefusals (whole.perform call).recorder (kept.perform call).recorder := by
  obtain ⟨message, hinput⟩ := Call.isTaken_iff.1 hcall
  -- The sinks are equal and are given the same.
  have hsubmissions : (kept.session.receive call.input).submissions =
      (whole.session.receive call.input).submissions := by
    rw [h.session.receive_eq]
    rfl
  refine ⟨?_, ?_⟩
  · rw [session_perform, session_perform, hinput]
    exact h.session.receive message
  · rw [sink_perform, sink_perform, hsubmissions, h.sink]

/-- Both give the same answer to it. -/
theorem AgreeButRefusals.result_perform_eq (h : AgreeButRefusals whole kept) (call : Call) :
    (kept.perform call).result = (whole.perform call).result := by
  have hresult : (kept.session.receive call.input).result =
      (whole.session.receive call.input).result := by
    rw [h.session.receive_eq]
  rw [result_perform, result_perform, hresult]

/-- Recorders that agree still do so after some calls, also if one of them is not given the refused
ones; and the answers to the calls that are left are the same. -/
theorem AgreeButRefusals.run (h : AgreeButRefusals whole kept) (calls : List Call) :
    AgreeButRefusals (whole.run calls).recorder (kept.run (calls.filter Call.isTaken)).recorder ∧
      (calls.zip (whole.run calls).result).filter (fun answered => answered.1.isTaken) =
        (calls.filter Call.isTaken).zip (kept.run (calls.filter Call.isTaken)).result := by
  induction calls generalizing whole kept with
  | nil => exact ⟨h, rfl⟩
  | cons call calls ih =>
    cases hcall : call.isTaken with
    | false =>
      -- Only one of the two is called, and it goes on as if it had not been.
      have hrest := ih (h.refused hcall)
      simp only [Recorder.run, List.zip_cons_cons, List.filter_cons, hcall]
      exact hrest
    | true =>
      have hrest := ih (h.taken hcall)
      simp only [List.filter_cons, hcall, if_pos, Recorder.run, List.zip_cons_cons,
        h.result_perform_eq]
      exact ⟨hrest.1, congrArg _ hrest.2⟩

end Agree

/-! ### What is refused -/

/-- An input is refused if it was read as an error, and with that error. -/
theorem result_receive_error {session : Session} {input : Except MessageError Message}
    {error : MessageError} :
    (session.receive input).result = .error error ↔ input = .error error := by
  cases input with
  | error e => simp only [receive, Except.error.injEq]
  | ok message => simp only [receive, reduceCtorEq]

/-- What is processed is without a result in the same case. -/
theorem result_processIn_eq_none {spans : List Span} {recorder : Recorder σ}
    {decoded : Except MessageError Message} :
    (recorder.processIn spans decoded).result = none ↔ ∃ error, decoded = .error error := by
  rw [result_processIn]
  cases decoded with
  | error error => exact ⟨fun _ => ⟨error, rfl⟩, fun _ => rfl⟩
  | ok message =>
    constructor
    · intro h
      exact nomatch h
    · rintro ⟨error, h⟩
      exact nomatch h

/-- Bytes are refused if they are not UTF-8, or if the text that they encode is refused. -/
theorem exists_decodeBytes_eq_error {raw : List UInt8} :
    (∃ error, Message.decodeBytes raw = .error error) ↔
      ¬ raw.toByteArray.IsValidUTF8 ∨
        ∃ text error, raw = Text.Utf8.encode text ∧ Message.decode text = .error error := by
  rw [Text.Utf8.isValidUTF8_iff]
  simp only [← Text.Utf8.decode_eq_ok_iff, Message.decodeBytes]
  -- Bytes that are no UTF-8 encode no text, so the second case is out.
  cases htext : Text.Utf8.decode raw with
  | error fault => simp
  | ok text => simp

/-- The answer to a call is an outcome if and only if the call brings a message. -/
theorem isSome_outcome?_perform (recorder : Recorder σ) (call : Call) :
    (recorder.perform call).result.outcome?.isSome = call.isTaken := by
  rw [result_perform, Call.outcome?_answer, Call.isTaken]
  cases call.input <;> rfl

end Recorder

/-- **Refused messages leave only their counters**, and what is refused is decided by the message
alone. A line that is dispatched is refused if it does not decode, with the same error; one that
is processed is refused in the same case; and bytes are refused if they are not UTF-8 or if their
text does not decode. A refused call counts as a message and under the kind of its error. So
without the refused calls a run submits the same elements, gives the same answers to the calls
that are left, and ends with the same numbering, registry, cells and sink and with the same
counters but for these. -/
theorem Recorder.refusal_run {σ : Type} [Sink σ] :
    (∀ (recorder : Recorder σ) line error,
      (recorder.dispatch line).result = .error error ↔ Message.decode line = .error error) ∧
      (∀ (recorder : Recorder σ) line,
        (recorder.process line).result = none ↔ ∃ error, Message.decode line = .error error) ∧
      (∀ (recorder : Recorder σ) raw, (recorder.processBytes raw).result = none ↔
        ¬ raw.toByteArray.IsValidUTF8 ∨
          ∃ text error, raw = Text.Utf8.encode text ∧ Message.decode text = .error error) ∧
      (∀ (recorder : Recorder σ) call,
        (recorder.perform call).result.outcome?.isSome = call.isTaken) ∧
      (∀ (recorder : Recorder σ) call error, call.input = .error error →
        (recorder.perform call).recorder = recorder.countRefusal error) ∧
      (∀ (recorder : Recorder σ) calls,
        AgreeButRefusals (recorder.run calls).recorder
          (recorder.run (calls.filter Call.isTaken)).recorder ∧
          (calls.zip (recorder.run calls).result).filter (fun answered => answered.1.isTaken) =
            (calls.filter Call.isTaken).zip (recorder.run (calls.filter Call.isTaken)).result) ∧
      ∀ retention (sink : σ) calls,
        submitted retention sink (calls.filter Call.isTaken) = submitted retention sink calls := by
  refine ⟨fun recorder line error => result_receive_error,
    fun recorder line => result_processIn_eq_none,
    fun recorder raw => result_processIn_eq_none.trans exists_decodeBytes_eq_error,
    isSome_outcome?_perform, fun recorder call error => perform_error recorder,
    fun recorder calls => ?_, fun retention sink calls => ?_⟩
  · have hsame : AgreeButRefusals recorder recorder := ⟨agreeButRefusals_refl _, rfl⟩
    exact hsame.run calls
  · -- What a tape has taken is a part of the sink.
    have hsame :
        AgreeButRefusals (start retention (Tape.blank sink)) (start retention (Tape.blank sink)) :=
      ⟨agreeButRefusals_refl _, rfl⟩
    exact congrArg Tape.taken (hsame.run calls).1.sink

/-- A byte that starts no character is refused for that, and counted as a malformed message. -/
theorem Recorder.refusal_run_notUtf8 :
    (Call.processBytes [0xFF]).input = .error (.malformed (.notUtf8 ⟨0, some 1⟩)) ∧
      ((start .full Document.empty).perform (.processBytes [0xFF])).recorder =
        (start .full Document.empty).countRefusal (.malformed (.notUtf8 ⟨0, some 1⟩)) :=
  ⟨rfl, Recorder.refusal_run.2.2.2.2.1 _ _ _ rfl⟩

end Lineage
