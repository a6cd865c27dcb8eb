import Lineage.Proofs.Ends

/-!
# Sinks have no say

A recorder goes on in the same way whatever its sink answers. Behind any two sinks it gives the same
answers, hands over the same elements, and ends with the same session; the journals differ in
nothing but the refusals that they tell of (`AgreeButSinks`, `Recorder.detachment_run`).

A `Faulty` sink loses elements in a pattern of its own. What it stores in the end is what the sink
behind it stores of the elements that are not lost (`Faulty.sink_submitAll`), and since those come
from a run that takes no notice of the losses, nothing else of the run shows them.
-/

namespace Lineage

open Lineage.Graph Session Telemetry

/-! ### What journals tell besides refusals -/

/-- Whether an event is the refusal of an element by a sink. -/
def Event.isRefusal : Event → Bool
  | submissionFailed _ _ => true
  | _ => false

/-- What a journal tells besides the refusals of a sink. -/
def told (journal : List Entry) : List Entry :=
  journal.filter fun entry => !entry.event.isRefusal

/-- What is told of two journals is told of either. -/
theorem told_append (before later : List Entry) :
    told (before ++ later) = told before ++ told later :=
  List.filter_append ..

/-- The event that is to be told. -/
def Effect.event? : Effect → Option Event
  | submit _ => none
  | tell event => some event

/-- A sink adds its refusals to what is to be told, and nothing else. -/
theorem Effect.filter_performAll_snd {σ : Type} [Sink σ] (sink : σ) (effects : List Effect) :
    (performAll sink effects).2.filter (fun event => !event.isRefusal) =
      (effects.filterMap Effect.event?).filter fun event => !event.isRefusal := by
  induction effects generalizing sink with
  | nil => rfl
  | cons effect effects ih =>
    cases effect with
    | submit element =>
      rw [performAll, List.filter_append, ih, List.filterMap_cons]
      -- The sink may have refused it or not: a refusal is filtered out.
      cases (Sink.submit sink element).2 <;> rfl
    | tell event =>
      rw [performAll, List.filterMap_cons]
      simp only [event?, List.filter_cons, ih]

/-! ### The same but for the sinks -/

section Agree

variable {σ τ : Type} [Sink σ] [Sink τ]

/-- Two recorders behind different sinks have answered in the same way, and are to go on in
the same way. -/
structure AgreeButSinks {α : Type} (delivery : Delivery σ α) (delivery' : Delivery τ α) : Prop where
  result : delivery'.result = delivery.result
  /-- The counters, the registry, the cells and the numbers that come next are the same. -/
  session : delivery'.recorder.session = delivery.recorder.session
  told : told delivery'.journal = told delivery.journal

namespace Recorder

variable {recorder : Recorder σ} {recorder' : Recorder τ}

/-- A message that is dispatched leads both sessions to the same. -/
theorem agreeButSinks_dispatchIn (h : recorder'.session = recorder.session) (spans : List Span)
    (decoded : Except MessageError Message) :
    AgreeButSinks (recorder.dispatchIn spans decoded) (recorder'.dispatchIn spans decoded) := by
  -- All that is said of a message comes of the session, and the two are equal.
  have hreception : recorder'.session.receive decoded = recorder.session.receive decoded := by
    rw [h]
  refine ⟨congrArg Reception.result hreception, congrArg Reception.session hreception, ?_⟩
  simp only [dispatchIn, Lineage.told, List.filter_map, Function.comp_def,
    Effect.filter_performAll_snd, hreception]

/-- So does one that is processed, in whatever spans. -/
theorem agreeButSinks_processIn (h : recorder'.session = recorder.session) (spans : List Span)
    (decoded : Except MessageError Message) :
    AgreeButSinks (recorder.processIn spans decoded) (recorder'.processIn spans decoded) := by
  have hspan : recorder'.spanFor decoded = recorder.spanFor decoded := by rw [spanFor, h, spanFor]
  have hdispatch := agreeButSinks_dispatchIn h (spans ++ [recorder.spanFor decoded]) decoded
  simp only [processIn, hspan, hdispatch.result]
  -- A refused message is told of in both journals.
  cases (recorder.dispatchIn (spans ++ [recorder.spanFor decoded]) decoded).result with
  | ok outcome => exact ⟨rfl, hdispatch.session, hdispatch.told⟩
  | error error =>
    refine ⟨rfl, hdispatch.session, ?_⟩
    rw [told_append, told_append, hdispatch.told]

/-- **The sink has no say in a call.** -/
theorem agreeButSinks_perform (h : recorder'.session = recorder.session) (call : Call) :
    AgreeButSinks (recorder.perform call) (recorder'.perform call) := by
  cases call with
  | dispatch line =>
    have hline := agreeButSinks_dispatchIn h [] (Message.decode line)
    exact ⟨congrArg Answer.dispatched hline.result, hline.session, hline.told⟩
  | process line =>
    have hline := agreeButSinks_processIn h [] (Message.decode line)
    exact ⟨congrArg Answer.processed hline.result, hline.session, hline.told⟩
  | processBytes raw =>
    have hline := agreeButSinks_processIn h [] (Message.decodeBytes raw)
    exact ⟨congrArg Answer.processed hline.result, hline.session, hline.told⟩

/-- Recorders that agree on their sessions agree on what they make of some calls. -/
theorem agreeButSinks_run (h : recorder'.session = recorder.session) (calls : List Call) :
    AgreeButSinks (recorder.run calls) (recorder'.run calls) := by
  induction calls generalizing recorder recorder' with
  | nil => exact ⟨rfl, h, rfl⟩
  | cons call calls ih =>
    have hfirst := agreeButSinks_perform h call
    -- The sinks may differ by now, the sessions do not.
    have hrest := ih hfirst.session
    refine ⟨?_, hrest.session, ?_⟩
    · rw [run, run, hfirst.result, hrest.result]
    · rw [run, run, told_append, told_append, hfirst.told, hrest.told]

end Recorder

end Agree

/-! ### Sinks that lose elements -/

/-- A sink that loses elements. -/
structure Faulty (σ : Type) where
  sink : σ
  /-- The errors of the submissions that are lost, by their numbers. -/
  losses : Nat → Option SinkError
  /-- The number of submissions so far. -/
  attempts : Nat

namespace Faulty

variable {σ : Type} [Sink σ]

def fresh (losses : Nat → Option SinkError) (sink : σ) : Faulty σ := ⟨sink, losses, 0⟩

instance : Sink (Faulty σ) where
  submit faulty element :=
    match faulty.losses faulty.attempts with
    | some error => (⟨faulty.sink, faulty.losses, faulty.attempts + 1⟩, some error)
    | none =>
      let (sink, error) := Sink.submit faulty.sink element
      (⟨sink, faulty.losses, faulty.attempts + 1⟩, error)
  flush faulty :=
    let (sink, error) := Sink.flush faulty.sink
    (⟨sink, faulty.losses, faulty.attempts⟩, error)

/-- Whether it is lost or not, a submission takes a number. -/
theorem fst_submit (faulty : Faulty σ) (element : Element) : (Sink.submit faulty element).1 =
    ⟨if (faulty.losses faulty.attempts).isNone then (Sink.submit faulty.sink element).1
      else faulty.sink,
      faulty.losses, faulty.attempts + 1⟩ := by
  cases hloss : faulty.losses faulty.attempts <;> simp [Sink.submit, hloss]

/-- The elements that are not lost, if the first one has a given number. -/
def spared (losses : Nat → Option SinkError) (first : Nat) (elements : List Element) :
    List Element :=
  ((elements.zipIdx first).filter fun numbered => (losses numbered.2).isNone).map (·.1)

/-- **Lost elements leave nothing behind**: the sink stores what it would store of the
others alone. -/
theorem sink_submitAll (faulty : Faulty σ) (elements : List Element) :
    (Sink.submitAll faulty elements).1.sink =
      (Sink.submitAll faulty.sink (spared faulty.losses faulty.attempts elements)).1 := by
  induction elements generalizing faulty with
  | nil => rfl
  | cons element elements ih =>
    rw [Sink.submitAll]
    simp only [ih, fst_submit, spared, List.zipIdx_cons, List.filter_cons]
    -- Both sides ask whether the first element is lost.
    cases (faulty.losses faulty.attempts).isNone <;> rfl

end Faulty

/-- **Sinks have no say.** Behind any two sinks a fresh recorder gives the same answers, attempts
the same submissions, ends with the same session and tells the same but for refusals. So a sink that
loses elements, in whatever pattern, makes no difference but that it stores the others alone. -/
theorem Recorder.detachment_run {σ τ : Type} [Sink σ] [Sink τ] (retention : Retention) (sink : σ)
    (sink' : τ) (calls : List Call) :
    AgreeButSinks ((start retention sink).run calls) ((start retention sink').run calls) ∧
      submitted retention sink' calls = submitted retention sink calls ∧
      ∀ losses, AgreeButSinks ((start retention sink).run calls)
          ((start retention (Faulty.fresh losses sink)).run calls) ∧
        ((start retention (Faulty.fresh losses sink)).run calls).recorder.sink.sink =
          (Sink.submitAll sink (Faulty.spared losses 0 (submitted retention sink calls))).1 := by
  -- Only the sessions have to be the same at the start, and those are fresh.
  have hsession : (start retention sink').session = (start retention sink).session := rfl
  refine ⟨agreeButSinks_run hsession calls, ?_, fun losses => ⟨?_, ?_⟩⟩
  · rw [submitted_eq, submitted_eq]
  · have hsession : (start retention (Faulty.fresh losses sink)).session =
        (start retention sink).session := rfl
    exact agreeButSinks_run hsession calls
  · rw [sink_run, Faulty.sink_submitAll, submitted_eq]
    rfl

end Lineage
