import Lineage.Proofs.Telling

/-!
# The journal accounts for everything

A recorder that processes what it is given loses nothing in silence (`Recorder.accounts_run`). Every
refused message is warned of under the kind of its error, every entity without an activity is warned
of, and every element that the sink refuses is told of with its id. So the counters of the session
can be read off the journal, and what the sink has accepted is what the session has counted but for
the elements that the journal tells of.

What the sink has accepted and what it has refused is written down by a `Ledger` in front of it,
which makes no difference to what a recorder does (`Recorder.run_withoutBooks`). Whatever the sink
answers, its books agree with the refusals that are told of (`Ledger.booked_performAll`).

That the journal, the counters and the books agree is an invariant (`Recorder.Accounted`), kept by
every call that is processed (`Recorder.Accounted.perform`), and so by every run of such calls.

Each call is told of inside one span, whose number is that of the message. Since the numbers go on
from call to call, the entries of a journal can be told apart by them (`Recorder.tellsOf_run`).
-/

namespace Lineage

open Lineage.Graph Session Telemetry

/-! ### Ledgers -/

/-- A sink with books of what it takes in and what it refuses. -/
structure Ledger (σ : Type) where
  sink : σ
  accepted : List Element
  refused : List Element

namespace Ledger

variable {σ : Type}

def blank (sink : σ) : Ledger σ := ⟨sink, [], []⟩

/-- Books the answer of a sink to an element. -/
def book (ledger : Ledger σ) (element : Element) (answer : σ × Option SinkError) : Ledger σ :=
  match answer.2 with
  | none => ⟨answer.1, ledger.accepted ++ [element], ledger.refused⟩
  | some _ => ⟨answer.1, ledger.accepted, ledger.refused ++ [element]⟩

section Book

variable (ledger : Ledger σ) (element : Element) (answer : σ × Option SinkError)

/-- Booking leaves to the sink what it has become. -/
theorem sink_book : (ledger.book element answer).sink = answer.1 := by
  unfold book
  split <;> rfl

/-- An element is either accepted, or refused and told of. -/
theorem accepted_book :
    ((answer.2.map (Event.submissionFailed element)).toList).countP Event.isRefusal +
    (ledger.book element answer).accepted.length = ledger.accepted.length + 1 := by
  unfold book
  cases answer.2 with
  | none => simp
  | some error => simp [Event.isRefusal, Nat.add_comm 1]

/-- An element that is refused is told of with its id. -/
theorem refused_book : (ledger.book element answer).refused.map Element.elementId =
    ledger.refused.map Element.elementId ++
      (answer.2.map (Event.submissionFailed element)).toList.filterMap Event.refusedId? := by
  unfold book
  cases answer.2 with
  | none => simp
  | some error => simp [Event.refusedId?_submissionFailed]

end Book

variable [Sink σ]

instance : Sink (Ledger σ) where
  submit ledger element := (ledger.book element (Sink.submit ledger.sink element),
    (Sink.submit ledger.sink element).2)
  flush ledger := (⟨(Sink.flush ledger.sink).1, ledger.accepted, ledger.refused⟩,
    (Sink.flush ledger.sink).2)

variable (ledger : Ledger σ)

/-- Keeping books changes nothing of what a sink does. -/
theorem performAll_withoutBooks (effects : List Effect) :
    (Effect.performAll ledger effects).1.sink = (Effect.performAll ledger.sink effects).1 ∧
      (Effect.performAll ledger effects).2 = (Effect.performAll ledger.sink effects).2 := by
  induction effects generalizing ledger with
  | nil => exact ⟨rfl, rfl⟩
  | cons effect effects ih =>
    cases effect with
    -- What is told does not pass the sink, so only a submission could show the books.
    | tell event => exact ⟨(ih ledger).1, congrArg (event :: ·) (ih ledger).2⟩
    | submit element =>
      have hsubmit : (Sink.submit ledger element).1.sink = (Sink.submit ledger.sink element).1 :=
        ledger.sink_book element _
      have hrest := ih (Sink.submit ledger element).1
      rw [hsubmit] at hrest
      exact ⟨hrest.1, congrArg (((Sink.submit ledger.sink element).2.map
        (Event.submissionFailed element)).toList ++ ·) hrest.2⟩

/-- The books after some effects agree with the events. -/
structure Booked (effects : List Effect) : Prop where
  /-- Of the submissions each is either accepted, or refused and told of. -/
  accepted : (Effect.performAll ledger effects).2.countP Event.isRefusal +
      (Effect.performAll ledger effects).1.accepted.length =
    ledger.accepted.length + (effects.filterMap Effect.element?).length
  /-- What is refused is told of with its id. -/
  refused : (Effect.performAll ledger effects).1.refused.map Element.elementId =
    ledger.refused.map Element.elementId ++
      (Effect.performAll ledger effects).2.filterMap Event.refusedId?

/-- **The books agree with the events** if no one but the sink tells of refusals. -/
theorem booked_performAll {effects : List Effect}
    (htold : ∀ event ∈ effects.filterMap Effect.event?, event.isRefusal = false) :
    ledger.Booked effects := by
  induction effects generalizing ledger with
  | nil => exact ⟨Nat.zero_add _, (List.append_nil _).symm⟩
  | cons effect effects ih =>
    cases effect with
    | tell event =>
      -- No one but the sink tells of refusals: the event is in no book.
      have hevent : event.isRefusal = false := htold event List.mem_cons_self
      have hrest := ih ledger fun event hmem => htold event (List.mem_cons_of_mem _ hmem)
      constructor
      · rw [Effect.performAll, List.countP_cons_of_neg (by simp [hevent])]
        exact hrest.accepted
      · rw [Effect.performAll, List.filterMap_cons_none (Event.refusedId?_eq_none hevent)]
        exact hrest.refused
    | submit element =>
      -- The answer to the first element is booked, and the rest goes on with these books.
      have hfirst := ledger.accepted_book element (Sink.submit ledger.sink element)
      have hrest := ih (Sink.submit ledger element).1 htold
      constructor
      · have haccepted := hrest.accepted
        have hsubmissions : ((Effect.submit element :: effects).filterMap Effect.element?).length =
            (effects.filterMap Effect.element?).length + 1 := rfl
        rw [Effect.performAll_submit, List.countP_append, hsubmissions]
        simp only [Sink.submit] at haccepted ⊢
        omega
      · rw [Effect.performAll_submit, List.filterMap_append, ← List.append_assoc]
        exact hrest.refused.trans (congrArg (· ++ _) (ledger.refused_book element _))

end Ledger

/-! ### Recorders with books -/

section Books

variable {σ : Type}

/-- A recorder without the books of its sink. -/
def Recorder.withoutBooks (recorder : Recorder (Ledger σ)) : Recorder σ :=
  ⟨recorder.session, recorder.sink.sink⟩

/-- An answer without the books of the sink. -/
def Delivery.withoutBooks {α : Type} (delivery : Delivery (Ledger σ) α) : Delivery σ α :=
  ⟨delivery.recorder.withoutBooks, delivery.result, delivery.journal⟩

namespace Recorder

variable [Sink σ] (recorder : Recorder (Ledger σ))

/-- A message that is dispatched does the same to the sink proper, and tells the same. -/
theorem dispatchIn_withoutBooks (spans : List Span) (decoded : Except MessageError Message) :
    (recorder.dispatchIn spans decoded).withoutBooks =
      recorder.withoutBooks.dispatchIn spans decoded := by
  obtain ⟨hsink, hevents⟩ :=
    recorder.sink.performAll_withoutBooks (recorder.session.receive decoded).effects
  simp only [dispatchIn, Delivery.withoutBooks, withoutBooks, hsink, hevents]

/-- So does one that is processed, since its span is taken from the session alone. -/
theorem processIn_withoutBooks (spans : List Span) (decoded : Except MessageError Message) :
    (recorder.processIn spans decoded).withoutBooks =
      recorder.withoutBooks.processIn spans decoded := by
  have hspan : recorder.withoutBooks.spanFor decoded = recorder.spanFor decoded := rfl
  simp only [processIn, hspan, ← dispatchIn_withoutBooks]
  simp only [Delivery.withoutBooks]
  split <;> rfl

/-- So does every call. -/
theorem perform_withoutBooks (call : Call) :
    (recorder.perform call).withoutBooks = recorder.withoutBooks.perform call := by
  cases call with
  | dispatch line =>
    simp only [perform, dispatch, ← dispatchIn_withoutBooks]
    rfl
  | process line =>
    simp only [perform, process, ← processIn_withoutBooks]
    rfl
  | processBytes raw =>
    simp only [perform, processBytes, ← processIn_withoutBooks]
    rfl

/-- **Keeping books changes nothing**: a recorder goes on as it does without them. -/
theorem run_withoutBooks (calls : List Call) :
    (recorder.run calls).withoutBooks = recorder.withoutBooks.run calls := by
  induction calls generalizing recorder with
  | nil => rfl
  | cons call calls ih =>
    rw [run, run, ← perform_withoutBooks]
    simp only [Delivery.withoutBooks, ← ih]

end Recorder

end Books

/-! ### The invariant -/

namespace Recorder

variable {σ : Type}

/-- What was told agrees with the counters of a recorder and with the books of its sink. -/
structure Accounted (recorder : Recorder (Ledger σ)) (events : List Event) : Prop where
  dropped : ∀ kind, events.countP (Event.warnsOfDrop kind) =
    recorder.session.stats.dropped.count kind
  missing : events.countP Event.warnsOfMissing = recorder.session.stats.missingCorrelations
  /-- What was counted was accepted, but for what was told of. -/
  submissions : events.countP Event.tellsOfRefusal + recorder.sink.accepted.length =
    recorder.session.stats.vertexTotal + recorder.session.stats.edgeTotal
  refused : events.filterMap Event.refusedId? = recorder.sink.refused.map Element.elementId

/-- At the start nothing is told of and nothing is booked. -/
theorem accounted_start (retention : Retention) (sink : σ) :
    (start retention (Ledger.blank sink)).Accounted [] :=
  ⟨fun _ => rfl, rfl, rfl, rfl⟩

variable [Sink σ] {recorder : Recorder (Ledger σ)} {events : List Event}

/-- A message that is dropped is told of once, and counts once. -/
theorem Accounted.processIn_error (h : recorder.Accounted events) (spans : List Span)
    (error : MessageError) :
    (recorder.processIn spans (.error error)).recorder.Accounted
      (events ++ (recorder.processIn spans (.error error)).journal.map Entry.event) := by
  have hjournal : (recorder.processIn spans (.error error)).journal.map Entry.event =
      [.messageDropped error] := rfl
  have hrecorder : (recorder.processIn spans (.error error)).recorder =
      ⟨recorder.session.drop error, recorder.sink⟩ := rfl
  rw [hjournal, hrecorder]
  constructor
  · intro kind
    have hcount : (recorder.session.drop error).stats.dropped.count kind =
        recorder.session.stats.dropped.count kind + if kind = error.kind then 1 else 0 :=
      Catalog.count_increment _ _ _
    rw [List.countP_append, h.dropped, hcount, List.countP_singleton]
    simp only [Event.warnsOfDrop_iff, Event.messageDropped.injEq, exists_eq_left',
      eq_comm (a := kind)]
  · -- A drop is no missing activity, and nothing was submitted.
    rw [List.countP_append, h.missing]
    rfl
  · rw [List.countP_append]
    exact h.submissions
  · rw [List.filterMap_append, h.refused]
    exact List.append_nil _

/-- A message that is taken in warns of its missing activity, and its elements are booked. -/
theorem Accounted.processIn_ok (h : recorder.Accounted events) (spans : List Span)
    (message : Message) :
    (recorder.processIn spans (.ok message)).recorder.Accounted
      (events ++ (recorder.processIn spans (.ok message)).journal.map Entry.event) := by
  -- The entries are the events of the effects, each inside the same span.
  have hjournal : (recorder.processIn spans (.ok message)).journal.map Entry.event =
      (Effect.performAll recorder.sink (recorder.session.receive (.ok message)).effects).2 := by
    refine (List.map_map ..).trans ?_
    exact List.map_id _
  have hrecorder : (recorder.processIn spans (.ok message)).recorder =
      ⟨(recorder.session.receive (.ok message)).session,
        (Effect.performAll recorder.sink (recorder.session.receive (.ok message)).effects).1⟩ := rfl
  have hbooked :=
    recorder.sink.booked_performAll fun event hmem => (recorder.session.losses_told message hmem).1
  rw [hjournal, hrecorder]
  constructor
  · intro kind
    -- No event of the message is a drop, and none is counted.
    have hnone : ((recorder.session.receive (.ok message)).effects.filterMap Effect.event?).countP
        (Event.warnsOfDrop kind) = 0 :=
      List.countP_eq_zero.2 fun event hmem =>
        Bool.eq_false_iff.1 ((recorder.session.losses_told message hmem).2 kind)
    rw [List.countP_append, Effect.countP_performAll _ _ fun _ => Event.isRefusal_of_warnsOfDrop,
      hnone, h.dropped, stats_receive]
    rfl
  · rw [List.countP_append, Effect.countP_performAll _ _ fun _ => Event.isRefusal_of_warnsOfMissing,
      countP_warnsOfMissing_told, h.missing, stats_receive]
    rfl
  · have hbefore := h.submissions
    have haccepted := hbooked.accepted
    -- The message submits its vertex and its edges, and all of them count.
    have hsubmitted :
        ((recorder.session.receive (.ok message)).effects.filterMap Effect.element?).length =
          1 + (recorder.session.edgesFor message).length := by
      rw [show List.filterMap _ _ = _ from submissions_receive recorder.session message,
        List.length_cons, List.length_map, Nat.add_comm]
    rw [hsubmitted] at haccepted
    rw [Event.tellsOfRefusal_eq] at hbefore ⊢
    rw [List.countP_append]
    simp only [vertexTotal_receive, edgeTotal_receive]
    omega
  · rw [List.filterMap_append, h.refused, hbooked.refused]

/-- Whatever the input of a call is, it is told of and booked. -/
theorem Accounted.processIn (h : recorder.Accounted events) (spans : List Span)
    (decoded : Except MessageError Message) : (recorder.processIn spans decoded).recorder.Accounted
      (events ++ (recorder.processIn spans decoded).journal.map Entry.event) := by
  cases decoded with
  | error error => exact h.processIn_error spans error
  | ok message => exact h.processIn_ok spans message

end Recorder

/-! ### Calls that are processed -/

/-- Whether a call is processed, so that no error is answered. -/
def Call.isProcessed : Call → Bool
  | dispatch _ => false
  | process _ | processBytes _ => true

/-- What a call announces and by which device, if it brings a message. -/
def Call.identity? (call : Call) : Option (EventKind × String) :=
  call.input.toOption.map fun message => (message.event, message.header.agentId)

/-- The number of the message that is dispatched in a span. -/
def Span.sequence? : Span → Option Nat
  | consume _ => none
  | dispatch sequence _ => some sequence

/-- The number of the message that an entry is about. -/
def Entry.sequence? (entry : Entry) : Option Nat :=
  entry.spans.findSome? Span.sequence?

/-- The entries of a journal that are about the message with a number. -/
def entriesOf (number : Nat) (journal : List Entry) : List Entry :=
  journal.filter fun entry => entry.sequence? = some number

/-- The entries about a message are those of either part of a journal. -/
theorem entriesOf_append (number : Nat) (before later : List Entry) :
    entriesOf number (before ++ later) = entriesOf number before ++ entriesOf number later :=
  List.filter_append ..

namespace Recorder

section Processed

variable {σ : Type} [Sink σ] (recorder : Recorder σ)

/-- What is told of a call is told inside the span of its message. -/
theorem spans_processIn (spans : List Span) (decoded : Except MessageError Message)
    {entry : Entry} (h : entry ∈ (recorder.processIn spans decoded).journal) :
    entry.spans = spans ++ [recorder.spanFor decoded] := by
  cases decoded with
  | error error => rw [List.mem_singleton.1 h]
  | ok message =>
    obtain ⟨event, -, rfl⟩ := List.mem_map.1 h
    rfl

/-- Something is told of every message, dropped or not. -/
theorem journal_processIn_ne_nil (spans : List Span) (decoded : Except MessageError Message) :
    (recorder.processIn spans decoded).journal ≠ [] := by
  cases decoded with
  | error error => exact List.cons_ne_nil _ _
  | ok message =>
    intro hnil
    -- That the message was taken in is no refusal, so it is told whatever the sink answers.
    have hevents : (Effect.performAll recorder.sink
        (recorder.session.receive (.ok message)).effects).2 = [] :=
      List.map_eq_nil_iff.1 hnil
    have hfilter :=
      Effect.filter_performAll_snd recorder.sink (recorder.session.receive (.ok message)).effects
    rw [hevents, told_receive, List.filter_append] at hfilter
    exact absurd (List.append_eq_nil_iff.1 hfilter.symm).2 (List.cons_ne_nil _ _)

/-- Apart from the form of its answer, a call that is processed is what its input is
processed as. -/
theorem perform_of_isProcessed {call : Call} (h : call.isProcessed = true) :
    (recorder.perform call).recorder = (recorder.processIn [] call.input).recorder ∧
      (recorder.perform call).journal = (recorder.processIn [] call.input).journal := by
  cases call with
  | dispatch line => exact absurd h Bool.false_ne_true
  | process line => exact ⟨rfl, rfl⟩
  | processBytes raw => exact ⟨rfl, rfl⟩

/-- A journal goes on behind what was told before. -/
theorem journal_run_append (before later : List Call) : (recorder.run (before ++ later)).journal =
    (recorder.run before).journal ++ ((recorder.run before).recorder.run later).journal := by
  induction before generalizing recorder with
  | nil => rfl
  | cons call before ih =>
    rw [List.cons_append, run, run, List.append_assoc]
    exact congrArg ((recorder.perform call).journal ++ ·) (ih (recorder.perform call).recorder)

/-- The span of a call that is processed has the number of its message. -/
theorem spans_perform {call : Call} (h : call.isProcessed = true) {entry : Entry}
    (hentry : entry ∈ (recorder.perform call).journal) :
    entry.spans = [.dispatch (recorder.session.stats.messages + 1) call.identity?] := by
  rw [(recorder.perform_of_isProcessed h).2] at hentry
  exact recorder.spans_processIn [] _ hentry

/-- Every call counts as a message, whatever becomes of it. -/
theorem messages_perform (call : Call) :
    (recorder.perform call).recorder.session.stats.messages =
      recorder.session.stats.messages + 1 := by
  rw [session_perform, messages_receive]

/-- So the number of the next message follows from the number of calls so far. -/
theorem messages_run (calls : List Call) :
    (recorder.run calls).recorder.session.stats.messages =
      recorder.session.stats.messages + calls.length := by
  rw [session_run, messages_after, List.length_map]

/-- What is told in a run is about its own calls: the numbers go on from those that were
given before. -/
theorem sequence_run {calls : List Call} (h : ∀ call ∈ calls, call.isProcessed = true)
    {entry : Entry} (hentry : entry ∈ (recorder.run calls).journal) :
    ∃ number, entry.sequence? = some number ∧ recorder.session.stats.messages < number ∧
      number ≤ recorder.session.stats.messages + calls.length := by
  induction calls generalizing recorder with
  | nil => exact absurd hentry List.not_mem_nil
  | cons call calls ih =>
    rcases List.mem_append.1 hentry with hfirst | hrest
    · -- The first call has the next number, and the others have larger ones.
      have hspans := recorder.spans_perform (h call List.mem_cons_self) hfirst
      refine ⟨recorder.session.stats.messages + 1, ?_, Nat.lt_succ_self _, ?_⟩
      · rw [Entry.sequence?, hspans]
        rfl
      · simp
    · obtain ⟨number, hnumber, hlt, hle⟩ := ih (recorder.perform call).recorder
        (fun other hmem => h other (List.mem_cons_of_mem _ hmem)) hrest
      rw [messages_perform] at hlt hle
      exact ⟨number, hnumber, by omega, by simp only [List.length_cons]; omega⟩

/-- Nothing is told in a run under a number that its calls do not have. -/
theorem entriesOf_run_of_outside {calls : List Call} (h : ∀ call ∈ calls, call.isProcessed = true)
    {number : Nat}
    (hout : number ≤ recorder.session.stats.messages ∨
      recorder.session.stats.messages + calls.length < number) :
    entriesOf number (recorder.run calls).journal = [] := by
  refine List.filter_eq_nil_iff.2 fun entry hentry => ?_
  obtain ⟨own, hown, hlt, hle⟩ := recorder.sequence_run h hentry
  rw [hown, decide_eq_true_eq, Option.some.injEq]
  omega

/-- All that a call tells, it tells under its own number. -/
theorem entriesOf_perform {call : Call} (h : call.isProcessed = true) :
    entriesOf (recorder.session.stats.messages + 1) (recorder.perform call).journal =
      (recorder.perform call).journal := by
  refine List.filter_eq_self.2 fun entry hentry => ?_
  rw [Entry.sequence?, recorder.spans_perform h hentry]
  exact decide_eq_true rfl

/-- The entries about a call are those of the call, and there is at least one. -/
structure TellsOf (journal : List Entry) (number : Nat) (call : Call) (own : List Entry) :
    Prop where
  entries : entriesOf number journal = own
  ne_nil : own ≠ []
  spans : ∀ entry ∈ own, entry.spans = [.dispatch number call.identity?]

/-- **The n-th message is told of under the number n**: what a run tells under this number is what
its call tells. -/
theorem tellsOf_run {before : List Call} {call : Call} {later : List Call}
    (h : ∀ other ∈ before ++ call :: later, other.isProcessed = true) :
    TellsOf (recorder.run (before ++ call :: later)).journal
      (recorder.session.stats.messages + before.length + 1) call
      ((recorder.run before).recorder.perform call).journal := by
  have hcall : call.isProcessed = true := h call (by simp)
  rw [← recorder.messages_run before]
  constructor
  · -- What was told before has smaller numbers, and what is told later has larger ones.
    have hbefore := recorder.entriesOf_run_of_outside (fun other hmem => h other (by simp [hmem]))
      (.inr (Nat.lt_succ_self (recorder.session.stats.messages + before.length)))
    have hprocessed : ∀ other ∈ later, other.isProcessed = true :=
      fun other hmem => h other (by simp [hmem])
    have hlater :=
      ((recorder.run before).recorder.perform call).recorder.entriesOf_run_of_outside hprocessed
        (.inl (Nat.le_of_eq (messages_perform _ call).symm))
    rw [Nat.succ_eq_add_one, ← recorder.messages_run before] at hbefore
    rw [journal_run_append, run, entriesOf_append, entriesOf_append, hbefore, hlater,
      entriesOf_perform _ hcall, List.nil_append, List.append_nil]
  · rw [((recorder.run before).recorder.perform_of_isProcessed hcall).2]
    exact journal_processIn_ne_nil _ _ _
  · exact fun entry hentry => (recorder.run before).recorder.spans_perform hcall hentry

end Processed

section Run

variable {σ : Type} [Sink σ] {recorder : Recorder (Ledger σ)} {events : List Event}

/-- **A call that is processed keeps the accounts**: it does what its input does. -/
theorem Accounted.perform (h : recorder.Accounted events) {call : Call}
    (hcall : call.isProcessed = true) :
    (recorder.perform call).recorder.Accounted
      (events ++ (recorder.perform call).journal.map Entry.event) := by
  obtain ⟨hrecorder, hjournal⟩ := recorder.perform_of_isProcessed hcall
  rw [hrecorder, hjournal]
  exact h.processIn [] call.input

/-- **A run of such calls keeps the accounts**, from whatever state it starts. -/
theorem Accounted.run (h : recorder.Accounted events) {calls : List Call}
    (hcalls : ∀ call ∈ calls, call.isProcessed = true) :
    (recorder.run calls).recorder.Accounted
      (events ++ (recorder.run calls).journal.map Entry.event) := by
  induction calls generalizing recorder events with
  | nil => exact (List.append_nil events).symm ▸ h
  -- What the first call leaves is accounted for, and the others go on from there.
  | cons call calls ih =>
    have hfirst := h.perform (hcalls call List.mem_cons_self)
    have hrest := ih hfirst fun other hmem => hcalls other (List.mem_cons_of_mem _ hmem)
    rw [List.append_assoc, ← List.map_append] at hrest
    exact hrest

end Run

/-- **The journal accounts for everything** that a fresh recorder is given to process, whatever its
sink refuses. It warns of as many dropped messages of each kind, and of as many missing activities,
as are counted; it has an error for each vertex and edge that is counted but not accepted, with the
ids of just the elements that were refused; and what it tells of the n-th call, it tells inside a
span with the number n. The books that say what was accepted and what was refused make no difference
to anything else. -/
theorem accounts_run {σ : Type} [Sink σ] (retention : Retention) (sink : σ) {calls : List Call}
    (hcalls : ∀ call ∈ calls, call.isProcessed = true) :
    ((start retention (Ledger.blank sink)).run calls).withoutBooks =
      (start retention sink).run calls ∧
      ((start retention (Ledger.blank sink)).run calls).recorder.Accounted
        (((start retention sink).run calls).journal.map Entry.event) ∧
      ∀ before call later, calls = before ++ call :: later →
        TellsOf ((start retention sink).run calls).journal (before.length + 1) call
          (((start retention sink).run before).recorder.perform call).journal := by
  have hbooks : ((start retention (Ledger.blank sink)).run calls).withoutBooks =
      (start retention sink).run calls :=
    run_withoutBooks _ calls
  refine ⟨hbooks, ?_, ?_⟩
  · have haccounted := (accounted_start retention sink).run hcalls
    rw [List.nil_append] at haccounted
    -- The journal of the run without books is that of the run with them.
    rw [← hbooks]
    exact haccounted
  · rintro before call later rfl
    have htells := (start retention sink).tellsOf_run hcalls
    rw [show (start retention sink).session.stats.messages = 0 from rfl, Nat.zero_add] at htells
    exact htells

/-- An agent is refused by a sink that is out, and bytes that are no text are dropped:
both are told of. -/
theorem accounts_run_outage :
    let calls : List Call := [.process "AGENT|a|d|1|t", .processBytes [0xFF]]
    let run := (start .full (Outage.mk (.io "gone"))).run calls
    (∀ call ∈ calls, call.isProcessed = true) ∧
      (run.journal.map Entry.event).countP (Event.warnsOfDrop "malformed_message") = 1 ∧
      (run.journal.map Entry.event).countP Event.tellsOfRefusal = 1 ∧
      (run.journal.map Entry.event).filterMap Event.refusedId? = [.vertex "agent:d:0"] ∧
      entriesOf 2 run.journal = [⟨.messageDropped (.malformed (.notUtf8 ⟨0, some 1⟩)),
        [.dispatch 2 none]⟩] := by
  intro calls run
  have hcalls : ∀ call ∈ calls, call.isProcessed = true := by decide
  obtain ⟨-, haccounted, htells⟩ := accounts_run .full (Outage.mk (.io "gone")) hcalls
  -- The outage accepts nothing, so every submission is an error.
  have haccepted : ((start .full (Ledger.blank (Outage.mk (.io "gone")))).run
      calls).recorder.sink.accepted = [] := by
    decide +kernel
  refine ⟨hcalls, (haccounted.dropped _).trans (by decide +kernel), ?_,
    haccounted.refused.trans (by decide +kernel), ?_⟩
  · have hsubmissions := haccounted.submissions
    rw [haccepted, List.length_nil, Nat.add_zero] at hsubmissions
    exact hsubmissions.trans (by decide +kernel)
  · exact (htells [.process "AGENT|a|d|1|t"] _ [] rfl).entries.trans (by decide +kernel)

end Recorder

end Lineage
