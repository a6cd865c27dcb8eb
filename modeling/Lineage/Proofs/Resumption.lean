import Lineage.Proofs.Consumption
import Lineage.Proofs.Counters
import Lineage.Proofs.Lines
import Mathlib.Algebra.Ring.Nat

/-!
# Stopping and going on

All that a recorder remembers is in its session, and nothing in the loop that fetches. So when a run
has ended, by the end of the input or by a failure, another one goes on where it has stopped:
several runs over portions of messages leave the session that one run over all the messages leaves,
and they submit the same elements (`Recorder.Resumed`). What a summary says was received is counted
for its own run, but its counters are those of the session and go on from run to run.

The portions may come from one feed that is consumed again after it has failed. The lines of a
stream are cut at the failures of its reads, but none of them is lost and none falls into two
(`Feed.ArePortions`): the bytes of a line that a failure interrupts are kept until the line ends
(`Recorder.exists_portions`).
-/

namespace Lineage

open Lineage.Graph Session Telemetry

/-! ### Portions of messages -/

namespace Feed

/-- What a run is given to consume: some messages, and behind them the end of the input
or a failure. -/
structure Portion where
  label : String
  messages : List (List UInt8)
  /-- Why it fails behind the last message, if it does. -/
  failure? : Option String

namespace Portion

def feed (portion : Portion) : Feed :=
  ⟨portion.label, portion.messages.map .message ++ portion.failure?.toList.map .failed⟩

/-- Why a run over a portion stops. -/
def stop (portion : Portion) : StopReason :=
  portion.failure?.elim .endOfInput .failure

end Portion

/-- The messages of some portions, from one source that ends behind the last of them. -/
def joined (label : String) (portions : List Portion) : Feed :=
  ⟨label, (portions.flatMap Portion.messages).map .message⟩

/-- What the messages of some portions are read as. -/
def inputsOf (portions : List Portion) : List (Except MessageError Message) :=
  (portions.flatMap Portion.messages).map Message.decodeBytes

/-- What portions are read as is what the first is, and then the others. -/
theorem inputsOf_cons (portion : Portion) (portions : List Portion) :
    inputsOf (portion :: portions) =
      portion.messages.map Message.decodeBytes ++ inputsOf portions := by
  rw [inputsOf, List.flatMap_cons, List.map_append]
  rfl

/-- The portions that several runs have of some messages if reading fails now and then: each failure
ends the portion of a run, no message is left out between two portions, and all messages are
consumed if there are more runs than failures. -/
structure ArePortions (label : String) (runs : Nat) (messages : List (List UInt8))
    (failures : List String) (portions : List Portion) : Prop where
  ends : (portions.map fun portion => (portion.label, portion.failure?)) =
    (List.range runs).map fun n => (label, failures[n]?)
  consecutive : portions.flatMap Portion.messages <+: messages
  complete : failures.length < runs → portions.flatMap Portion.messages = messages

/-- What the later runs have are portions of what comes behind the first one. -/
theorem ArePortions.cons {label : String} {runs : Nat} {later : List (List UInt8)}
    {failures : List String} {portions : List Portion}
    (h : ArePortions label runs later failures.tail portions) (first : List (List UInt8))
    (hlater : failures = [] → later = []) :
    ArePortions label (runs + 1) (first ++ later) failures
      (⟨label, first, failures.head?⟩ :: portions) where
  ends := by
    rw [List.map_cons, h.ends, List.range_succ_eq_map, List.map_cons, List.map_map]
    cases failures <;> rfl
  consecutive := by
    rw [List.flatMap_cons, List.prefix_append_right_inj]
    exact h.consecutive
  complete := by
    intro hruns
    rw [List.flatMap_cons]
    cases failures with
    -- Without a failure the first run takes everything, and nothing is left for later.
    | nil =>
      obtain rfl := hlater rfl
      rw [List.prefix_nil.1 h.consecutive]
    | cons reason failures => rw [h.complete (Nat.lt_of_succ_lt_succ hruns)]

end Feed

namespace Recorder

variable {σ : Type} [Sink σ]

/-! ### Several runs -/

/-- Consumes feeds, one after the other, when no stop is requested. -/
def consumeAll (recorder : Recorder σ) : List Feed → List Summary × Recorder σ
  | [] => ([], recorder)
  | feed :: feeds =>
    let (summary, intake) := recorder.consume false feed
    let (summaries, last) := intake.recorder.consumeAll feeds
    (summary :: summaries, last)

/-- Consumes one feed several times over, when no stop is requested: a run is given what the one
before it has left. -/
def consumeAgain (label : String) : Nat → Recorder σ → List Feed.Arrival → List Summary × Recorder σ
  | 0, recorder, _ => ([], recorder)
  | runs + 1, recorder, arrivals =>
    let (summary, intake) := recorder.consume false ⟨label, arrivals⟩
    let (summaries, last) := consumeAgain label runs intake.recorder intake.rest
    (summary :: summaries, last)

/-- The later runs begin with the recorder that the first has left. -/
theorem consumeAll_cons (recorder : Recorder σ) (feed : Feed) (feeds : List Feed) :
    recorder.consumeAll (feed :: feeds) =
      let later := (recorder.consume false feed).2.recorder.consumeAll feeds
      ((recorder.consume false feed).1 :: later.1, later.2) := rfl

/-- And on a shared feed, with the arrivals that it has left. -/
theorem consumeAgain_succ (label : String) (runs : Nat) (recorder : Recorder σ)
    (arrivals : List Feed.Arrival) :
    recorder.consumeAgain label (runs + 1) arrivals =
      let (summary, intake) := recorder.consume false ⟨label, arrivals⟩
      let later := intake.recorder.consumeAgain label runs intake.rest
      (summary :: later.1, later.2) := rfl

/-- A run over a portion, with more to arrive only if the portion fails. -/
theorem consume_portion_append (recorder : Recorder σ) (portion : Feed.Portion)
    {more : List Feed.Arrival} (hmore : portion.failure? = none → more = []) :
    let run := recorder.consume false ⟨portion.label, portion.feed.arrivals ++ more⟩
    let processed := (recorder.run (portion.messages.map .processBytes)).recorder
    run.1 = ⟨portion.label, portion.messages.length, portion.stop, processed.session.stats⟩ ∧
      run.2.recorder = processed.flush.1 ∧ run.2.rest = more := by
  obtain ⟨label, messages, failure?⟩ := portion
  rw [Feed.Portion.feed, List.append_assoc]
  cases failure? with
  | none =>
    obtain rfl := hmore rfl
    have hended : (Feed.fetch []).result.message? = none := rfl
    exact recorder.consume_messages_append label messages hended
  -- The run stops at the failure, and what is behind it is left.
  | some reason =>
    have hfailed : (Feed.fetch (.failed reason :: more)).result.message? = none := rfl
    exact recorder.consume_messages_append label messages hfailed

/-- A run over a portion that is all that arrives. -/
theorem consume_portion (recorder : Recorder σ) (portion : Feed.Portion) :
    let run := recorder.consume false portion.feed
    let processed := (recorder.run (portion.messages.map .processBytes)).recorder
    run.1 = ⟨portion.label, portion.messages.length, portion.stop, processed.session.stats⟩ ∧
      run.2.recorder = processed.flush.1 := by
  have hrun := recorder.consume_portion_append portion (fun _ => rfl)
  rw [List.append_nil] at hrun
  exact ⟨hrun.1, hrun.2.1⟩

/-- **Runs over one feed are runs over portions.** If messages and failures arrive on a feed, runs
that share it do what as many runs do that are given a portion each. -/
theorem exists_portions (recorder : Recorder σ) (label : String) (runs : Nat)
    {arrivals : List Feed.Arrival} {messages : List (List UInt8)} {failures : List String}
    (h : Feed.Carries arrivals messages failures) :
    ∃ portions, Feed.ArePortions label runs messages failures portions ∧
      recorder.consumeAgain label runs arrivals =
        recorder.consumeAll (portions.map Feed.Portion.feed) := by
  induction runs generalizing recorder arrivals messages failures with
  | zero => exact ⟨[], ⟨rfl, List.nil_prefix, fun hruns => absurd hruns (Nat.not_lt_zero _)⟩, rfl⟩
  | succ runs ih =>
    -- The first run goes up to the first failure, and if there is none it takes all messages.
    obtain ⟨first, more, later, harrivals, rfl, hmore, hlater⟩ : ∃ first more later,
        arrivals = (⟨label, first, failures.head?⟩ : Feed.Portion).feed.arrivals ++ more ∧
        messages = first ++ later ∧
          Feed.Carries more later failures.tail ∧ (failures = [] → more = [] ∧ later = []) := by
      rcases h.eq_or_exists_failed with
        ⟨rfl, rfl⟩ | ⟨first, reason, rest, later, others, rfl, rfl, rfl, hrest⟩
      · exact ⟨messages, [], [], by simp [Feed.Portion.feed], (List.append_nil _).symm, .nil,
          fun _ => ⟨rfl, rfl⟩⟩
      · exact ⟨first, rest, later, by simp [Feed.Portion.feed], rfl, hrest,
          fun hnil => nomatch hnil⟩
    have hended : (⟨label, first, failures.head?⟩ : Feed.Portion).failure? = none → more = [] :=
      fun hhead => (hlater (List.head?_eq_none_iff.1 hhead)).1
    have hfirst := recorder.consume_portion_append _ hended
    -- Alone, the first portion leads to the same, and it leaves nothing.
    have halone := recorder.consume_portion ⟨label, first, failures.head?⟩
    obtain ⟨portions, hportions, hruns⟩ :=
      ih ((recorder.run (first.map .processBytes)).recorder.flush).1 hmore
    refine ⟨_, hportions.cons first fun hnil => (hlater hnil).2, ?_⟩
    rw [List.map_cons, consumeAll_cons, consumeAgain_succ, harrivals]
    simp only
    rw [hfirst.1, hfirst.2.1, hfirst.2.2, halone.1, halone.2, hruns]

/-! ### What the runs add up to -/

/-- A run over a portion takes the session and the tape where its messages take them. -/
theorem consume_portion_tape (recorder : Recorder (Tape σ)) (portion : Feed.Portion) :
    let run := recorder.consume false portion.feed
    let inputs := portion.messages.map Message.decodeBytes
    run.1 = ⟨portion.label, portion.messages.length, portion.stop,
      (recorder.session.after inputs).stats⟩ ∧
      run.2.recorder.session = recorder.session.after inputs ∧
      run.2.recorder.sink.taken = recorder.sink.taken ++ recorder.session.submissions inputs := by
  have hinputs : (portion.messages.map .processBytes).map Call.input =
      portion.messages.map Message.decodeBytes := by
    rw [List.map_map]
    rfl
  obtain ⟨hsummary, hrecorder⟩ := recorder.consume_portion portion
  refine ⟨?_, ?_, ?_⟩
  · rw [hsummary, session_run, hinputs]
  · rw [hrecorder, flush, session_run, hinputs]
  · -- That the sink is flushed does not show on the tape.
    have hflush : (recorder.consume false portion.feed).2.recorder.sink.taken =
        (recorder.run (portion.messages.map .processBytes)).recorder.sink.taken := by
      rw [hrecorder]
      rfl
    rw [hflush, sink_run, Tape.taken_submitAll, hinputs]

/-- Runs over portions take them where the messages of all portions do, and each summary has the
counters that the messages up to it lead to. -/
theorem consumeAll_portions (recorder : Recorder (Tape σ)) (portions : List Feed.Portion) :
    let runs := recorder.consumeAll (portions.map Feed.Portion.feed)
    runs.2.session = recorder.session.after (Feed.inputsOf portions) ∧
      runs.2.sink.taken =
        recorder.sink.taken ++ recorder.session.submissions (Feed.inputsOf portions) ∧
      ∀ n : Nat, runs.1[n]? = portions[n]?.map fun portion =>
        (⟨portion.label, portion.messages.length, portion.stop,
          (recorder.session.after (Feed.inputsOf (portions.take (n + 1)))).stats⟩ : Summary) := by
  -- The induction is on the portions, for any recorder: the later runs begin with what the first
  -- one has left.
  induction portions generalizing recorder with
  | nil => exact ⟨rfl, (List.append_nil _).symm, fun n => rfl⟩
  | cons portion portions ih =>
    obtain ⟨hsummary, hfirst, hfirstTaken⟩ := recorder.consume_portion_tape portion
    obtain ⟨hsession, htaken, hsummaries⟩ := ih (recorder.consume false portion.feed).2.recorder
    rw [List.map_cons, consumeAll_cons]
    refine ⟨?_, ?_, fun n => ?_⟩
    · rw [hsession, hfirst, Feed.inputsOf_cons, after_append]
    · rw [htaken, hfirst, hfirstTaken, Feed.inputsOf_cons, submissions_append, List.append_assoc]
    · cases n with
      -- The first summary has the counters behind its own portion.
      | zero =>
        rw [List.getElem?_cons_zero, List.getElem?_cons_zero, hsummary, List.take_succ_cons,
          List.take_zero, Feed.inputsOf_cons]
        simp [Feed.inputsOf]
      | succ n =>
        rw [List.getElem?_cons_succ, List.getElem?_cons_succ, hsummaries n, hfirst]
        simp only [List.take_succ_cons, Feed.inputsOf_cons, after_append]

end Recorder

/-- One run over all messages of some portions. -/
def Recorder.consumeJoined {σ : Type} [Sink σ] (retention : Retention) (sink : σ) (label : String)
    (portions : List Feed.Portion) : Summary × Intake (Tape σ) :=
  (start retention (Tape.blank sink)).consume false (Feed.joined label portions)

/-- What several runs over portions of messages come to is what one run over all of them comes to:
the session and the submissions are the same, and each summary has the number of messages of its own
portion, but the counters of a run over all messages up to it. -/
structure Recorder.Resumed {σ : Type} [Sink σ] (retention : Retention) (sink : σ)
    (portions : List Feed.Portion) (runs : List Summary × Recorder (Tape σ)) : Prop where
  session (label : String) :
    runs.2.session = (consumeJoined retention sink label portions).2.recorder.session
  submissions (label : String) :
    runs.2.sink.taken = (consumeJoined retention sink label portions).2.recorder.sink.taken
  summaries (label : String) (n : Nat) : runs.1[n]? = portions[n]?.map fun portion =>
    ⟨portion.label, portion.messages.length, portion.stop,
      (consumeJoined retention sink label (portions.take (n + 1))).1.stats⟩
  /-- What the runs have received are the messages of the session. -/
  received : (runs.1.map Summary.received).sum = runs.2.session.stats.messages

namespace Recorder

variable {σ : Type} [Sink σ] (retention : Retention) (sink : σ)

/-- One run over all messages takes the session, the counters and the tape where they do. -/
theorem consumeJoined_eq (label : String) (portions : List Feed.Portion) :
    let run := consumeJoined retention sink label portions
    run.1.stats = ((Session.start retention).after (Feed.inputsOf portions)).stats ∧
      run.2.recorder.session = (Session.start retention).after (Feed.inputsOf portions) ∧
      run.2.recorder.sink.taken =
        (Session.start retention).submissions (Feed.inputsOf portions) := by
  -- The messages of all portions make up a portion themselves.
  have hjoined : Feed.joined label portions =
      (⟨label, portions.flatMap Feed.Portion.messages, none⟩ : Feed.Portion).feed := by
    simp [Feed.joined, Feed.Portion.feed]
  obtain ⟨hsummary, hsession, htaken⟩ := (start retention (Tape.blank sink)).consume_portion_tape
    ⟨label, portions.flatMap Feed.Portion.messages, none⟩
  rw [consumeJoined, hjoined]
  exact ⟨congrArg Summary.stats hsummary, hsession, htaken⟩

/-- Runs of a fresh recorder over portions come to what one run does. -/
theorem resumed_consumeAll (portions : List Feed.Portion) :
    Resumed retention sink portions
      ((start retention (Tape.blank sink)).consumeAll (portions.map Feed.Portion.feed)) := by
  obtain ⟨hsession, htaken, hsummaries⟩ :=
    (start retention (Tape.blank sink)).consumeAll_portions portions
  refine ⟨fun label => ?_, fun label => ?_, fun label n => ?_, ?_⟩
  · rw [hsession, (consumeJoined_eq retention sink label portions).2.1]
    rfl
  · rw [htaken, (consumeJoined_eq retention sink label portions).2.2]
    rfl
  · rw [hsummaries, (consumeJoined_eq retention sink label (portions.take (n + 1))).1]
    rfl
  · have hreceived :
        ((start retention (Tape.blank sink)).consumeAll
          (portions.map Feed.Portion.feed)).1.map Summary.received =
        portions.map fun portion => portion.messages.length := by
      -- Every summary tells the number of its own portion.
      refine List.ext_getElem? fun n => ?_
      rw [List.getElem?_map, List.getElem?_map, hsummaries, Option.map_map]
      rfl
    rw [hreceived, hsession, messages_after, Feed.inputsOf, List.length_map, List.length_flatMap]
    exact (Nat.zero_add _).symm

/-- **A consumption can be stopped and taken up again.** Whatever the retention and the sink,
several runs over portions of messages, each stopped by the end of its input or by a failure behind
its last message, submit the elements and leave the session of one run over all the messages. The
counters of a summary are cumulative, and what the summaries say was received adds up to the
messages of the session.

So it is if the runs share one feed of lines whose reads fail, in the midst of lines or not: each
failure ends a run, and the runs have portions of the lines of the stream, which are those that come
in when the reads are not interrupted. -/
theorem resumption_run :
    (∀ portions : List Feed.Portion, Resumed retention sink portions
      ((start retention (Tape.blank sink)).consumeAll (portions.map Feed.Portion.feed))) ∧
      ∀ (label : String) (runs : Nat) (reads : List Feed.Read),
        (∀ read ∈ reads, read.isProper = true) →
        ∃ portions, Feed.ArePortions label runs (Feed.linesOf (Feed.bytesOf reads))
            (reads.filterMap Feed.Read.failure?) portions ∧
          Resumed retention sink portions
            ((start retention (Tape.blank sink)).consumeAgain label runs
              (Feed.ofReads label reads).arrivals) ∧
          ((reads.filterMap Feed.Read.failure?).length < runs →
            Feed.joined label portions =
              Feed.ofReads label (reads.filter fun read => read.failure?.isNone)) := by
  refine ⟨resumed_consumeAll retention sink, fun label runs reads hreads => ?_⟩
  have hcarries := Feed.carries_arrivalsFrom hreads List.not_mem_nil
  obtain ⟨portions, hportions, hruns⟩ :=
    (start retention (Tape.blank sink)).exists_portions label runs hcarries
  refine ⟨portions, hportions, ?_, fun hmore => ?_⟩
  · rw [Feed.ofReads, hruns]
    exact resumed_consumeAll retention sink portions
  · -- Without the failures the same lines arrive, and with more runs than failures all
    -- of them are consumed.
    have harrivals := Feed.arrivals_ofReads_filter label hreads
    rw [Feed.joined, hportions.complete hmore, List.reverse_nil, List.nil_append, ← harrivals]
    rfl

/-- Two runs over reads of which one fails within a line: the line comes in whole. -/
theorem resumption_run_interrupted :
    let reads : List Feed.Read := [.bytes [65, 10, 66], .failed "reset", .bytes [67]]
    let runs := (start .full (Tape.blank Document.empty)).consumeAgain "lines" 2
      (Feed.ofReads "lines" reads).arrivals
    (∀ read ∈ reads, read.isProper = true) ∧
      ∃ portions, portions.flatMap Feed.Portion.messages = [[65], [66, 67]] ∧
        portions.map Feed.Portion.failure? = [some "reset", none] ∧
        Resumed .full Document.empty portions runs ∧
        Feed.joined "lines" portions = Feed.ofReads "lines" [.bytes [65, 10, 66], .bytes [67]] := by
  intro reads runs
  have hproper : ∀ read ∈ reads, read.isProper = true := by decide
  obtain ⟨portions, hportions, hresumed, hjoined⟩ :=
    (resumption_run .full Document.empty).2 "lines" 2 reads hproper
  -- One failure and two runs, so all messages are consumed.
  refine ⟨hproper, portions, ?_, ?_, hresumed, hjoined (by decide)⟩
  · rw [hportions.complete (by decide)]
    decide
  · have hends := congrArg (List.map Prod.snd) hportions.ends
    rw [List.map_map] at hends
    exact hends

end Recorder

end Lineage
