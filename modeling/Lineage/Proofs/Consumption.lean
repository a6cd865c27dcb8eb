import Lineage.Proofs.Delivery
import Lineage.Session.Intake

/-!
# Consuming a feed, fetch by fetch

What the consumption of a feed comes to can be told by its fetches alone. They are made one after
the other (`Feed.Fetches`), and of a row of them it can be read off which messages were handed out
(`Feed.yielded`), whether a stop was requested meanwhile (`Feed.requestedBy`) and why no further
fetch was made (`Feed.reasonAfter`).

A run is told by such a row (`Intake.ToldBy`) if it made just these fetches, none of them
while a stop was requested. Every run is told by one, and it processes the messages that are
handed out, each once and in their order (`Recorder.exists_toldBy`). This goes by induction on
what is going to arrive: a run makes one fetch and then goes on as a run over the rest does,
unless the fetch ends it.

A run may wait for ever if a silence comes before any request to stop (`Feed.Hangs`). All other runs
end, and those that end for no reason of the feed end because a stop is requested
(`Recorder.shutdown_run`).

If messages arrive and then something else, they are processed and the run ends there
(`Recorder.consume_messages_append`).
-/

namespace Lineage

open Lineage.Graph Session Telemetry

namespace Feed

/-! ### Rows of fetches -/

/-- The message that a fetch ends with. -/
def Fetched.message? : Fetched → Option (List UInt8)
  | .message raw => some raw
  | _ => none

/-- Fetches from a feed, each from what the one before has left, with what is still to arrive
behind the last. -/
inductive Fetches : List Arrival → List Fetch → List Arrival → Prop
  | none (arrivals : List Arrival) : Fetches arrivals [] arrivals
  | more {arrivals rest : List Arrival} {fetches : List Fetch}
      (h : Fetches (fetch arrivals).rest fetches rest) :
      Fetches arrivals (fetch arrivals :: fetches) rest

/-- The messages that some fetches hand out. -/
def yielded (fetches : List Fetch) : List (List UInt8) :=
  fetches.filterMap (·.result.message?)

/-- Whether a stop is requested behind some fetches: it was before, or it came during one of
them. -/
def requestedBy (stopRequested : Bool) (fetches : List Fetch) : Bool :=
  stopRequested || fetches.any Fetch.stopRequested

/-- Why no fetch is made behind some fetches: for a reason of the feed if the last fetch gave one,
and otherwise for a request to stop. -/
def reasonAfter (fetches : List Fetch) : StopReason :=
  match fetches.getLast?.map Fetch.result with
  | some (.failed reason) => .failure reason
  | some .ended => .endOfInput
  | _ => .shutdown

/-- Whether someone who fetches comes to wait for ever: behind messages there is a silence, with no
request to stop in between. -/
inductive Hangs : List Arrival → Prop
  | now (rest : List Arrival) : Hangs (.silence :: rest)
  | later {raw : List UInt8} {rest : List Arrival} (h : Hangs rest) : Hangs (.message raw :: rest)

section Fetch

variable {arrivals : List Arrival}

/-- Without a request to stop, a message that is fetched is what arrives first. -/
theorem eq_message_cons {raw : List UInt8} (hresult : (fetch arrivals).result = .message raw)
    (hrequest : (fetch arrivals).stopRequested = false) :
    arrivals = .message raw :: (fetch arrivals).rest := by
  cases arrivals with
  | nil => exact nomatch hresult
  | cons arrival rest =>
    cases arrival with
    | message bytes =>
      obtain rfl := Fetched.message.inj hresult
      rfl
    | failed reason => exact nomatch hresult
    | ended => exact nomatch hresult
    | stopRequest => exact nomatch hrequest
    | silence => exact nomatch hresult

/-- Without a request to stop, a fetch that does not end met a silence at once. -/
theorem hangs_of_silent (hresult : (fetch arrivals).result = .silent)
    (hrequest : (fetch arrivals).stopRequested = false) : Hangs arrivals := by
  cases arrivals with
  | nil => exact nomatch hresult
  | cons arrival rest =>
    cases arrival with
    | message bytes => exact nomatch hresult
    | failed reason => exact nomatch hresult
    | ended => exact nomatch hresult
    | stopRequest => exact nomatch hrequest
    | silence => exact .now rest

/-- The last fetch gives the reason, whatever came before it. -/
theorem reasonAfter_cons {first : Fetch} {fetches : List Fetch} (h : fetches ≠ []) :
    reasonAfter (first :: fetches) = reasonAfter fetches := by
  rw [reasonAfter, reasonAfter, List.getLast?_cons_of_ne_nil h]

/-- A fetch that ends with a message gives no reason. -/
theorem reasonAfter_message {first : Fetch} {raw : List UInt8} (h : first.result = .message raw) :
    reasonAfter [first] = .shutdown := by
  simp [reasonAfter, h]

end Fetch

/-- Fetches that went on over messages, with no request to stop, to one that did not end have come
to wait for ever. -/
theorem Fetches.hangs {arrivals rest : List Arrival} {fetches : List Fetch} {last : Fetch}
    (h : Fetches arrivals fetches rest)
    (hwent : ∀ fetch ∈ fetches.dropLast, ∃ raw, fetch.result = .message raw)
    (hrequest : requestedBy false fetches = false) (hlast : fetches.getLast? = some last)
    (hsilent : last.result = .silent) : Hangs arrivals := by
  induction h with
  | none arrivals => exact absurd hlast (by simp)
  | @more arrivals rest fetches h ih =>
    simp only [requestedBy, List.any_cons, Bool.false_or, Bool.or_eq_false_iff] at hrequest
    cases fetches with
    | nil =>
      obtain rfl := Option.some.inj hlast
      exact hangs_of_silent hsilent hrequest.1
    | cons next fetches =>
      -- The fetch is not the last one, so it went on over a message, and that arrived first.
      rw [List.dropLast_cons_cons, List.forall_mem_cons] at hwent
      obtain ⟨⟨raw, hmessage⟩, hwent⟩ := hwent
      rw [List.getLast?_cons_cons] at hlast
      rw [eq_message_cons hmessage hrequest.1]
      exact .later (ih hwent hrequest.2 hlast)

end Feed

namespace Recorder

variable {σ : Type} [Sink σ]

/-! ### One fetch -/

/-- The spans show in the journal only. -/
theorem recorder_processIn (spans : List Span) (recorder : Recorder σ) (raw : List UInt8) :
    (recorder.processIn spans (Message.decodeBytes raw)).recorder =
      (recorder.perform (.processBytes raw)).recorder := by
  have hsession := recorder.session_perform (.processBytes raw)
  have hsink := recorder.sink_perform (.processBytes raw)
  exact congrArg₂ Recorder.mk ((recorder.session_processIn spans _).trans hsession.symm)
    ((recorder.sink_processIn spans _).trans hsink.symm)

section Drain

variable (spans : List Span) (recorder : Recorder σ) {arrivals : List Feed.Arrival}

/-- While a stop is requested nothing is fetched. -/
theorem drain_of_requested (arrivals : List Feed.Arrival) :
    recorder.drain spans true arrivals = ⟨recorder, 0, .shutdown, true, arrivals, []⟩ := by
  rw [drain, if_pos rfl]

/-- A message that is fetched is processed, and the run goes on over the rest. -/
theorem drain_of_message {raw : List UInt8} (h : (Feed.fetch arrivals).result = .message raw) :
    let delivery := recorder.processIn spans (Message.decodeBytes raw)
    let intake :=
      delivery.recorder.drain spans (Feed.fetch arrivals).stopRequested (Feed.fetch arrivals).rest
    recorder.drain spans false arrivals =
      { intake with
        received := intake.received + 1, journal := delivery.journal ++ intake.journal } := by
  rw [drain.eq_def, if_neg Bool.false_ne_true]
  simp only
  split
  next hresult =>
    obtain rfl := Feed.Fetched.message.inj (hresult.symm.trans h)
    rfl
  all_goals next hresult => exact absurd (hresult.symm.trans h) (by simp)

/-- A fetch that does not end with a message ends the run, for the reason that it gives. -/
theorem drain_of_other (h : (Feed.fetch arrivals).result.message? = none) :
    ∃ journal, recorder.drain spans false arrivals =
      ⟨recorder, 0, Feed.reasonAfter [Feed.fetch arrivals], (Feed.fetch arrivals).stopRequested,
        (Feed.fetch arrivals).rest, journal⟩ := by
  rw [drain.eq_def, if_neg Bool.false_ne_true]
  simp only [Feed.reasonAfter, List.getLast?_singleton, Option.map_some]
  split
  next hresult =>
    rw [hresult] at h
    cases h
  next hresult => exact ⟨_, by rw [hresult]⟩
  next hresult => exact ⟨_, by rw [hresult]⟩
  next hresult => exact ⟨_, by rw [hresult]⟩

/-- Messages that arrive one behind the other are processed, and the run goes on over what
comes behind them. -/
theorem drain_messages_append (raws : List (List UInt8)) (rest : List Feed.Arrival) :
    let intake := (recorder.run (raws.map .processBytes)).recorder.drain spans false rest
    ∃ journal, recorder.drain spans false (raws.map .message ++ rest) =
      { intake with received := raws.length + intake.received, journal } := by
  induction raws generalizing recorder with
  | nil =>
    exact ⟨(recorder.drain spans false rest).journal, by rw [List.length_nil, Nat.zero_add]; rfl⟩
  | cons raw raws ih =>
    -- The first message is fetched at once, with no request on the way.
    have hfetch : Feed.fetch ((raw :: raws).map .message ++ rest) =
        ⟨.message raw, false, raws.map .message ++ rest⟩ := rfl
    obtain ⟨journal, hrest⟩ := ih (recorder.perform (.processBytes raw)).recorder
    rw [drain_of_message spans recorder (congrArg Feed.Fetch.result hfetch), hfetch,
      recorder_processIn, hrest]
    refine ⟨(recorder.processIn spans (Message.decodeBytes raw)).journal ++ journal, ?_⟩
    rw [List.length_cons, Nat.add_right_comm]
    rfl

end Drain

/-- A run over messages and what stops it behind them: the messages are processed, and then the
sink is flushed. -/
theorem consume_messages_append (recorder : Recorder σ) (label : String) (raws : List (List UInt8))
    {rest : List Feed.Arrival} (hrest : (Feed.fetch rest).result.message? = none) :
    let (summary, intake) := recorder.consume false ⟨label, raws.map .message ++ rest⟩
    let processed := (recorder.run (raws.map .processBytes)).recorder
    summary = ⟨label, raws.length, Feed.reasonAfter [Feed.fetch rest], processed.session.stats⟩ ∧
      intake.recorder = processed.flush.1 ∧ intake.rest = (Feed.fetch rest).rest := by
  obtain ⟨journal, hdrain⟩ := drain_messages_append [.consume label] recorder raws rest
  obtain ⟨journal', hother⟩ :=
    drain_of_other [.consume label] (recorder.run (raws.map .processBytes)).recorder hrest
  -- Behind the messages the run ends with the next fetch.
  rw [hother] at hdrain
  rw [consume, hdrain]
  exact ⟨rfl, rfl, rfl⟩

end Recorder

/-! ### Whole runs -/

/-- What a run leaves is told by some fetches: they are all that was fetched, none was begun while a
stop was requested, none was made behind one that did not end with a message, and if a further one
could have been made then it was not for a request to stop. -/
structure Intake.ToldBy {σ : Type} (intake : Intake σ) (stopRequested : Bool)
    (arrivals : List Feed.Arrival) (fetches : List Feed.Fetch) : Prop where
  fetched : Feed.Fetches arrivals fetches intake.rest
  begun : ∀ n < fetches.length, Feed.requestedBy stopRequested (fetches.take n) = false
  wentOn : ∀ fetch ∈ fetches.dropLast, ∃ raw, fetch.result = .message raw
  ceased : (∀ fetch, fetches.getLast? = some fetch → ∃ raw, fetch.result = .message raw) →
    Feed.requestedBy stopRequested fetches = true
  received : intake.received = (Feed.yielded fetches).length
  stop : intake.stop = Feed.reasonAfter fetches
  stopRequested : intake.stopRequested = Feed.requestedBy stopRequested fetches

section ToldBy

variable {σ : Type} {intake : Intake σ} {stopRequested : Bool} {arrivals : List Feed.Arrival}
  {fetches : List Feed.Fetch}

/-- What a run over the rest leaves tells, with the fetch of a message before it, what the
whole run leaves. -/
theorem Intake.ToldBy.cons {raw : List UInt8}
    (hmessage : (Feed.fetch arrivals).result = .message raw)
    (h : intake.ToldBy (Feed.fetch arrivals).stopRequested (Feed.fetch arrivals).rest fetches)
    (journal : List Entry) :
    { intake with received := intake.received + 1, journal }.ToldBy false arrivals
      (Feed.fetch arrivals :: fetches) where
  fetched := .more h.fetched
  begun := by
    intro n hn
    cases n with
    | zero => rfl
    | succ n =>
      -- Behind the first fetch it counts whether a stop was requested during it.
      have hrest := h.begun n (Nat.lt_of_succ_lt_succ hn)
      simpa [Feed.requestedBy] using hrest
  wentOn := by
    intro fetch hfetch
    cases fetches with
    | nil => exact absurd hfetch (by simp)
    | cons next fetches =>
      rw [List.dropLast_cons_cons, List.mem_cons] at hfetch
      rcases hfetch with rfl | hfetch
      · exact ⟨raw, hmessage⟩
      · exact h.wentOn fetch hfetch
  ceased := by
    intro hlast
    -- Whether the first fetch is the last one or not, what is asked of the row is asked of the rest
    -- of it.
    have hrest : Feed.requestedBy (Feed.fetch arrivals).stopRequested fetches = true := by
      refine h.ceased fun fetch hfetch => hlast fetch ?_
      rw [List.getLast?_cons_of_ne_nil (List.ne_nil_of_mem (List.mem_of_getLast? hfetch)), hfetch]
    simpa [Feed.requestedBy] using hrest
  received := by
    rw [Feed.yielded, List.filterMap_cons, hmessage]
    exact congrArg Nat.succ h.received
  stop := by
    cases fetches with
    | nil => exact h.stop.trans (Feed.reasonAfter_message hmessage).symm
    | cons next fetches => exact h.stop.trans (Feed.reasonAfter_cons (List.cons_ne_nil _ _)).symm
  stopRequested := h.stopRequested

/-- A fetch that ends a run tells what it leaves. -/
theorem Intake.toldBy_singleton {σ : Type} (recorder : Recorder σ) (journal : List Entry)
    (h : (Feed.fetch arrivals).result.message? = none) :
    (Intake.mk recorder 0 (Feed.reasonAfter [Feed.fetch arrivals])
      (Feed.fetch arrivals).stopRequested
      (Feed.fetch arrivals).rest journal).ToldBy false arrivals [Feed.fetch arrivals] where
  fetched := .more (.none _)
  begun := by
    intro n hn
    obtain rfl : n = 0 := Nat.lt_one_iff.1 hn
    rfl
  wentOn := fun fetch hfetch => absurd hfetch (by simp)
  ceased := by
    intro hlast
    obtain ⟨raw, hresult⟩ := hlast _ rfl
    -- A fetch without a message is not followed by another one.
    exact nomatch (congrArg Feed.Fetched.message? hresult).symm.trans h
  received := by
    rw [Feed.yielded, List.filterMap_cons, h]
    rfl
  stop := rfl
  stopRequested := by simp [Feed.requestedBy]

/-- While a stop is requested there are no fetches to tell of. -/
theorem Intake.toldBy_nil {σ : Type} (recorder : Recorder σ) (arrivals : List Feed.Arrival)
    (journal : List Entry) :
    (Intake.mk recorder 0 .shutdown true arrivals journal).ToldBy true arrivals [] where
  fetched := .none arrivals
  begun := fun n hn => absurd hn (Nat.not_lt_zero n)
  wentOn := fun fetch hfetch => absurd hfetch (by simp)
  ceased := fun _ => rfl
  received := rfl
  stop := rfl
  stopRequested := rfl

/-- A fetch during which a stop is requested is the last one. -/
theorem Intake.ToldBy.eq_nil_of_stopRequested (h : intake.ToldBy stopRequested arrivals fetches)
    {before later : List Feed.Fetch} {fetch : Feed.Fetch}
    (hsplit : fetches = before ++ fetch :: later) (hrequest : fetch.stopRequested = true) :
    later = [] := by
  by_contra hlater
  have hpos : 0 < later.length := List.length_pos_iff.2 hlater
  have htake : fetches.take (before.length + 1) = before ++ [fetch] := by
    rw [hsplit, List.append_cons]
    exact List.take_left' List.length_append
  -- A fetch behind it would have begun while the stop was requested.
  have hbegun := h.begun (before.length + 1) (by simp [hsplit, hpos])
  simp [htake, Feed.requestedBy, hrequest] at hbegun

/-- A run that does not wait for ever, and stops for no reason of the feed, stops because it
is requested. -/
theorem Intake.ToldBy.requested_of_shutdown (h : intake.ToldBy stopRequested arrivals fetches)
    (hwaits : stopRequested = true ∨ ¬ Feed.Hangs arrivals) (hstop : intake.stop = .shutdown) :
    intake.stopRequested = true := by
  rw [h.stopRequested]
  rw [h.stop] at hstop
  by_contra hrequest
  rw [Bool.not_eq_true] at hrequest
  obtain ⟨rfl, -⟩ := Bool.or_eq_false_iff.1 hrequest
  have hnothang : ¬ Feed.Hangs arrivals := hwaits.resolve_left Bool.false_ne_true
  -- So the run did not cease by itself: its last fetch ended with no message.
  have hlast : ¬ ∀ fetch, fetches.getLast? = some fetch → ∃ raw, fetch.result = .message raw :=
    fun hmessages => Bool.false_ne_true (hrequest.symm.trans (h.ceased hmessages))
  push Not at hlast
  obtain ⟨last, hlast, hother⟩ := hlast
  rw [Feed.reasonAfter, hlast, Option.map_some] at hstop
  -- Of the ways in which it may have ended, only the silence gives no other reason.
  cases hresult : last.result with
  | message raw => exact hother raw hresult
  | failed reason => simp [hresult] at hstop
  | ended => simp [hresult] at hstop
  | silent => exact hnothang (h.fetched.hangs h.wentOn hrequest hlast hresult)

end ToldBy

namespace Recorder

variable {σ : Type} [Sink σ]

/-- **A run processes what it fetches**: it is told by fetches, and the recorder ends as if it had
been called with the messages that they hand out. -/
theorem exists_toldBy (spans : List Span) (recorder : Recorder σ) (stopRequested : Bool)
    (arrivals : List Feed.Arrival) :
    ∃ fetches, (recorder.drain spans stopRequested arrivals).ToldBy stopRequested arrivals fetches ∧
      (recorder.drain spans stopRequested arrivals).recorder =
        (recorder.run ((Feed.yielded fetches).map .processBytes)).recorder := by
  -- The induction is on what is going to arrive: a message that is fetched is taken from it.
  induction hlength : arrivals.length using Nat.strongRecOn generalizing recorder
    stopRequested arrivals with
  | _ n ih =>
    cases stopRequested with
    | true =>
      -- No fetch is made, and no message is handed out.
      rw [drain_of_requested]
      exact ⟨[], Intake.toldBy_nil recorder arrivals [], rfl⟩
    | false =>
      cases hmessage : (Feed.fetch arrivals).result.message? with
      | none =>
        -- One fetch is made, and it hands out nothing.
        obtain ⟨journal, hdrain⟩ := drain_of_other spans recorder hmessage
        rw [hdrain]
        refine ⟨[Feed.fetch arrivals], Intake.toldBy_singleton recorder journal hmessage, ?_⟩
        rw [Feed.yielded, List.filterMap_cons, hmessage]
        rfl
      | some raw =>
        have hresult : (Feed.fetch arrivals).result = .message raw := by
          cases hfetched : (Feed.fetch arrivals).result <;> simp_all [Feed.Fetched.message?]
        have hshorter : (Feed.fetch arrivals).rest.length < n :=
          hlength ▸ Feed.length_fetch_rest hresult
        obtain ⟨fetches, htold, hrecorder⟩ := ih _ hshorter
          (recorder.processIn spans (Message.decodeBytes raw)).recorder
          (Feed.fetch arrivals).stopRequested (Feed.fetch arrivals).rest rfl
        rw [drain_of_message spans recorder hresult]
        refine ⟨Feed.fetch arrivals :: fetches, htold.cons hresult _, ?_⟩
        rw [Feed.yielded, List.filterMap_cons, hmessage]
        exact hrecorder.trans (by rw [recorder_processIn]; rfl)

/-- **A stop takes effect between messages**, and nothing that was fetched is lost. A run over a
feed that does not wait for ever is told by its fetches: the messages that they hand out are
processed, each once and in their order, and then the sink that they leave is flushed, which changes
nothing in the session; their number is what the summary says. No fetch begins while a stop is
requested, so there is none if it was before the run, and a fetch during which it is requested is
the last one, its message included. The run fails if the last fetch did and ends if the last fetch
met the end; otherwise it shuts down, which it does for a request only. -/
theorem shutdown_run (recorder : Recorder σ) (stopRequested : Bool) (feed : Feed)
    (h : stopRequested = true ∨ ¬ Feed.Hangs feed.arrivals) :
    let (summary, intake) := recorder.consume stopRequested feed
    ∃ fetches, intake.ToldBy stopRequested feed.arrivals fetches ∧
      intake.recorder.session =
        (recorder.run ((Feed.yielded fetches).map .processBytes)).recorder.session ∧
      intake.recorder.sink =
        (Sink.flush (recorder.run ((Feed.yielded fetches).map .processBytes)).recorder.sink).1 ∧
      summary = ⟨feed.label, (Feed.yielded fetches).length, Feed.reasonAfter fetches,
        intake.recorder.session.stats⟩ ∧
      (stopRequested = true → fetches = []) ∧
      (∀ before fetch later, fetches = before ++ fetch :: later →
        fetch.stopRequested = true → later = []) ∧
      (summary.stop = .shutdown → intake.stopRequested = true) := by
  obtain ⟨fetches, htold, hrecorder⟩ :=
    recorder.exists_toldBy [.consume feed.label] stopRequested feed.arrivals
  refine ⟨fetches, ⟨htold.fetched, htold.begun, htold.wentOn, htold.ceased, htold.received,
    htold.stop, htold.stopRequested⟩, ?_, ?_, ?_, ?_, ?_, htold.requested_of_shutdown h⟩
  · -- A flush leaves the session alone, and so the session is that of the calls.
    have hsession := congrArg Recorder.session hrecorder
    exact hsession
  · have hsink := congrArg (fun left => (Sink.flush left.sink).1) hrecorder
    exact hsink
  · rw [← htold.received, ← htold.stop]
  · rintro rfl
    -- Before the first fetch the stop is requested already.
    by_contra hfetches
    exact Bool.false_ne_true (htold.begun 0 (List.length_pos_iff.2 hfetches)).symm
  · exact fun before fetch later hsplit => htold.eq_nil_of_stopRequested hsplit

/-- A message that is fetched while a stop is requested is processed, and the one behind it is not
fetched. The record of the agent that was announced waits while messages are processed, and is in
the file in the end. -/
theorem shutdown_run_requested :
    let agent := Text.Utf8.encode "AGENT|S1|agent1|t0|Switch"
    let feed : Feed :=
      ⟨"script", [.message agent, .stopRequest, .message [66], .message [67]]⟩
    let run := (start .full RecordFile.empty).consume false feed
    let processed := (start .full RecordFile.empty).run [.processBytes agent, .processBytes [66]]
    ¬ Feed.Hangs feed.arrivals ∧ run.1.received = 2 ∧ run.1.stop = .shutdown ∧
      run.2.rest = [.message [67]] ∧ processed.recorder.sink.written = "" ∧
      processed.recorder.sink.pending ≠ "" ∧
      run.2.recorder.sink = .opened processed.recorder.sink.pending := by
  intro agent feed
  have hwaits : ¬ Feed.Hangs feed.arrivals := by
    intro hhangs
    change Feed.Hangs [.message agent, .stopRequest, .message [66], .message [67]] at hhangs
    cases hhangs with
    | later h => exact nomatch h
  have hrun := shutdown_run (start .full RecordFile.empty) false feed (.inr hwaits)
  -- Of the run no more is used than what tells it.
  generalize (start .full RecordFile.empty).consume false feed = run at hrun ⊢
  obtain ⟨summary, intake⟩ := run
  obtain ⟨fetches, ⟨hfetched, -, -, hceased, -, -, -⟩, -, hsink, hsummary, -, hlast, -⟩ := hrun
  obtain ⟨recorder, received, stop, stopRequested, rest, journal⟩ := intake
  subst hsummary
  intro run processed
  have hwritten : processed.recorder.sink.written = "" := by decide +kernel
  have hpending : processed.recorder.sink.pending ≠ "" := by decide +kernel
  have hflush : (Sink.flush processed.recorder.sink).1 =
      .opened processed.recorder.sink.pending := by
    show RecordFile.opened (processed.recorder.sink.written ++ _) = _
    rw [hwritten, String.empty_append]
  refine ⟨hwaits, ?_⟩
  cases hfetched with
  | none => exact absurd (hceased fun fetch hfetch => nomatch hfetch) (by decide)
  | more hfetched =>
    cases hfetched with
    | none => exact absurd (hceased fun fetch hfetch => ⟨agent, by cases hfetch; rfl⟩) (by decide)
    | more hfetched =>
      cases hfetched with
      | none => exact ⟨rfl, rfl, rfl, hwritten, hpending, hsink.trans hflush⟩
      | more hfetched => exact nomatch hlast [_] _ _ rfl rfl

end Recorder

end Lineage
