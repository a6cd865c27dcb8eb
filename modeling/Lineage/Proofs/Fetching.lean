import Lineage.Proofs.Consumption
import Lineage.Proofs.Lines

/-!
# Fetching the lines of a stream to its end

Whoever fetches from a feed until it has ended gets a row of results (`Feed.fetchAll`). For a feed
of lines, what can be said of the row does not depend on how the bytes came in. It brings the
messages of the stream and the failures of its reads and nothing else (`Feed.Brings`), before the
end. Where a read fails, the row falls into two parts: before the failure there are the messages of
the lines that are complete by then (`Feed.closedLines`), and behind it those of the open line
(`Feed.openLine`) together with all bytes that are still to come.

The results are read off the arrivals one by one (`Feed.Carries.exists_fetchAll`), and what arrives
while some reads go on is what they complete (`Feed.exists_arrivalsFrom_append`); so the argument is
about the arrivals, and `fetchAll` comes in at the end only.
-/

namespace Lineage.Feed

/-- The failure that a fetch ends with. -/
def Fetched.failure? : Fetched → Option String
  | .failed reason => some reason
  | _ => none

/-- What the fetches bring that are made one behind the other until the feed has ended, or
falls silent. -/
def fetchAll (arrivals : List Arrival) : List Fetched :=
  let fetched := fetch arrivals
  if _h : fetched.result = .ended ∨ fetched.result = .silent then [fetched.result]
  else fetched.result :: fetchAll fetched.rest
termination_by arrivals.length
decreasing_by exact length_fetch_rest_of_ne (mt .inl _h) (mt .inr _h)

/-- Results that are some messages and some failures, each of the two in their order, and
nothing else. -/
structure Brings (results : List Fetched) (messages : List (List UInt8)) (failures : List String) :
    Prop where
  messages : results.filterMap Fetched.message? = messages
  failures : results.filterMap Fetched.failure? = failures
  proper : ∀ result ∈ results, result ≠ .ended ∧ result ≠ .silent

/-- The lines that some bytes complete: what is between their line feeds. -/
def closedLines (bytes : List UInt8) : List (List UInt8) :=
  (bytes.splitOn lineFeed).dropLast

/-- The line that is open behind some bytes: what is behind their last line feed. -/
def openLine (bytes : List UInt8) : List UInt8 :=
  (bytes.splitOn lineFeed).getLast?.getD []

/-! ### Results -/

section Results

variable {arrivals : List Arrival}

/-- When nothing more is to arrive, the feed has ended. -/
theorem fetchAll_nil : fetchAll [] = [.ended] := by
  rw [fetchAll]
  rfl

/-- A message is one result. -/
theorem fetchAll_message (raw : List UInt8) (rest : List Arrival) :
    fetchAll (.message raw :: rest) = .message raw :: fetchAll rest := by
  rw [fetchAll]
  exact dif_neg (by simp [fetch])

/-- So is a failure, and the fetches go on behind it. -/
theorem fetchAll_failed (reason : String) (rest : List Arrival) :
    fetchAll (.failed reason :: rest) = .failed reason :: fetchAll rest := by
  rw [fetchAll]
  exact dif_neg (by simp [fetch])

/-- Behind the end nothing is fetched. -/
theorem fetchAll_ended (rest : List Arrival) : fetchAll (.ended :: rest) = [.ended] := by
  rw [fetchAll]
  rfl

/-- Messages are fetched one by one. -/
theorem fetchAll_messages (raws : List (List UInt8)) :
    fetchAll (raws.map .message) = raws.map .message ++ [.ended] := by
  induction raws with
  | nil => exact fetchAll_nil
  | cons raw raws ih =>
    rw [List.map_cons, fetchAll_message, ih]
    rfl

/-- What arrives is fetched, whatever comes behind it. -/
theorem Carries.exists_fetchAll {messages : List (List UInt8)} {failures : List String}
    (h : Carries arrivals messages failures) :
    ∃ results, Brings results messages failures ∧
      ∀ rest, fetchAll (arrivals ++ rest) = results ++ fetchAll rest := by
  -- Each arrival is one more result, and a fetch takes no more than that.
  induction h with
  | nil => exact ⟨[], ⟨rfl, rfl, fun _ hresult => nomatch hresult⟩, fun _ => rfl⟩
  | message raw h ih =>
    obtain ⟨results, hbrings, hfetched⟩ := ih
    refine ⟨.message raw :: results, ⟨?_, hbrings.failures, ?_⟩, fun rest => ?_⟩
    · exact congrArg (raw :: ·) hbrings.messages
    · exact List.forall_mem_cons.2 ⟨⟨nofun, nofun⟩, hbrings.proper⟩
    · rw [List.cons_append, fetchAll_message, hfetched]
      rfl
  | failed reason h ih =>
    obtain ⟨results, hbrings, hfetched⟩ := ih
    refine ⟨.failed reason :: results, ⟨hbrings.messages, ?_, ?_⟩, fun rest => ?_⟩
    · exact congrArg (reason :: ·) hbrings.failures
    · exact List.forall_mem_cons.2 ⟨⟨nofun, nofun⟩, hbrings.proper⟩
    · rw [List.cons_append, fetchAll_failed, hfetched]
      rfl

end Results

/-! ### Complete lines and the open one -/

/-- The complete lines are those that a line feed has completed. -/
theorem closedLines_eq (bytes : List UInt8) : closedLines bytes = completed [] bytes := by
  have hsplit := splitOn_eq_completed List.not_mem_nil bytes
  rw [List.reverse_nil, List.nil_append] at hsplit
  rw [closedLines, hsplit, List.dropLast_concat]

/-- The open line is what has been put aside. -/
theorem openLine_eq (bytes : List UInt8) : openLine bytes = (pendingAfter [] bytes).reverse := by
  have hsplit := splitOn_eq_completed List.not_mem_nil bytes
  rw [List.reverse_nil, List.nil_append] at hsplit
  rw [openLine, hsplit, List.getLast?_concat]
  rfl

/-! ### Reads -/

section Reads

variable (label : String) {reads : List Read}

/-- What is fetched from reads before their end. -/
theorem exists_fetchAll_ofReads (hreads : ∀ read ∈ reads, read.isProper = true) :
    ∃ results, fetchAll (ofReads label reads).arrivals = results ++ [.ended] ∧
      Brings results (linesOf (bytesOf reads)) (reads.filterMap Read.failure?) := by
  obtain ⟨results, hbrings, hfetched⟩ :=
    (carries_arrivalsFrom hreads List.not_mem_nil).exists_fetchAll
  have hend := hfetched []
  rw [List.append_nil, fetchAll_nil] at hend
  exact ⟨results, hend, hbrings⟩

/-- What is fetched from one read of all the bytes, also if there are none. -/
theorem fetchAll_ofReads_singleton (bytes : List UInt8) :
    fetchAll (ofReads label [.bytes bytes]).arrivals =
      (linesOf bytes).map .message ++ [.ended] := by
  cases bytes with
  -- A read of no bytes is the end of the feed.
  | nil => exact fetchAll_ended []
  | cons b bytes =>
    have hproper : ∀ read ∈ [Read.bytes (b :: bytes)], read.isProper = true :=
      List.forall_mem_singleton.2 rfl
    have hbytes : bytesOf [.bytes (b :: bytes)] = b :: bytes := List.append_nil _
    rw [arrivals_ofReads_of_proper label hproper rfl, hbytes, fetchAll_messages]

/-- What is fetched from reads of which one fails. -/
theorem exists_fetchAll_failed {before after : List Read} {reason : String}
    (hreads : ∀ read ∈ before ++ .failed reason :: after, read.isProper = true) :
    ∃ early late,
      fetchAll (ofReads label (before ++ .failed reason :: after)).arrivals =
        early ++ .failed reason :: late ++ [.ended] ∧
      Brings early (messagesOf (closedLines (bytesOf before))) (before.filterMap Read.failure?) ∧
      Brings late (linesOf (openLine (bytesOf before) ++ bytesOf after))
        (after.filterMap Read.failure?) := by
  rw [List.forall_mem_append, List.forall_mem_cons] at hreads
  obtain ⟨hbefore, -, hafter⟩ := hreads
  -- The reads before the failure leave a line open, and those behind it go on with it.
  obtain ⟨arrived, harrivals, harrived⟩ :=
    exists_arrivalsFrom_append hbefore [] (.failed reason :: after)
  have hpending := notMem_pendingAfter List.not_mem_nil (bytesOf before)
  obtain ⟨early, hearly, hfetched⟩ := harrived.exists_fetchAll
  obtain ⟨late, hlate, hfetched'⟩ := (carries_arrivalsFrom hafter hpending).exists_fetchAll
  refine ⟨early, late, ?_, ?_, ?_⟩
  · have hend := hfetched' []
    rw [List.append_nil, fetchAll_nil] at hend
    -- `early` comes off first, then the failure, then `late` up to the end.
    show fetchAll (arrivalsFrom [] _) = _
    rw [harrivals, hfetched, arrivalsFrom_failed, fetchAll_failed, hend, List.append_assoc]
    rfl
  · rwa [closedLines_eq]
  · rwa [openLine_eq]

/-- **What is fetched does not depend on how the bytes come in.** Fetches from a feed of lines
that are made until the feed has ended bring the messages of all bytes and the failures of the
reads, each in their order, and nothing else. The messages are those that a single read of the
bytes would bring. A failure comes behind the messages of all lines that are complete when the
read fails and before those of all lines that are completed later, and the line that is open at
that point comes whole. -/
theorem fetching_run (hreads : ∀ read ∈ reads, read.isProper = true) :
    (∃ results, fetchAll (ofReads label reads).arrivals = results ++ [.ended] ∧
        Brings results (linesOf (bytesOf reads)) (reads.filterMap Read.failure?)) ∧
      fetchAll (ofReads label [.bytes (bytesOf reads)]).arrivals =
        (linesOf (bytesOf reads)).map .message ++ [.ended] ∧
      ∀ before reason after, reads = before ++ .failed reason :: after →
        ∃ early late,
          fetchAll (ofReads label reads).arrivals = early ++ .failed reason :: late ++ [.ended] ∧
          Brings early (messagesOf (closedLines (bytesOf before)))
            (before.filterMap Read.failure?) ∧
          Brings late (linesOf (openLine (bytesOf before) ++ bytesOf after))
            (after.filterMap Read.failure?) := by
  refine ⟨exists_fetchAll_ofReads label hreads, fetchAll_ofReads_singleton label (bytesOf reads),
    ?_⟩
  -- A failure cuts the reads in two, and the open line before it goes on behind it.
  rintro before reason after rfl
  exact exists_fetchAll_failed label hreads

/-- The carriage return and the line feed of a line come in different reads, a blank line follows,
and a read fails within the last line, which has no line feed. -/
theorem fetching_run_interrupted :
    let reads : List Read :=
      [.bytes [65, 13], .bytes [10, 32, 10, 66], .failed "reset", .bytes [67]]
    (∀ read ∈ reads, read.isProper = true) ∧
      ∃ early late,
        fetchAll (ofReads "lines" reads).arrivals = early ++ .failed "reset" :: late ++ [.ended] ∧
        Brings early [[65]] [] ∧ Brings late [[66, 67]] [] := by
  intro reads
  have hproper : ∀ read ∈ reads, read.isProper = true := by decide
  obtain ⟨-, -, hfailed⟩ := fetching_run "lines" hproper
  -- The failure is the third read.
  obtain ⟨early, late, hfetched, hearly, hlate⟩ :=
    hfailed [.bytes [65, 13], .bytes [10, 32, 10, 66]] "reset" [.bytes [67]] rfl
  exact ⟨hproper, early, late, hfetched, hearly, hlate⟩

end Reads

end Lineage.Feed
