import Lineage.Proofs.Consumption
import Lineage.Proofs.Lines
import Lineage.Proofs.Refusal

/-!
# Consuming a stream of bytes

A recorder that consumes a stream does what it does when it is called with the lines of the stream,
one after the other (`Recorder.consumeStream_eq`). So it does not show where the chunks of the
stream end, and two streams make no difference if their lines make none.

Carriage returns at the ends of lines make none. The reader takes away only one of them, but what
decodes the text of a line takes away all blanks around it, and a carriage return never completes a
character of several bytes (`Message.decodeBytes_append_return`).

A line that is not UTF-8 is refused. What a refusal leaves is counted in two counters that nothing
reads, so it comes to the same if the refusal is counted later (`Recorder.run_countRefusal`): the
lines behind it are processed as they would be without it.
-/

namespace Lineage

open Lineage.Graph Session Telemetry

/-! ### Carriage returns behind a message -/

/-- A blank behind a text is trimmed away with the others. -/
theorem Text.trim_append_blank {c : Char} (h : Text.isBlank c = true) (text : List Char) :
    Text.trim (text ++ [c]) = Text.trim text := by
  simp only [Text.trim, Text.trimStart, Text.trimEnd, List.dropWhile_append]
  -- Nothing is left of the text at its start, or the blank comes behind what is left.
  split
  next hblank =>
    rw [List.isEmpty_iff] at hblank
    simp [hblank, h]
  next => simp [h]

namespace Text.Utf8

/-- A carriage return at the end of a text is a character of its own. -/
theorem exists_encode_of_append_return {raw : List UInt8} {text : String}
    (h : raw ++ [Feed.carriageReturn] = encode text) :
    ∃ front, text = front ++ "\r" ∧ raw = encode front := by
  rcases List.eq_nil_or_concat text.toList with hnil | ⟨chars, char, hchars⟩
  · rw [encode, hnil] at h
    -- An empty text has no bytes.
    exact absurd h (by simp)
  · rw [List.concat_eq_append] at hchars
    rw [encode, hchars, List.flatMap_append, List.flatMap_singleton] at h
    have hspells := spells_utf8EncodeChar char
    rcases List.eq_nil_or_concat (String.utf8EncodeChar char) with hnil | ⟨front, b, hchar⟩
    · exact absurd hnil (utf8EncodeChar_ne_nil char)
    · -- The last byte of the text is the last one of its last character.
      rw [hchar, List.concat_eq_append] at hspells h
      rw [← List.append_assoc] at h
      obtain ⟨hraw, hlast⟩ := List.append_inj' h rfl
      obtain rfl : Feed.carriageReturn = b := List.head_eq_of_cons_eq hlast
      obtain ⟨hsingle, hcode⟩ :=
        hspells.eq_singleton_of_mem (List.mem_append_right _ List.mem_cons_self) (by decide)
      obtain rfl : front = [] := List.append_left_eq_self.1 hsingle
      obtain rfl : char = '\r' := Char.toNat_inj.1 hcode
      refine ⟨String.ofList chars, ?_, ?_⟩
      · rw [← String.toList_inj, hchars, String.toList_append, String.toList_ofList]
        rfl
      · rw [hraw, List.append_nil, encode, String.toList_ofList]

/-- Blanks of ASCII are a text. -/
theorem exists_encode_of_isBlankByte {bytes : List UInt8} (h : bytes.all Feed.isBlankByte = true) :
    ∃ text, bytes = encode text := by
  induction bytes with
  | nil => exact ⟨"", rfl⟩
  | cons b bytes ih =>
    rw [List.all_cons, Bool.and_eq_true] at h
    obtain ⟨text, rfl⟩ := ih h.2
    have hb := h.1
    simp only [Feed.isBlankByte, Bool.or_eq_true, beq_iff_eq, or_assoc] at hb
    -- The five blanks of ASCII.
    rcases hb with rfl | rfl | rfl | rfl | rfl
    · exact ⟨" " ++ text, (encode_append " " text).symm⟩
    · exact ⟨"\t" ++ text, (encode_append "\t" text).symm⟩
    · exact ⟨"\n" ++ text, (encode_append "\n" text).symm⟩
    · exact ⟨"\x0c" ++ text, (encode_append "\x0c" text).symm⟩
    · exact ⟨"\r" ++ text, (encode_append "\r" text).symm⟩

end Text.Utf8

/-- A carriage return behind a text is trimmed away. -/
theorem Telemetry.Message.decode_append_return (text : String) :
    decode (text ++ "\r") = decode text := by
  have htrim : Text.trim (text ++ "\r").toList = Text.trim text.toList := by
    rw [String.toList_append]
    exact Text.trim_append_blank (by decide) text.toList
  rw [decode, htrim, decode]

/-- A carriage return behind a message makes no difference, unless both are refused for bytes that
are not UTF-8. -/
theorem Telemetry.Message.decodeBytes_append_return (raw : List UInt8) :
    decodeBytes (raw ++ [Feed.carriageReturn]) = decodeBytes raw ∨
      ∃ fault fault', decodeBytes raw = .error (.malformed (.notUtf8 fault)) ∧
        decodeBytes (raw ++ [Feed.carriageReturn]) = .error (.malformed (.notUtf8 fault')) := by
  cases hraw : Text.Utf8.decode raw with
  | ok text =>
    have hreturn : Text.Utf8.decode (raw ++ [Feed.carriageReturn]) = .ok (text ++ "\r") := by
      rw [Text.Utf8.decode_eq_ok_iff] at hraw ⊢
      rw [hraw, Text.Utf8.encode_append]
      rfl
    left
    rw [decodeBytes, hreturn, decodeBytes, hraw]
    exact decode_append_return text
  | error fault =>
    right
    cases hreturn : Text.Utf8.decode (raw ++ [Feed.carriageReturn]) with
    | error fault' => exact ⟨fault, fault', by rw [decodeBytes, hraw], by rw [decodeBytes, hreturn]⟩
    | ok text =>
      -- A text that ends in a carriage return is a text without it.
      obtain ⟨front, -, hfront⟩ :=
        Text.Utf8.exists_encode_of_append_return (Text.Utf8.decode_eq_ok_iff.1 hreturn)
      rw [Text.Utf8.decode_eq_ok_iff.2 hfront] at hraw
      cases hraw

namespace Recorder

variable {σ : Type} [Sink σ]

/-- What a recorder makes of bytes does not depend on a carriage return behind them. -/
theorem perform_append_return (recorder : Recorder σ) (raw : List UInt8) :
    (recorder.perform (.processBytes (raw ++ [Feed.carriageReturn]))).recorder =
      (recorder.perform (.processBytes raw)).recorder := by
  rcases Message.decodeBytes_append_return raw with hsame | ⟨fault, fault', hraw, hreturn⟩
  · rw [← recorder_processIn [], ← recorder_processIn [], hsame]
  · have hinput : Call.input (.processBytes raw) = .error (.malformed (.notUtf8 fault)) := hraw
    have hinput' : Call.input (.processBytes (raw ++ [Feed.carriageReturn])) =
        .error (.malformed (.notUtf8 fault')) := hreturn
    -- The two faults may differ, but they are counted as errors of one kind.
    rw [perform_error recorder hinput, perform_error recorder hinput']
    rfl

/-- Nor does what it makes of several messages. -/
theorem run_of_sameButReturn {raws raws' : List (List UInt8)}
    (h : List.Forall₂ Feed.SameButReturn raws raws') (recorder : Recorder σ) :
    (recorder.run (raws'.map .processBytes)).recorder =
      (recorder.run (raws.map .processBytes)).recorder := by
  induction h generalizing recorder with
  | nil => rfl
  | @cons raw raw' raws raws' hfirst hrest ih =>
    have hperform : (recorder.perform (.processBytes raw')).recorder =
        (recorder.perform (.processBytes raw)).recorder := by
      -- Either the message is the same, or a carriage return is behind it.
      rcases hfirst with rfl | rfl
      · rfl
      · exact recorder.perform_append_return raw
    rw [List.map_cons, List.map_cons, run, run, hperform]
    exact ih _

end Recorder

/-! ### Lines that are not UTF-8 -/

/-- A line that is not UTF-8 makes a message that is refused for that. -/
theorem Feed.messagesOf_of_not_isValidUTF8 {line : List UInt8}
    (h : ¬ line.toByteArray.IsValidUTF8) :
    ∃ raw fault, messagesOf [line] = [raw] ∧
      Message.decodeBytes raw = .error (.malformed (.notUtf8 fault)) := by
  simp only [Text.Utf8.isValidUTF8_iff, Text.Utf8.decode_eq_ok_iff] at h
  have hblank : ¬ line.all isBlankByte = true :=
    fun hblank => h (Text.Utf8.exists_encode_of_isBlankByte hblank)
  cases hraw : Text.Utf8.decode (withoutReturn line) with
  | error fault =>
    refine ⟨withoutReturn line, fault, ?_, ?_⟩
    · rw [messagesOf_singleton, if_neg hblank]
    · rw [Message.decodeBytes, hraw]
  | ok text =>
    -- With the carriage return, if one was taken away, it would be a text as well.
    rw [Text.Utf8.decode_eq_ok_iff] at hraw
    refine absurd ?_ h
    rcases withoutReturn_eq_or line with hline | hline
    · exact ⟨text, hline.trans hraw⟩
    · refine ⟨text ++ "\r", hline.trans ?_⟩
      rw [hraw, Text.Utf8.encode_append]
      rfl

/-! ### When a refusal is counted -/

namespace Session

/-- Whether a refusal was counted makes no difference to what is submitted. -/
theorem submissions_receive_drop (session : Session) (error : MessageError)
    (input : Except MessageError Message) :
    ((session.drop error).receive input).submissions = (session.receive input).submissions := by
  show ((session.withStats (session.drop error).stats).receive input).submissions = _
  rw [receive_withStats]
  rfl

/-- It comes to the same whether a refusal is counted before an input is taken in or behind it. -/
theorem session_receive_drop (session : Session) (error : MessageError)
    (input : Except MessageError Message) :
    ((session.drop error).receive input).session = (session.receive input).session.drop error := by
  -- Two refusals are counted under their kinds, in either order.
  have hstats : ((session.drop error).receive input).session.stats =
      (session.receive input).session.stats.countMessage.countDrop error.kind := by
    cases input with
    | error error' =>
      have hdropped := Catalog.increment_comm session.stats.dropped error.kind error'.kind
      simp only [receive, drop, Stats.countMessage, Stats.countDrop, hdropped]
    | ok message =>
      rw [stats_receive, stats_receive]
      rfl
  show ((session.withStats (session.drop error).stats).receive input).session = _
  rw [receive_withStats]
  exact congrArg (session.receive input).session.withStats hstats

end Session

namespace Recorder

variable {σ : Type} [Sink σ]

/-- A refusal may be counted behind a call as well as before it. -/
theorem perform_countRefusal (recorder : Recorder σ) (error : MessageError) (call : Call) :
    ((recorder.countRefusal error).perform call).recorder =
      (recorder.perform call).recorder.countRefusal error := by
  have hsession : ((recorder.countRefusal error).perform call).recorder.session =
      (recorder.perform call).recorder.session.drop error := by
    rw [session_perform, session_perform]
    exact recorder.session.session_receive_drop error call.input
  -- The sink is given what is submitted, and a refusal submits nothing.
  have hsink : ((recorder.countRefusal error).perform call).recorder.sink =
      (recorder.perform call).recorder.sink := by
    rw [sink_perform, sink_perform]
    exact congrArg (fun elements => (Sink.submitAll recorder.sink elements).1)
      (recorder.session.submissions_receive_drop error call.input)
  exact congrArg₂ Recorder.mk hsession hsink

/-- And behind a run of calls. -/
theorem run_countRefusal (recorder : Recorder σ) (error : MessageError) (calls : List Call) :
    ((recorder.countRefusal error).run calls).recorder =
      (recorder.run calls).recorder.countRefusal error := by
  induction calls generalizing recorder with
  | nil => rfl
  | cons call calls ih =>
    rw [run, run, perform_countRefusal]
    exact ih (recorder.perform call).recorder

end Recorder

/-! ### Streams -/

namespace Feed

/-- A stream of bytes, in the chunks in which they are read. -/
structure Stream where
  chunks : List (List UInt8)
  /-- Only at its end there is nothing to read. -/
  proper : ∀ chunk ∈ chunks, chunk ≠ []

namespace Stream

/-- All bytes of a stream. -/
def bytes (stream : Stream) : List UInt8 :=
  stream.chunks.flatten

/-- The lines of a stream as a feed. -/
def feed (stream : Stream) (label : String) : Feed :=
  ofReads label (stream.chunks.map .bytes)

/-- **What arrives are the lines of the bytes**, wherever a chunk ends. -/
theorem arrivals_feed (stream : Stream) (label : String) :
    (stream.feed label).arrivals = (linesOf stream.bytes).map .message := by
  have hproper : ∀ read ∈ stream.chunks.map Read.bytes, read.isProper = true := by
    intro read hread
    obtain ⟨chunk, hchunk, rfl⟩ := List.mem_map.1 hread
    simpa [Read.isProper] using stream.proper chunk hchunk
  have hbytes : bytesOf (stream.chunks.map .bytes) = stream.bytes := by
    rw [bytesOf, List.flatMap_map]
    exact List.flatMap_id'
  have hfailures : (stream.chunks.map Read.bytes).filterMap Read.failure? = [] := by
    simp [List.filterMap_map, Function.comp_def, Read.failure?]
  rw [feed, arrivals_ofReads_of_proper label hproper hfailures, hbytes]

end Stream

end Feed

namespace Recorder

variable {σ : Type} [Sink σ]

/-- Consumes a stream when no stop is requested: the summary and the recorder afterwards. -/
def consumeStream (recorder : Recorder σ) (label : String) (stream : Feed.Stream) :
    Summary × Recorder σ :=
  let (summary, intake) := recorder.consume false (stream.feed label)
  (summary, intake.recorder)

/-- A recorder after it has been called with the lines of some bytes, one after the other. -/
def processLines (recorder : Recorder σ) (bytes : List UInt8) : Recorder σ :=
  (recorder.run ((Feed.linesOf bytes).map .processBytes)).recorder

/-- **Consuming a stream is processing its lines**, counting them, and flushing the sink. -/
theorem consumeStream_eq (recorder : Recorder σ) (label : String) (stream : Feed.Stream) :
    recorder.consumeStream label stream =
      (⟨label, (Feed.linesOf stream.bytes).length, .endOfInput,
        (recorder.processLines stream.bytes).session.stats⟩,
        (recorder.processLines stream.bytes).flush.1) := by
  have hended : (Feed.fetch []).result.message? = none := rfl
  have hrun := recorder.consume_messages_append label (Feed.linesOf stream.bytes) hended
  have hfeed : stream.feed label = ⟨label, (Feed.linesOf stream.bytes).map .message ++ []⟩ := by
    rw [List.append_nil, ← stream.arrivals_feed label]
    rfl
  rw [← hfeed] at hrun
  obtain ⟨hsummary, hrecorder, -⟩ := hrun
  exact Prod.ext hsummary hrecorder

/-- Where a line that is not UTF-8 is put in, one more refusal is counted. -/
theorem processLines_of_not_isValidUTF8 (recorder : Recorder σ) {before line later : List UInt8}
    (hline : Feed.IsLine before line later) (hutf8 : ¬ line.toByteArray.IsValidUTF8) :
    (Feed.linesOf (before ++ line ++ later)).length = (Feed.linesOf (before ++ later)).length + 1 ∧
      ∃ fault, recorder.processLines (before ++ line ++ later) =
        (recorder.processLines (before ++ later)).countRefusal (.malformed (.notUtf8 fault)) := by
  obtain ⟨raw, fault, hmessages, hraw⟩ := Feed.messagesOf_of_not_isValidUTF8 hutf8
  have hinput : Call.input (.processBytes raw) = .error (.malformed (.notUtf8 fault)) := hraw
  -- Without its bytes the line is still there, but it makes no message.
  have hempty : Feed.IsLine before [] later := ⟨List.not_mem_nil, hline.begins, hline.ends⟩
  have hkept : Feed.linesOf (before ++ later) = Feed.linesOf before ++ Feed.linesOf later := by
    have hlines := hempty.linesOf_append
    rwa [List.append_nil, Feed.messagesOf_singleton, List.all_nil, if_pos rfl, List.append_nil]
      at hlines
  rw [processLines, processLines, hline.linesOf_append, hmessages, hkept]
  constructor
  · rw [List.length_append, List.length_append, List.length_append, List.length_singleton]
    omega
  · refine ⟨fault, ?_⟩
    -- What is counted in the midst of the calls may as well be counted behind them.
    calc (recorder.run
          ((Feed.linesOf before ++ [raw] ++ Feed.linesOf later).map .processBytes)).recorder
        = (((recorder.run ((Feed.linesOf before).map .processBytes)).recorder.perform
            (.processBytes raw)).recorder.run
              ((Feed.linesOf later).map .processBytes)).recorder := by
          rw [List.map_append, List.map_append, recorder_run_append, recorder_run_append]
          rfl
      _ = (((recorder.run ((Feed.linesOf before).map .processBytes)).recorder.countRefusal
            (.malformed (.notUtf8 fault))).run
              ((Feed.linesOf later).map .processBytes)).recorder := by
          rw [perform_error _ hinput]
      _ = ((recorder.run ((Feed.linesOf before).map .processBytes)).recorder.run
            ((Feed.linesOf later).map .processBytes)).recorder.countRefusal
              (.malformed (.notUtf8 fault)) :=
          run_countRefusal _ _ _
      _ = (recorder.run
            ((Feed.linesOf before ++ Feed.linesOf later).map .processBytes)).recorder.countRefusal
              (.malformed (.notUtf8 fault)) := by
          rw [List.map_append, recorder_run_append]

/-- **Consuming a stream is processing its lines.** Wherever the stream is cut into chunks, a
recorder that consumes it stops at the end of the input and ends as if it had been called with the
pieces between the line feeds, in their order, each without a carriage return at its end and those
that are blank left out; then the sink is flushed. The number of these calls is what the summary
says was received.

So with carriage returns before all line feeds, or with blank lines put in, the same comes of
the stream, for every sink that it may be recorded in. A line that is not UTF-8 counts as
received and as one malformed message, and makes no other difference to a stream in which the
line is left empty. -/
theorem streaming_run (recorder : Recorder σ) (label : String) :
    (∀ stream : Feed.Stream, recorder.consumeStream label stream =
      (⟨label, (Feed.linesOf stream.bytes).length, .endOfInput,
        (recorder.processLines stream.bytes).session.stats⟩,
        (recorder.processLines stream.bytes).flush.1)) ∧
      (∀ stream stream' : Feed.Stream, stream'.bytes = Feed.withReturns stream.bytes →
        recorder.consumeStream label stream' = recorder.consumeStream label stream) ∧
      (∀ stream stream' : Feed.Stream, Feed.Spaced stream.bytes stream'.bytes →
        recorder.consumeStream label stream' = recorder.consumeStream label stream) ∧
      ∀ (stream stream' : Feed.Stream) (before line later : List UInt8),
        Feed.IsLine before line later → ¬ line.toByteArray.IsValidUTF8 →
        stream.bytes = before ++ later → stream'.bytes = before ++ line ++ later →
          ∃ fault,
            let (summary, kept) := recorder.consumeStream label stream
            let counted := kept.countRefusal (.malformed (.notUtf8 fault))
            recorder.consumeStream label stream' =
              ({ summary with received := summary.received + 1, stats := counted.session.stats },
                counted) := by
  refine ⟨recorder.consumeStream_eq label, ?_, ?_, ?_⟩
  · intro stream stream' hbytes
    -- The messages differ by carriage returns at most, and there are as many.
    have hlines := Feed.linesOf_withReturns stream.bytes
    have hrun : recorder.processLines stream'.bytes = recorder.processLines stream.bytes := by
      rw [hbytes]
      exact run_of_sameButReturn hlines recorder
    rw [consumeStream_eq, consumeStream_eq, hrun, hbytes, hlines.length_eq]
  · intro stream stream' hspaced
    rw [consumeStream_eq, consumeStream_eq, processLines, hspaced.linesOf_eq]
    rfl
  · intro stream stream' before line later hline hutf8 hbytes hbytes'
    obtain ⟨hlength, fault, hrun⟩ := recorder.processLines_of_not_isValidUTF8 hline hutf8
    refine ⟨fault, ?_⟩
    rw [consumeStream_eq, consumeStream_eq, hbytes, hbytes', hrun, hlength]
    rfl

/-- Two lines, with other ends, with an empty line in between, and with one there that is not
UTF-8. -/
theorem streaming_run_lines :
    let plain : Feed.Stream := ⟨[[65, 10], [66]], by decide⟩
    let returns : Feed.Stream := ⟨[[65, 13], [10, 66]], by decide⟩
    let spaced : Feed.Stream := ⟨[[65, 10, 10], [66]], by decide⟩
    let broken : Feed.Stream := ⟨[[65, 10, 0xFF], [10, 66]], by decide⟩
    let consumed := (start .full Document.empty).consumeStream "lines"
    (consumed plain).1.received = 2 ∧ consumed returns = consumed plain ∧
      consumed spaced = consumed plain ∧
      (consumed broken).1.received = (consumed spaced).1.received + 1 := by
  intro plain returns spaced broken consumed
  obtain ⟨hlines, hreturns, hspaced, hbroken⟩ := streaming_run (start .full Document.empty) "lines"
  refine ⟨?_, hreturns plain returns (by decide), hspaced plain spaced ?_, ?_⟩
  · rw [show consumed plain = _ from hlines plain]
    decide
  · -- The first line stays, and the blank one is before the second.
    exact .line [65] (.blank [] rfl (.same [66]))
  · have hutf8 : ¬ [0xFF].toByteArray.IsValidUTF8 := by
      rw [Text.Utf8.isValidUTF8_iff]
      rintro ⟨text, htext⟩
      exact nomatch htext
    obtain ⟨fault, heq⟩ := hbroken spaced broken [65, 10] [0xFF] [10, 66]
      ⟨by decide, .inr rfl, .inr rfl⟩ hutf8 (by decide) (by decide)
    exact congrArg (fun run => run.1.received) heq

end Recorder

end Lineage
