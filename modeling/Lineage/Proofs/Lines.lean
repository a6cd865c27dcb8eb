import Lineage.Feed.Lines
import Mathlib.Data.List.Forall2

/-!
# The lines of a stream

What a stream of bytes has for messages can be said without reading it piece by piece: it is cut at
its line feeds, each piece loses a carriage return at its end, and pieces of ASCII blanks are left
out (`Feed.linesOf`).

* `Feed.carries_arrivalsFrom`: the reads bring just these messages, wherever one read ends and the
  next begins, and also if some of them fail. Nothing else arrives but the failures, in their order.
* `Feed.linesOf_append_cons`: a line feed separates what is before it from what is behind it. So the
  lines of a stream are those of its parts, if it is cut at line feeds.
* Carriage returns before the line feeds leave the messages as they are but for carriage returns at
  their ends (`Feed.linesOf_withReturns`), and blank lines in between leave all as it is
  (`Feed.Spaced.linesOf_eq`).
-/

namespace Lineage.Feed

/-- The messages that some lines make: each loses a carriage return at its end, and blank ones
are left out. -/
def messagesOf (lines : List (List UInt8)) : List (List UInt8) :=
  (lines.map withoutReturn).filter fun line => !line.all isBlankByte

/-- The messages of a stream, which is cut at its line feeds. -/
def linesOf (bytes : List UInt8) : List (List UInt8) :=
  messagesOf (bytes.splitOn lineFeed)

/-! ### What reads bring -/

/-- The bytes that a read brings. -/
def Read.chunk : Read → List UInt8
  | bytes chunk => chunk
  | failed _ => []

/-- Whether a read fails. -/
def Read.failure? : Read → Option String
  | bytes _ => none
  | failed reason => some reason

/-- Whether a read brings bytes or fails, and so tells of no end. -/
def Read.isProper : Read → Bool
  | bytes chunk => !chunk.isEmpty
  | failed _ => true

/-- The bytes that some reads bring. -/
def bytesOf (reads : List Read) : List UInt8 :=
  reads.flatMap Read.chunk

/-- Arrivals that are some messages and some failures of reading, each of the two in their order. -/
inductive Carries : List Arrival → List (List UInt8) → List String → Prop
  | nil : Carries [] [] []
  | message {arrivals : List Arrival} {messages : List (List UInt8)} {failures : List String}
      (raw : List UInt8) (h : Carries arrivals messages failures) :
      Carries (.message raw :: arrivals) (raw :: messages) failures
  | failed {arrivals : List Arrival} {messages : List (List UInt8)} {failures : List String}
      (reason : String) (h : Carries arrivals messages failures) :
      Carries (.failed reason :: arrivals) messages (reason :: failures)

/-- Arrivals may come one behind the other. -/
theorem Carries.append {before later : List Arrival} {messages messages' : List (List UInt8)}
    {failures failures' : List String} (h : Carries before messages failures)
    (h' : Carries later messages' failures') :
    Carries (before ++ later) (messages ++ messages') (failures ++ failures') := by
  induction h with
  | nil => exact h'
  | message raw h ih => exact .message raw ih
  | failed reason h ih => exact .failed reason ih

/-- Messages arrive without a failure. -/
theorem carries_messages (raws : List (List UInt8)) : Carries (raws.map .message) raws [] := by
  induction raws with
  | nil => exact .nil
  | cons raw raws ih => exact .message raw ih

/-- Either nothing but messages arrives, or there is a first failure, with messages before it. -/
theorem Carries.eq_or_exists_failed {arrivals : List Arrival} {messages : List (List UInt8)}
    {failures : List String} (h : Carries arrivals messages failures) :
    (failures = [] ∧ arrivals = messages.map .message) ∨ ∃ first reason rest later others,
      arrivals = first.map .message ++ .failed reason :: rest ∧ messages = first ++ later ∧
        failures = reason :: others ∧ Carries rest later others := by
  induction h with
  | nil => exact .inl ⟨rfl, rfl⟩
  | message raw h ih =>
    rcases ih with ⟨rfl, rfl⟩ | ⟨first, reason, rest, later, others, rfl, rfl, rfl, hrest⟩
    · exact .inl ⟨rfl, rfl⟩
    · -- `raw` comes before the first failure.
      exact .inr ⟨raw :: first, reason, rest, later, others, rfl, rfl, rfl, hrest⟩
  | failed reason h => exact .inr ⟨[], reason, _, _, _, rfl, rfl, rfl, h⟩

/-- Without failures nothing but messages arrives. -/
theorem Carries.eq_map_message {arrivals : List Arrival} {messages : List (List UInt8)}
    (h : Carries arrivals messages []) : arrivals = messages.map .message := by
  rcases h.eq_or_exists_failed with ⟨-, harrivals⟩ | ⟨_, _, _, _, _, -, -, hfailures, -⟩
  · exact harrivals
  · exact nomatch hfailures

section Reading

/-- The open line of a stream holds no line feed. -/
theorem notMem_pendingAfter {pending : List UInt8} (h : lineFeed ∉ pending) (bytes : List UInt8) :
    lineFeed ∉ pendingAfter pending bytes := by
  induction bytes generalizing pending with
  | nil => exact h
  | cons b bytes ih =>
    rw [pendingAfter]
    split
    · exact ih List.not_mem_nil
    next hb => exact ih (List.not_mem_cons_of_ne_of_not_mem (Ne.symm hb) h)

/-- A stream is cut at its line feeds into the lines that it completes and the open one. -/
theorem splitOn_eq_completed {pending : List UInt8} (h : lineFeed ∉ pending) (bytes : List UInt8) :
    (pending.reverse ++ bytes).splitOn lineFeed =
      completed pending bytes ++ [(pendingAfter pending bytes).reverse] := by
  -- The induction is on the bytes, for any open line: each byte goes on the line or ends it.
  induction bytes generalizing pending with
  | nil =>
    rw [List.append_nil, List.splitOn_eq_singleton (mt List.mem_reverse.1 h)]
    rfl
  | cons b bytes ih =>
    rw [completed, pendingAfter]
    split
    next hb =>
      rw [hb, List.splitOn_append_cons_self_of_not_mem (mt List.mem_reverse.1 h), List.cons_append]
      exact congrArg _ (ih List.not_mem_nil)
    next hb =>
      rw [← ih (List.not_mem_cons_of_ne_of_not_mem (Ne.symm hb) h), List.reverse_cons,
        List.append_assoc, List.singleton_append]

/-- A stretch of a stream completes the lines of its first part, and then those of the rest with
what was open. -/
theorem completed_append (pending before later : List UInt8) :
    completed pending (before ++ later) =
      completed pending before ++ completed (pendingAfter pending before) later := by
  induction before generalizing pending with
  | nil => rfl
  | cons b before ih =>
    rw [List.cons_append, completed, completed, pendingAfter]
    split
    · rw [ih, List.cons_append]
    · exact ih (b :: pending)

/-- What is open behind both parts is open behind the second. -/
theorem pendingAfter_append (pending before later : List UInt8) :
    pendingAfter pending (before ++ later) = pendingAfter (pendingAfter pending before) later := by
  induction before generalizing pending with
  | nil => rfl
  | cons b before ih =>
    rw [List.cons_append, pendingAfter, pendingAfter]
    split
    · exact ih []
    · exact ih (b :: pending)

/-- Lines make their messages one by one, so a row of lines may be taken part by part. -/
theorem messagesOf_append (before later : List (List UInt8)) :
    messagesOf (before ++ later) = messagesOf before ++ messagesOf later := by
  rw [messagesOf, List.map_append, List.filter_append]
  rfl

/-- What arrives of some lines are their messages. -/
theorem filterMap_message? (lines : List (List UInt8)) :
    lines.filterMap message? = (messagesOf lines).map .message := by
  induction lines with
  | nil => rfl
  | cons line lines ih =>
    rw [messagesOf] at ih
    rw [List.filterMap_cons, messagesOf, List.map_cons, List.filter_cons, message?]
    -- A blank line is left out on both sides.
    cases hblank : (withoutReturn line).all isBlankByte with
    | true => simpa [hblank] using ih
    | false => simpa [hblank] using ih

/-- So it is for one line, of which there may be no message. -/
theorem toList_message? (line : List UInt8) :
    (message? line).toList = (messagesOf [line]).map .message := by
  rw [← filterMap_message?, List.filterMap_cons, List.filterMap_nil]
  cases message? line <;> rfl

/-- The messages of a stream are those of the lines that it completes and of the open one. -/
theorem linesOf_reverse_append {pending : List UInt8} (h : lineFeed ∉ pending)
    (bytes : List UInt8) :
    linesOf (pending.reverse ++ bytes) =
      messagesOf (completed pending bytes) ++
        messagesOf [(pendingAfter pending bytes).reverse] := by
  rw [linesOf, splitOn_eq_completed h, messagesOf_append]

/-- A read that fails leaves the open line as it is. -/
theorem arrivalsFrom_failed (reason : String) (pending : List UInt8) (reads : List Read) :
    arrivalsFrom pending (.failed reason :: reads) =
      .failed reason :: arrivalsFrom pending reads := by
  cases pending <;> rfl

/-- What arrives while a chunk is read. -/
theorem arrivalsFrom_bytes {chunk : List UInt8} (hchunk : Read.isProper (.bytes chunk) = true)
    (pending : List UInt8) (reads : List Read) :
    arrivalsFrom pending (.bytes chunk :: reads) =
      (messagesOf (completed pending chunk)).map .message ++
        arrivalsFrom (pendingAfter pending chunk) reads := by
  rw [← filterMap_message?]
  cases chunk with
  | nil => exact nomatch hchunk
  | cons b chunk => cases pending <;> rfl

/-- **Reads bring what they complete**, wherever one read ends and the next begins, and their
failures. What they leave of a line is open when the further reads begin. -/
theorem exists_arrivalsFrom_append {before : List Read}
    (hbefore : ∀ read ∈ before, read.isProper = true) (pending : List UInt8) (after : List Read) :
    ∃ early,
      arrivalsFrom pending (before ++ after) =
        early ++ arrivalsFrom (pendingAfter pending (bytesOf before)) after ∧
      Carries early (messagesOf (completed pending (bytesOf before)))
        (before.filterMap Read.failure?) := by
  -- The induction is on the reads. What they leave of a line is carried along.
  induction before generalizing pending with
  | nil => exact ⟨[], rfl, .nil⟩
  | cons read before ih =>
    obtain ⟨hread, hlater⟩ := List.forall_mem_cons.1 hbefore
    cases read with
    -- Nothing of the stream is lost: the open line is carried past the failure.
    | failed reason =>
      obtain ⟨early, harrivals, hearly⟩ := ih hlater pending
      refine ⟨.failed reason :: early, ?_, .failed reason hearly⟩
      rw [List.cons_append, arrivalsFrom_failed, harrivals]
      rfl
    | bytes chunk =>
      obtain ⟨early, harrivals, hearly⟩ := ih hlater (pendingAfter pending chunk)
      have hbytes : bytesOf (.bytes chunk :: before) = chunk ++ bytesOf before := rfl
      have hfirst := carries_messages (messagesOf (completed pending chunk))
      refine ⟨(messagesOf (completed pending chunk)).map .message ++ early, ?_, ?_⟩
      · rw [List.cons_append, arrivalsFrom_bytes hread, harrivals, hbytes, pendingAfter_append,
          List.append_assoc]
      · rw [hbytes, completed_append, messagesOf_append]
        exact hfirst.append hearly

/-- **Reads bring the messages of their stream**, wherever one read ends and the next begins, and
their failures. -/
theorem carries_arrivalsFrom {reads : List Read} (hreads : ∀ read ∈ reads, read.isProper = true)
    {pending : List UInt8} (h : lineFeed ∉ pending) :
    Carries (arrivalsFrom pending reads) (linesOf (pending.reverse ++ bytesOf reads))
      (reads.filterMap Read.failure?) := by
  obtain ⟨early, harrivals, hearly⟩ := exists_arrivalsFrom_append hreads pending []
  -- Behind the last read the line that is open counts as well.
  have hopen := carries_messages (messagesOf [(pendingAfter pending (bytesOf reads)).reverse])
  rw [List.append_nil, arrivalsFrom, toList_message?] at harrivals
  rw [harrivals, linesOf_reverse_append h, ← List.append_nil (reads.filterMap Read.failure?)]
  exact hearly.append hopen

/-- If no read fails, nothing but the messages of the stream arrives. -/
theorem arrivals_ofReads_of_proper (label : String) {reads : List Read}
    (hreads : ∀ read ∈ reads, read.isProper = true)
    (hfailures : reads.filterMap Read.failure? = []) :
    (ofReads label reads).arrivals = (linesOf (bytesOf reads)).map .message := by
  have hcarries := carries_arrivalsFrom hreads List.not_mem_nil
  rw [hfailures] at hcarries
  exact hcarries.eq_map_message

/-- The reads that do not fail bring all the bytes. -/
theorem bytesOf_filter (reads : List Read) :
    bytesOf (reads.filter fun read => read.failure?.isNone) = bytesOf reads := by
  induction reads with
  | nil => rfl
  | cons read reads ih =>
    rw [bytesOf] at ih
    cases read with
    | bytes chunk => exact congrArg (chunk ++ ·) ih
    | failed reason => exact ih

/-- The messages of a stream arrive as well if the reads that fail are left out. -/
theorem arrivals_ofReads_filter (label : String) {reads : List Read}
    (hreads : ∀ read ∈ reads, read.isProper = true) :
    (ofReads label (reads.filter fun read => read.failure?.isNone)).arrivals =
      (linesOf (bytesOf reads)).map .message := by
  have hfailures :
      (reads.filter fun read => read.failure?.isNone).filterMap Read.failure? = [] := by
    -- Of the reads that are left none fails.
    refine List.filterMap_eq_nil_iff.2 fun read hread => ?_
    exact Option.isNone_iff_eq_none.1 (List.mem_filter.1 hread).2
  rw [arrivals_ofReads_of_proper label
    (fun read hread => hreads read (List.mem_of_mem_filter hread)) hfailures, bytesOf_filter]

end Reading

/-! ### Parts of a stream -/

/-- A line feed separates what is before it from what is behind it. -/
theorem linesOf_append_cons (before later : List UInt8) :
    linesOf (before ++ lineFeed :: later) = linesOf before ++ linesOf later := by
  rw [linesOf, List.splitOn_append_cons_self, messagesOf_append]
  rfl

/-- There are no messages in an empty stream. -/
theorem linesOf_nil : linesOf [] = [] := rfl

/-- A stream without line feeds is one line. -/
theorem linesOf_of_notMem {line : List UInt8} (h : lineFeed ∉ line) :
    linesOf line = messagesOf [line] := by
  rw [linesOf, List.splitOn_eq_singleton h]

/-- A stretch of a stream that is one of its lines, between what is before it and what is behind
it. -/
structure IsLine (before line later : List UInt8) : Prop where
  whole : lineFeed ∉ line
  begins : before = [] ∨ before.getLast? = some lineFeed
  ends : later = [] ∨ later.head? = some lineFeed

/-- The messages of a stream are those of one of its lines and those before and behind it. -/
theorem IsLine.linesOf_append {before line later : List UInt8} (h : IsLine before line later) :
    linesOf (before ++ line ++ later) = linesOf before ++ messagesOf [line] ++ linesOf later := by
  -- A line feed before the line and one behind it separate it from the others, if there are any.
  have hfront : linesOf (before ++ line) = linesOf before ++ messagesOf [line] := by
    rcases h.begins with rfl | hbegins
    · exact linesOf_of_notMem h.whole
    · rw [← List.dropLast_append_getLast? _ hbegins, List.append_assoc, List.singleton_append,
        linesOf_append_cons, linesOf_append_cons, linesOf_of_notMem h.whole, linesOf_nil,
        List.append_nil]
  cases later with
  | nil => rw [List.append_nil, hfront, linesOf_nil, List.append_nil]
  | cons b later =>
    obtain rfl : b = lineFeed := Option.some.inj (h.ends.resolve_left (List.cons_ne_nil b later))
    rw [linesOf_append_cons, hfront, ← List.nil_append (lineFeed :: later), linesOf_append_cons,
      linesOf_nil, List.nil_append]

/-- What holds of an open line, and of a line before a stream of which it holds, holds of all
streams. -/
theorem induction_on_lines {motive : List UInt8 → Prop}
    (single : ∀ line, lineFeed ∉ line → motive line)
    (line : ∀ line rest, lineFeed ∉ line → motive rest → motive (line ++ lineFeed :: rest))
    (bytes : List UInt8) : motive bytes := by
  induction hlength : bytes.length using Nat.strongRecOn generalizing bytes with
  | _ n ih =>
    by_cases hmem : lineFeed ∈ bytes
    · -- What is behind the first line feed is shorter.
      obtain ⟨first, rest, rfl, hfirst⟩ := List.eq_append_cons_of_mem hmem
      refine line first rest hfirst (ih rest.length ?_ rest rfl)
      rw [← hlength, List.length_append, List.length_cons]
      omega
    · exact single bytes hmem

/-! ### Blank lines -/

/-- A carriage return is blank. -/
theorem isBlankByte_carriageReturn : isBlankByte carriageReturn = true := rfl

/-- A line is what it is without a carriage return at its end, or that and one. -/
theorem withoutReturn_eq_or (line : List UInt8) :
    line = withoutReturn line ∨ line = withoutReturn line ++ [carriageReturn] := by
  unfold withoutReturn
  split
  next hlast => exact .inr (List.dropLast_append_getLast? _ hlast).symm
  next => exact .inl rfl

/-- A carriage return that is put behind a line is lost again. -/
theorem withoutReturn_append_return (line : List UInt8) :
    withoutReturn (line ++ [carriageReturn]) = line := by
  rw [withoutReturn, List.getLast?_concat, if_pos rfl, List.dropLast_concat]

/-- A line is blank or not whatever there is of carriage returns at its end. -/
theorem all_isBlankByte_withoutReturn (line : List UInt8) :
    (withoutReturn line).all isBlankByte = line.all isBlankByte := by
  rcases withoutReturn_eq_or line with h | h
  · rw [← h]
  · conv_rhs => rw [h, List.all_append]
    rw [List.all_cons, isBlankByte_carriageReturn]
    simp

/-- A line is a message unless it is blank. -/
theorem messagesOf_singleton (line : List UInt8) :
    messagesOf [line] = if line.all isBlankByte then [] else [withoutReturn line] := by
  rw [messagesOf, List.map_singleton, List.filter_cons, all_isBlankByte_withoutReturn]
  cases line.all isBlankByte <;> rfl

/-- There are no messages in blanks. -/
theorem linesOf_of_isBlankByte {bytes : List UInt8} (h : bytes.all isBlankByte = true) :
    linesOf bytes = [] := by
  induction bytes using induction_on_lines with
  | single line hline => rw [linesOf_of_notMem hline, messagesOf_singleton, if_pos h]
  -- The first line is blank and makes no message, and `ih` has the rest.
  | line line rest hline ih =>
    rw [List.all_append, List.all_cons, Bool.and_eq_true, Bool.and_eq_true] at h
    rw [linesOf_append_cons, linesOf_of_notMem hline, messagesOf_singleton, if_pos h.1, ih h.2.2,
      List.append_nil]

/-- A stream with blank lines put in before some of its lines. -/
inductive Spaced : List UInt8 → List UInt8 → Prop
  | same (bytes : List UInt8) : Spaced bytes bytes
  /-- The next line stays. -/
  | line {bytes spaced : List UInt8} (line : List UInt8) (h : Spaced bytes spaced) :
      Spaced (line ++ lineFeed :: bytes) (line ++ lineFeed :: spaced)
  /-- A blank line is put in before the next one. -/
  | blank {bytes spaced : List UInt8} (blanks : List UInt8)
      (hblanks : blanks.all isBlankByte = true) (h : Spaced bytes spaced) :
      Spaced bytes (blanks ++ lineFeed :: spaced)

/-- Blank lines make no difference. -/
theorem Spaced.linesOf_eq {bytes spaced : List UInt8} (h : Spaced bytes spaced) :
    linesOf spaced = linesOf bytes := by
  induction h with
  | same bytes => rfl
  | line line h ih => rw [linesOf_append_cons, linesOf_append_cons, ih]
  | blank blanks hblanks h ih =>
    rw [linesOf_append_cons, linesOf_of_isBlankByte hblanks, ih, List.nil_append]

/-! ### Ends of lines -/

/-- A stream with a carriage return before each line feed. -/
def withReturns (bytes : List UInt8) : List UInt8 :=
  bytes.flatMap fun b => if b = lineFeed then [carriageReturn, lineFeed] else [b]

/-- Where no line ends there is nothing to put in. -/
theorem withReturns_of_notMem {line : List UInt8} (h : lineFeed ∉ line) :
    withReturns line = line := by
  induction line with
  | nil => rfl
  | cons b line ih =>
    rw [List.mem_cons, not_or] at h
    rw [withReturns, List.flatMap_cons, if_neg (Ne.symm h.1), List.singleton_append]
    exact congrArg _ (ih h.2)

/-- A line that ends gets a carriage return at its end. -/
theorem withReturns_append_cons {line : List UInt8} (h : lineFeed ∉ line) (rest : List UInt8) :
    withReturns (line ++ lineFeed :: rest) =
      (line ++ [carriageReturn]) ++ lineFeed :: withReturns rest := by
  have hline := withReturns_of_notMem h
  rw [withReturns] at hline ⊢
  rw [List.flatMap_append, hline, List.flatMap_cons, if_pos rfl]
  simp [withReturns]

/-- Two messages that are the same but for a carriage return at the end of the second. -/
def SameButReturn (message message' : List UInt8) : Prop :=
  message' = message ∨ message' = message ++ [carriageReturn]

/-- A carriage return at the end of a line shows at most in a carriage return at the end
of its message. -/
theorem forall₂_messagesOf_return (line : List UInt8) :
    List.Forall₂ SameButReturn (messagesOf [line]) (messagesOf [line ++ [carriageReturn]]) := by
  rw [messagesOf_singleton, messagesOf_singleton, withoutReturn_append_return, List.all_append,
    List.all_cons, isBlankByte_carriageReturn, List.all_nil, Bool.and_self, Bool.and_true]
  -- Either line is blank if the other is.
  split
  · exact .nil
  · exact .cons (withoutReturn_eq_or line) .nil

/-- Carriage returns before the line feeds change messages at most by a carriage return at the
end. -/
theorem linesOf_withReturns (bytes : List UInt8) :
    List.Forall₂ SameButReturn (linesOf bytes) (linesOf (withReturns bytes)) := by
  -- Line by line: only a line that a line feed ends gets a carriage return.
  induction bytes using induction_on_lines with
  | single line hline =>
    rw [withReturns_of_notMem hline]
    exact List.forall₂_same.2 fun message _ => .inl rfl
  | line line rest hline ih =>
    have hreturn : lineFeed ∉ line ++ [carriageReturn] := by
      rw [List.mem_append, List.mem_singleton]
      exact not_or.2 ⟨hline, by decide⟩
    rw [withReturns_append_cons hline, linesOf_append_cons, linesOf_append_cons,
      linesOf_of_notMem hline, linesOf_of_notMem hreturn]
    exact List.rel_append (forall₂_messagesOf_return line) ih

end Lineage.Feed
