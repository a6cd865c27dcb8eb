import Lineage.Proofs.Acceptance
import Lineage.Proofs.Fetching
import Lineage.Proofs.Streams
import Lineage.Proofs.Wire

/-!
# What is sent arrives

A device reports that it is there, that an activity is, or the state of a register cell
(`Telemetry.Report`). The report is written as a line, and from the line the same report is decoded,
whatever the texts of the cell are: they are quoted in the payload, which is the last field and may
hold bars. The other fields stand as they are, so they must not hold bars, and the type, with which
a line may end, must not end with a blank (`Telemetry.Report.IsProper`).

The line of a proper report starts and ends with a character that is no blank
(`Telemetry.Report.isTrimmed_line`), so neither trimming nor the removal of carriage returns changes
it, and if its fields hold no line end then neither does the line. So lines that are sent one behind
the other are fetched as they were sent (`Telemetry.Report.transmission`).
-/

namespace Lineage

open Lineage.Text

namespace Feed

open Text.Utf8

/-- A blank of ASCII is below `0x80`. -/
theorem toNat_lt_of_isBlankByte {b : UInt8} (h : isBlankByte b = true) : b.toNat < 0x80 := by
  simp only [isBlankByte, Bool.or_eq_true, beq_iff_eq, or_assoc] at h
  rcases h with rfl | rfl | rfl | rfl | rfl <;> decide

/-- A blank of ASCII stands for a blank. -/
theorem isBlank_of_isBlankByte {b : UInt8} (h : isBlankByte b = true) {c : Char}
    (hcode : c.toNat = b.toNat) : isBlank c = true := by
  simp only [isBlankByte, Bool.or_eq_true, beq_iff_eq, or_assoc] at h
  rw [isBlank, hcode]
  rcases h with rfl | rfl | rfl | rfl | rfl <;> decide

/-- A text without blanks at its ends makes a message of its bytes, unless it is empty. -/
theorem messagesOf_encode {text : String} (htrimmed : IsTrimmed text) (hne : text ≠ "") :
    messagesOf [encode text] = [encode text] := by
  have hblank : ¬ (encode text).all isBlankByte = true := by
    intro hall
    cases htoList : text.toList with
    | nil => exact hne (String.toList_eq_nil_iff.1 htoList)
    | cons c rest =>
      -- Its first character would be a blank of ASCII.
      obtain ⟨b, more, hbytes⟩ := List.exists_cons_of_ne_nil (utf8EncodeChar_ne_nil c)
      rw [encode, htoList, List.flatMap_cons, hbytes, List.cons_append, List.all_cons,
        Bool.and_eq_true] at hall
      have hspells := spells_utf8EncodeChar c
      rw [hbytes] at hspells
      have hcode :=
        (hspells.eq_singleton_of_mem List.mem_cons_self (toNat_lt_of_isBlankByte hall.1)).2
      have hfirst : isBlank c = false := htrimmed.first c (by rw [htoList]; rfl)
      exact Bool.false_ne_true (hfirst.symm.trans (isBlank_of_isBlankByte hall.1 hcode))
  -- A carriage return at its end would be a blank there.
  have hreturn : withoutReturn (encode text) = encode text := by
    rcases withoutReturn_eq_or (encode text) with hsame | hreturn
    · exact hsame.symm
    · obtain ⟨front, rfl, -⟩ := exists_encode_of_append_return hreturn.symm
      have hlast : isBlank '\r' = false := htrimmed.last '\r' (by simp)
      exact absurd hlast (by decide)
  rw [messagesOf_singleton, if_neg hblank, hreturn]

/-- A line feed among the bytes would be one among the characters. -/
theorem lineFeed_notMem_encode {text : String} (h : '\n' ∉ text.toList) :
    lineFeed ∉ encode text := by
  intro hmem
  obtain ⟨c, hc, hcode⟩ := exists_of_mem_encode hmem (by decide)
  obtain rfl : c = '\n' := Char.toNat_inj.1 hcode
  exact h hc

/-- **Texts that are sent line by line** are the lines of the stream. -/
theorem linesOf_encode_intercalate {texts : List String}
    (h : ∀ text ∈ texts, IsTrimmed text ∧ text ≠ "" ∧ '\n' ∉ text.toList) :
    linesOf (encode ("\n".intercalate texts)) = texts.map encode := by
  induction texts with
  | nil => rfl
  | cons text texts ih =>
    obtain ⟨⟨htrimmed, hne, hline⟩, hothers⟩ := List.forall_mem_cons.1 h
    have hfirst : linesOf (encode text) = [encode text] := by
      rw [linesOf_of_notMem (lineFeed_notMem_encode hline), messagesOf_encode htrimmed hne]
    cases texts with
    | nil =>
      rw [String.intercalate_singleton, hfirst]
      rfl
    | cons next texts =>
      -- A line feed stands between the first text and the others.
      have hjoined : encode ("\n".intercalate (text :: next :: texts)) =
          encode text ++ lineFeed :: encode ("\n".intercalate (next :: texts)) := by
        rw [String.intercalate_cons_cons, encode_append, encode_append, List.append_assoc]
        rfl
      rw [hjoined, linesOf_append_cons, hfirst, ih hothers]
      rfl

end Feed

namespace Telemetry

open Json

/-! ### Payloads of register cells -/

/-- The state of a register cell as it is written. -/
def cellMembers (index value : String) : List (String × Value) :=
  [("index", .text index), ("value", .text value)]

section Cell

variable (index value : String)

/-- The state of a cell is of texts, which have a spelling. -/
theorem isSpelt_cellMembers : ∀ member ∈ cellMembers index value, member.2.IsSpelt := by
  simp only [cellMembers, List.forall_mem_cons]
  exact ⟨.text index, .text value, nofun⟩

/-- The state of a cell is written as it is: its keys are in order. -/
theorem canonical_cellMembers :
    (Value.object (cellMembers index value)).canonical = .object (cellMembers index value) := by
  have hincreasing : (cellMembers index value).Pairwise (fun a b => a.1 < b.1) :=
    List.pairwise_pair.2 (show "index" < "value" by decide)
  -- Filing what is in order changes nothing.
  have hfiled := Catalog.ofList_entries ⟨cellMembers index value, hincreasing⟩
  simp only [cellMembers, Value.canonical, Value.canonicalMembers] at hfiled ⊢
  rw [hfiled]

/-- A payload with the state of a cell is read as that state. -/
theorem read_cellMembers : Payload.read .register (Value.object (cellMembers index value)).compact =
    .ok ⟨.register, [("index", index), ("value", value)]⟩ := by
  refine (Payload.read_eq_ok_iff (Value.isObject_compact (isSpelt_cellMembers index value))).2
    ⟨?_, ?_, rfl⟩
  · -- Both values are texts, and the first key marks no embedded one.
    refine Payload.areReadable_of_isLeaf ?_ ?_
    · rintro first ⟨⟩
      exact show "index" ≠ embeddedKey by decide
    · simp only [cellMembers, List.map_cons, List.forall_mem_cons]
      exact ⟨⟨.text index, trivial⟩, ⟨.text value, trivial⟩, nofun⟩
  · refine Payload.admits_iff_isTold.2 ?_
    show ∀ wanted ∈ [(⟨"index", none⟩ : Attribute), ⟨"value", none⟩], _
    simp only [List.forall_mem_cons]
    exact ⟨⟨.text index, rfl, trivial⟩, ⟨.text value, rfl, trivial⟩, nofun⟩

end Cell

/-! ### Reports -/

/-- What a device reports. -/
inductive Report
  | agent (header : Header) (agentType : String)
  | activity (header : Header) (activityType : String)
  /-- The state of a register cell. -/
  | register (header : Header) (operation : Operation) (index value : String)

namespace Report

def header : Report → Header
  | agent header _ => header
  | activity header _ => header
  | register header _ _ _ => header

/-- The type that stands behind the header. -/
def type : Report → String
  | agent _ agentType => agentType
  | activity _ activityType => activityType
  | register _ _ _ _ => "register"

/-- The line that a report is sent as. -/
def line : Report → String
  | agent header agentType => Line.agent header agentType
  | activity header activityType => Line.activity header activityType
  | register header operation index value => Line.register header operation index value

/-- The message that a report is understood as. -/
def message : Report → Message
  | agent header agentType => .agent header agentType
  | activity header activityType => .activity header activityType
  | register header operation index value =>
    .entity header "register" operation ⟨.register, [("index", index), ("value", value)]⟩

/-- Whether the fields of a report can be told from its line. Nothing is asked of the
texts of a cell. -/
structure IsProper (report : Report) : Prop where
  name : IsPiece report.header.name
  agentId : IsPiece report.header.agentId
  timestamp : IsPiece report.header.timestamp
  type : IsPiece report.type
  named : report.header.name ≠ ""
  identified : report.header.agentId ≠ ""
  /-- The type does not end with a blank. -/
  ends : ∀ c ∈ report.type.toList.getLast?, Text.isBlank c = false

/-- Whether a report is sent on one line. -/
structure IsOneLine (report : Report) : Prop where
  name : '\n' ∉ report.header.name.toList
  agentId : '\n' ∉ report.header.agentId.toList
  timestamp : '\n' ∉ report.header.timestamp.toList
  type : '\n' ∉ report.type.toList

/-- The line of a report by its fields. -/
def wireLine : Report → WireLine
  | agent header agentType => .of .agent header agentType ""
  | activity header activityType => .of .activity header activityType ""
  | register header operation index value =>
    .of .entity header "register" ("|" ++ operation.tag ++ "|" ++
      (Value.object (cellMembers index value)).compact)

variable {report : Report}

/-- The line is put together from its fields. -/
theorem line_eq (report : Report) : report.line = report.wireLine.text := by
  cases report with
  | agent header agentType =>
    rw [WireLine.text_eq]
    simp only [line, Line.agent, ofFields_cons, behind, wireLine, WireLine.of]
  | activity header activityType =>
    rw [WireLine.text_eq]
    simp only [line, Line.activity, ofFields_cons, behind, wireLine, WireLine.of]
  | register header operation index value =>
    have hcanonical := canonical_cellMembers index value
    rw [cellMembers] at hcanonical
    rw [WireLine.text_eq]
    simp only [line, Line.register, Line.entity, hcanonical, ofFields_cons, behind, wireLine,
      WireLine.of, cellMembers, String.append_assoc, String.append_empty]

/-! What the line of a report starts with and ends with. -/

/-- It starts with the tag of an event. -/
theorem exists_tag_wireLine (report : Report) :
    ∃ event : EventKind, report.wireLine.tag = event.tag := by
  cases report with
  | agent => exact ⟨.agent, rfl⟩
  | activity => exact ⟨.activity, rfl⟩
  | register => exact ⟨.entity, rfl⟩

/-- The fields of a proper report can be told from its line. -/
theorem IsProper.isProper_wireLine (h : report.IsProper) : report.wireLine.IsProper := by
  cases report with
  | agent header agentType =>
    exact ⟨EventKind.isPiece_tag .agent, h.name, h.agentId, h.timestamp, h.type, .inl rfl⟩
  | activity header activityType =>
    exact ⟨EventKind.isPiece_tag .activity, h.name, h.agentId, h.timestamp, h.type, .inl rfl⟩
  | register header operation index value =>
    refine ⟨EventKind.isPiece_tag .entity, h.name, h.agentId, h.timestamp, h.type, ?_⟩
    show IsRest ("|" ++ operation.tag ++ "|" ++ (Value.object (cellMembers index value)).compact)
    rw [String.append_assoc, String.append_assoc]
    exact WireLine.isRest_bar _

/-- A line that ends with its type ends with a character that is no blank, also if the
type is empty. -/
theorem isBlank_getLast?_text {line : WireLine} (hrest : line.rest = "")
    (h : ∀ c ∈ line.type.toList.getLast?, Text.isBlank c = false) :
    ∀ c ∈ line.text.toList.getLast?, Text.isBlank c = false := by
  intro c hc
  rw [WireLine.text, hrest, String.append_empty, String.toList_append, List.getLast?_append] at hc
  cases hlast : line.type.toList.getLast? with
  | some last =>
    rw [hlast] at hc
    exact h c (hlast ▸ hc)
  | none =>
    -- Then the last character is the bar in front of the type.
    have hbar : "|".toList = ['|'] := rfl
    rw [hlast, String.toList_append, Option.none_or, hbar, List.getLast?_concat] at hc
    obtain rfl : '|' = c := Option.some.inj hc
    decide

/-- The state of a cell ends with its brace. -/
theorem getLast?_cell (index value : String) :
    (Value.object (cellMembers index value)).compact.toList.getLast? = some '}' := by
  obtain ⟨inside, -, htext⟩ := Value.exists_derives_object fun member hmember =>
    (isSpelt_cellMembers index value member hmember).derives_render
  rw [Value.compact, String.toList_ofList, htext, ← List.cons_append, List.getLast?_concat]

/-- So the line of a proper report starts and ends with no blank. -/
theorem IsProper.isTrimmed_line (h : report.IsProper) : IsTrimmed report.line := by
  rw [line_eq]
  constructor
  · -- The line starts with its tag.
    intro c hc
    have hfirst (event : EventKind) :
        ∃ first more, event.tag.toList = first :: more ∧ Text.isBlank first = false := by
      cases event <;> exact ⟨_, _, rfl, by decide⟩
    obtain ⟨event, hevent⟩ := report.exists_tag_wireLine
    obtain ⟨first, more, htag, hblank⟩ := hfirst event
    rw [WireLine.text_eq, hevent, String.toList_append, htag] at hc
    obtain rfl : first = c := Option.some.inj hc
    exact hblank
  · -- It ends with its type, or with the brace of a payload.
    cases report with
    | agent header agentType => exact isBlank_getLast?_text rfl h.ends
    | activity header activityType => exact isBlank_getLast?_text rfl h.ends
    | register header operation index value =>
      have hrest : ("|" ++ operation.tag ++ "|" ++
          (Value.object (cellMembers index value)).compact).toList.getLast? = some '}' := by
        rw [String.toList_append, List.getLast?_append, getLast?_cell]
        rfl
      intro c hc
      rw [WireLine.text, String.toList_append, List.getLast?_append, wireLine, WireLine.of, hrest]
        at hc
      obtain rfl : '}' = c := Option.some.inj hc
      decide

/-- Behind the type there is no line end, whatever the texts of the cell are. -/
theorem newline_notMem_rest (report : Report) : '\n' ∉ report.wireLine.rest.toList := by
  cases report with
  | agent => exact List.not_mem_nil
  | activity => exact List.not_mem_nil
  | register header operation index value =>
    -- The compact form has no control characters, escapes or not.
    have hcell : '\n' ∉ (Value.object (cellMembers index value)).compact.toList := by
      rw [Value.compact, String.toList_ofList]
      intro hmem
      have hspelt : (Value.object (cellMembers index value)).IsSpelt :=
        .object (isSpelt_cellMembers index value)
      exact absurd (hspelt.isPrintable_render _ hmem) (by decide)
    have htag : '\n' ∉ operation.tag.toList := by cases operation <;> decide
    show '\n' ∉ ("|" ++ operation.tag ++ "|" ++
      (Value.object (cellMembers index value)).compact).toList
    simp [htag, hcell]

/-- So there is none in the line, if there is none in the other fields. -/
theorem IsOneLine.newline_notMem (h : report.IsOneLine) : '\n' ∉ report.line.toList := by
  obtain ⟨event, hevent⟩ := report.exists_tag_wireLine
  have htag : '\n' ∉ event.tag.toList := by cases event <;> decide
  -- The four fields are those of the report.
  have hfields : '\n' ∉ report.wireLine.name.toList ∧ '\n' ∉ report.wireLine.agentId.toList ∧
      '\n' ∉ report.wireLine.timestamp.toList ∧ '\n' ∉ report.wireLine.type.toList := by
    cases report <;> exact ⟨h.name, h.agentId, h.timestamp, h.type⟩
  obtain ⟨hname, hagentId, htimestamp, htype⟩ := hfields
  rw [line_eq, WireLine.text, hevent]
  simp [htag, hname, hagentId, htimestamp, htype, report.newline_notMem_rest]

/-- **A report is decoded from its line.** -/
theorem IsProper.decode_line (h : report.IsProper) :
    Message.decode report.line = .ok report.message := by
  -- The fields stand in the line with nothing around them that would be trimmed.
  have hstands : report.wireLine.Stands report.line "" "" := by
    refine ⟨⟨?_, nofun, ?_, nofun⟩, h.isProper_wireLine, ?_⟩
    · rw [String.empty_append, String.append_empty, line_eq]
    · rw [← line_eq]
      exact h.isTrimmed_line
    · cases report <;> exact ⟨h.named, h.identified⟩
  cases report with
  | agent header agentType => exact Message.decode_eq_agent_iff.2 ⟨_, _, _, hstands⟩
  | activity header activityType => exact Message.decode_eq_activity_iff.2 ⟨_, _, _, hstands⟩
  | register header operation index value =>
    exact Message.decode_eq_entity_iff.2 ⟨_, _, _, hstands, read_cellMembers index value⟩

/-- There is always a line to be sent: even without names and types it has its tag and its bars. -/
theorem line_ne_empty (report : Report) : report.line ≠ "" := by
  rw [line_eq]
  exact WireLine.text_ne_empty

/-- **What is sent arrives.** From the line of a report the report is decoded, with all its fields,
whatever the texts of a register cell are. Lines that hold no line end in their other fields can be
sent one behind the other, however the bytes come in: just these lines are fetched, one message
each, and from each of them its report is decoded. -/
theorem transmission :
    (∀ report : Report, report.IsProper → Message.decode report.line = .ok report.message) ∧
      ∀ (reports : List Report) (label : String) (stream : Feed.Stream),
        (∀ report ∈ reports, report.IsProper ∧ report.IsOneLine) →
        stream.bytes = Utf8.encode ("\n".intercalate (reports.map line)) →
        Feed.fetchAll (stream.feed label).arrivals =
            reports.map (fun report => .message (Utf8.encode report.line)) ++ [.ended] ∧
          ∀ report ∈ reports, Message.decodeBytes (Utf8.encode report.line) =
            .ok report.message := by
  refine ⟨fun report h => h.decode_line, fun reports label stream hreports hbytes => ⟨?_, ?_⟩⟩
  · have hlines : ∀ text ∈ reports.map line, IsTrimmed text ∧ text ≠ "" ∧ '\n' ∉ text.toList := by
      intro text htext
      obtain ⟨report, hreport, rfl⟩ := List.mem_map.1 htext
      obtain ⟨hproper, honeLine⟩ := hreports report hreport
      exact ⟨hproper.isTrimmed_line, report.line_ne_empty, honeLine.newline_notMem⟩
    -- So the lines of the stream are the lines that were sent, whatever its chunks are.
    rw [stream.arrivals_feed, hbytes, Feed.linesOf_encode_intercalate hlines,
      Feed.fetchAll_messages, List.map_map, List.map_map]
    rfl
  · intro report hreport
    -- The bytes of a line are those of a text, so they are decoded as that text.
    rw [Message.decodeBytes, Utf8.decode_eq_ok_iff.2 rfl]
    exact (hreports report hreport).1.decode_line

/-- An agent and a cell that holds a line end, a bar and quotes, in a stream that is cut within the
line of the cell. -/
theorem transmission_session :
    let agent : Report := .agent ⟨"S1", "1", "t0"⟩ "Switch"
    let cell : Report := .register ⟨"W1", "1", "t1"⟩ .write "a|b" "\"\n\\"
    let bytes := Utf8.encode ("\n".intercalate [agent.line, cell.line])
    ∃ stream : Feed.Stream, stream.chunks = [bytes.take 40, bytes.drop 40] ∧
      Feed.fetchAll (stream.feed "lines").arrivals =
        [.message (Utf8.encode agent.line), .message (Utf8.encode cell.line), .ended] ∧
      Message.decode cell.line =
        .ok (.entity ⟨"W1", "1", "t1"⟩ "register" .write
          ⟨.register, [("index", "a|b"), ("value", "\"\n\\")]⟩) := by
  intro agent cell bytes
  have hagent : agent.IsProper := by
    refine ⟨by decide, by decide, by decide, by decide, by decide, by decide, fun c hc => ?_⟩
    obtain rfl : 'h' = c := by simpa [agent, type] using hc
    decide
  have hcell : cell.IsProper := by
    refine ⟨by decide, by decide, by decide, by decide, by decide, by decide, fun c hc => ?_⟩
    obtain rfl : 'r' = c := by simpa [cell, type] using hc
    decide
  -- The cut falls into the second line.
  let stream : Feed.Stream := ⟨[bytes.take 40, bytes.drop 40], by decide +kernel⟩
  have hbytes : stream.bytes = bytes := by
    simp [stream, Feed.Stream.bytes]
  have hall : ∀ report ∈ [agent, cell], report.IsProper ∧ report.IsOneLine := by
    simp only [List.forall_mem_cons]
    exact ⟨⟨hagent, by decide, by decide, by decide, by decide⟩,
      ⟨hcell, by decide, by decide, by decide, by decide⟩, nofun⟩
  exact ⟨stream, rfl, (transmission.2 [agent, cell] "lines" stream hall hbytes).1,
    transmission.1 cell hcell⟩

end Report

end Telemetry

end Lineage
