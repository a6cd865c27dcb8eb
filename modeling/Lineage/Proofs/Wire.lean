import Lineage.Proofs.Fields
import Lineage.Telemetry.Line

/-!
# The grammar of messages

What is read of a line is said here without reading it. Behind the blanks at its start and before
those at its end, a line is the tag of an event, four fields and a rest, with bars between them
(`WireLine`); an entity has an operation and a payload in its rest. `ReadAs` says what such a text
is read as, and if it is refused, which of the checks is the first that it does not pass.

Every text is read as something (`exists_reads`), and what it is read as is what decoding it yields
(`ReadAs.decodeText_eq`). So a line is decoded as it is read, and in no other way
(`Message.grammar_decode`).
-/

namespace Lineage.Telemetry

open Lineage.Text

/-! ### Lines -/

/-- A line by its fields: a tag, the fields of a header, a type, and what follows. -/
structure WireLine where
  tag : String
  name : String
  agentId : String
  timestamp : String
  type : String
  /-- Nothing, or a bar and further fields. -/
  rest : String
deriving DecidableEq

namespace WireLine

/-- The text of a line, with bars between the fields. -/
def text (line : WireLine) : String :=
  line.tag ++ "|" ++ line.name ++ "|" ++ line.agentId ++ "|" ++ line.timestamp ++ "|" ++
    line.type ++ line.rest

def header (line : WireLine) : Header :=
  ⟨line.name, line.agentId, line.timestamp⟩

/-- Whether the fields of a line are fields, so that its text says where each of them ends. -/
structure IsProper (line : WireLine) : Prop where
  tag : IsPiece line.tag
  name : IsPiece line.name
  agentId : IsPiece line.agentId
  timestamp : IsPiece line.timestamp
  type : IsPiece line.type
  rest : IsRest line.rest

/-- Whether a line says what it is about and which device it comes from. -/
structure IsNamed (line : WireLine) : Prop where
  name : line.name ≠ ""
  agentId : line.agentId ≠ ""

/-- Whether the rest of a line is a call, which should be an operation, and a payload. -/
structure Carries (line : WireLine) (call payload : String) : Prop where
  isPiece : IsPiece call
  rest : line.rest = "|" ++ call ++ "|" ++ payload

/-- Whether a line has all the fields that an event needs. -/
inductive IsOf (line : WireLine) : EventKind → Prop
  | agent (hproper : line.IsProper) (htag : line.tag = "AGENT") : line.IsOf .agent
  | activity (hproper : line.IsProper) (htag : line.tag = "ACTIVITY") : line.IsOf .activity
  | entity {call payload : String} (hproper : line.IsProper) (htag : line.tag = "ENTITY")
      (hcarries : line.Carries call payload) : line.IsOf .entity

variable {line line' : WireLine}

/-- The text of a line, bracketed so that its fields can be taken off from the front. -/
theorem text_eq : line.text = line.tag ++
    ("|" ++ (line.name ++ ("|" ++ (line.agentId ++ ("|" ++ (line.timestamp ++
    ("|" ++ (line.type ++ line.rest)))))))) := by
  simp only [text, String.append_assoc]

/-- Behind a bar there may be anything. -/
theorem isRest_bar (text : String) : IsRest ("|" ++ text) :=
  .inr ⟨text, rfl⟩

/-- **A proper line can be told from its text.** -/
theorem IsProper.eq_of_text_eq (h : line.IsProper) (h' : line'.IsProper)
    (htext : line.text = line'.text) : line = line' := by
  rw [text_eq, text_eq] at htext
  -- From field to field, what stands in front of the first bar is the same.
  obtain ⟨htag, htext⟩ := append_inj_of_isPiece h.tag (isRest_bar _) h'.tag (isRest_bar _) htext
  rw [String.append_right_inj] at htext
  obtain ⟨hname, htext⟩ := append_inj_of_isPiece h.name (isRest_bar _) h'.name (isRest_bar _) htext
  rw [String.append_right_inj] at htext
  obtain ⟨hagent, htext⟩ :=
    append_inj_of_isPiece h.agentId (isRest_bar _) h'.agentId (isRest_bar _) htext
  rw [String.append_right_inj] at htext
  obtain ⟨htimestamp, htext⟩ :=
    append_inj_of_isPiece h.timestamp (isRest_bar _) h'.timestamp (isRest_bar _) htext
  rw [String.append_right_inj] at htext
  obtain ⟨htype, hrest⟩ := append_inj_of_isPiece h.type h.rest h'.type h'.rest htext
  cases line
  cases line'
  simp only [WireLine.mk.injEq]
  exact ⟨htag, hname, hagent, htimestamp, htype, hrest⟩

/-- The rest of a line, bracketed in the same way. -/
theorem Carries.rest_eq {call payload : String} (h : line.Carries call payload) :
    line.rest = "|" ++ (call ++ ("|" ++ payload)) := by
  rw [h.rest, String.append_assoc, String.append_assoc]

/-- The call and the payload can be told from the rest of a line. -/
theorem Carries.unique {call payload call' payload' : String} (h : line.Carries call payload)
    (h' : line.Carries call' payload') : call = call' ∧ payload = payload' := by
  have hrest := h.rest_eq.symm.trans h'.rest_eq
  rw [String.append_right_inj] at hrest
  obtain ⟨hcall, hpayload⟩ :=
    append_inj_of_isPiece h.isPiece (isRest_bar _) h'.isPiece (isRest_bar _) hrest
  exact ⟨hcall, (String.append_right_inj _).1 hpayload⟩

/-! What a line is cut into. -/

/-- A line has bars at least. -/
theorem text_ne_empty : line.text ≠ "" := by
  intro hempty
  rw [text_eq, String.append_eq_empty_iff, String.append_eq_empty_iff] at hempty
  exact absurd hempty.2.1 (by decide)

/-- Four cuts take the tag and the header off a line. -/
theorem cut_text (h : line.IsProper) : cut Message.fieldLimit line.text =
    line.tag :: line.name :: line.agentId :: line.timestamp :: cut 3 (line.type ++ line.rest) := by
  rw [text_eq, Message.fieldLimit, cut_append_bar _ h.tag, cut_append_bar _ h.name,
    cut_append_bar _ h.agentId, cut_append_bar _ h.timestamp]

/-- One more takes its type off. -/
theorem exists_cut_text (h : line.IsProper) : ∃ more, cut Message.fieldLimit line.text =
    line.tag :: line.name :: line.agentId :: line.timestamp :: line.type :: more := by
  obtain ⟨more, hmore⟩ := exists_cut_append 1 h.type h.rest
  exact ⟨more, by rw [cut_text h, hmore]⟩

/-- The payload takes all that is left, since it is the last field that there may be. -/
theorem cut_text_of_carries (h : line.IsProper) {call payload : String}
    (hcarries : line.Carries call payload) :
    cut Message.fieldLimit line.text =
      [line.tag, line.name, line.agentId, line.timestamp, line.type, call, payload] := by
  rw [cut_text h, hcarries.rest_eq, cut_append_bar _ h.type, cut_append_bar _ hcarries.isPiece,
    cut_one]

end WireLine

/-! ### What is read of a text -/

/-- What a text without blanks at its ends is read as. A text that is refused passes all checks up
to one, in the order in which they stand here. -/
inductive ReadAs : String → Except MessageError Message → Prop
  | noText : ReadAs "" (.error (.malformed .noText))
  | unknownEvent {tag rest : String} (hfield : IsPiece tag) (hrest : IsRest rest)
      (htext : tag ++ rest ≠ "") (hunknown : ∀ event : EventKind, tag ≠ event.tag) :
      ReadAs (tag ++ rest) (.error (.unknownEvent tag))
  | tooFewFields {event : EventKind} {fields : List String}
      (hfields : ∀ field ∈ fields, IsPiece field)
      (hfew : fields.length + 1 < event.requiredFields) :
      ReadAs (Line.ofFields (event.tag :: fields))
        (.error (.malformed (.tooFewFields event (fields.length + 1))))
  | noName {event : EventKind} {line : WireLine} (hline : line.IsOf event)
      (hname : line.name = "") : ReadAs line.text (.error (.malformed .noName))
  | noAgentId {event : EventKind} {line : WireLine} (hline : line.IsOf event)
      (hname : line.name ≠ "") (hagentId : line.agentId = "") :
      ReadAs line.text (.error (.malformed .noAgentId))
  | agent {line : WireLine} (hproper : line.IsProper) (htag : line.tag = "AGENT")
      (hnamed : line.IsNamed) : ReadAs line.text (.ok (.agent line.header line.type))
  | activity {line : WireLine} (hproper : line.IsProper) (htag : line.tag = "ACTIVITY")
      (hnamed : line.IsNamed) : ReadAs line.text (.ok (.activity line.header line.type))
  | unrecognizedOperation {line : WireLine} {call raw : String} (hproper : line.IsProper)
      (htag : line.tag = "ENTITY") (hnamed : line.IsNamed) (hcarries : line.Carries call raw)
      (hunknown : ∀ operation : Operation, call ≠ operation.tag) :
      ReadAs line.text (.error (.unrecognizedOperation call))
  | invalidPayload {line : WireLine} {operation : Operation} {raw : String} {fault : PayloadFault}
      (hproper : line.IsProper) (htag : line.tag = "ENTITY") (hnamed : line.IsNamed)
      (hcarries : line.Carries operation.tag raw)
      (hread : Payload.read (EntityKind.ofTag line.type).form raw = .error fault) :
      ReadAs line.text (.error (.invalidPayload line.type fault))
  | entity {line : WireLine} {operation : Operation} {raw : String} {payload : Payload}
      (hproper : line.IsProper) (htag : line.tag = "ENTITY") (hnamed : line.IsNamed)
      (hcarries : line.Carries operation.tag raw)
      (hread : Payload.read (EntityKind.ofTag line.type).form raw = .ok payload) :
      ReadAs line.text (.ok (.entity line.header line.type operation payload))

/-! ### Decoding what is read -/

/-- An event is recognized by its tag. -/
theorem EventKind.ofTag_tag (event : EventKind) : ofTag event.tag = .ok event := by
  cases event <;> rfl

/-- A tag is that of an event, or it is of none and is refused as such. -/
theorem EventKind.ofTag_cases (tag : String) : (∃ event : EventKind, tag = event.tag) ∨
    (∀ event : EventKind, tag ≠ event.tag) ∧ ofTag tag = .error (.unknownEvent tag) := by
  by_cases h : ∃ event : EventKind, tag = event.tag
  · exact .inl h
  · have hunknown : ∀ event : EventKind, tag ≠ event.tag := fun event htag => h ⟨event, htag⟩
    refine .inr ⟨hunknown, ?_⟩
    -- None of the three tests holds.
    have hactivity : tag ≠ "ACTIVITY" := hunknown .activity
    have hagent : tag ≠ "AGENT" := hunknown .agent
    have hentity : tag ≠ "ENTITY" := hunknown .entity
    rw [ofTag, if_neg hactivity, if_neg hagent, if_neg hentity]

/-- An operation is recognized by its tag. -/
theorem Operation.ofTag_tag (operation : Operation) : ofTag operation.tag = .ok operation := by
  cases operation <;> rfl

/-- A tag is that of an operation, or it is of none and is refused as such. -/
theorem Operation.ofTag_cases (tag : String) : (∃ operation : Operation, tag = operation.tag) ∨
    (∀ operation : Operation, tag ≠ operation.tag) ∧
      ofTag tag = .error (.unrecognizedOperation tag) := by
  by_cases h : ∃ operation : Operation, tag = operation.tag
  · exact .inl h
  · have hunknown : ∀ operation : Operation, tag ≠ operation.tag :=
      fun operation htag => h ⟨operation, htag⟩
    refine .inr ⟨hunknown, ?_⟩
    have hread : tag ≠ "READ" := hunknown .read
    have hwrite : tag ≠ "WRITE" := hunknown .write
    have hadd : tag ≠ "ADD" := hunknown .add
    rw [ofTag, if_neg hread, if_neg hwrite, if_neg hadd]

namespace Message

/-- Reads a text without blanks at its ends. -/
def decodeText (text : String) : Except MessageError Message :=
  if text = "" then .error (.malformed .noText)
  else
    match cut fieldLimit text with
    | [] => .error (.malformed .noText)
    | tag :: fields =>
      match EventKind.ofTag tag with
      | .error error => .error error
      | .ok event => decodeFields event fields

/-- Only what stands between the blanks is looked at. -/
theorem decode_eq (raw : String) : decode raw = decodeText (trimmed raw) := by
  have hempty : (trim raw.toList).isEmpty = true ↔ trimmed raw = "" := by
    rw [List.isEmpty_iff, trimmed, ← String.toList_eq_nil_iff, String.toList_ofList]
  have hcut : cut fieldLimit (trimmed raw) =
      (splitAtMost '|' fieldLimit (trim raw.toList)).map String.ofList := by
    rw [cut, trimmed, String.toList_ofList]
  rw [decode, decodeText, hcut]
  exact if_congr hempty rfl rfl

/-- With a known tag, all depends on the fields behind it. -/
theorem decodeText_of_cut (event : EventKind) {text : String} {fields : List String}
    (htext : text ≠ "") (hcut : cut fieldLimit text = event.tag :: fields) :
    decodeText text = decodeFields event fields := by
  rw [decodeText, if_neg htext, hcut]
  simp only [EventKind.ofTag_tag]

/-- Fields are missing as long as there are not all that the event needs. -/
theorem decodeFields_of_few {event : EventKind} {fields : List String}
    (hfew : fields.length + 1 < event.requiredFields) :
    decodeFields event fields = .error (.malformed (.tooFewFields event (fields.length + 1))) := by
  unfold decodeFields
  split
  next name agentId timestamp type more =>
    -- There are the five fields of any event, so it is an entity without one of its last two.
    simp only [List.length_cons] at hfew
    split
    · exact absurd hfew (by simp only [EventKind.requiredFields, List.length_cons]; omega)
    · rfl
    · exact absurd hfew (by simp only [EventKind.requiredFields]; omega)
    · exact absurd hfew (by simp only [EventKind.requiredFields]; omega)
  · rfl

end Message

/-- The text of some fields with a bar in front of each. -/
def behind : List String → String
  | [] => ""
  | field :: fields => "|" ++ (field ++ behind fields)

/-- Fields are put together by a bar in front of each but the first. -/
theorem ofFields_cons (first : String) (fields : List String) :
    Line.ofFields (first :: fields) = first ++ behind fields := by
  rw [Line.ofFields]
  induction fields generalizing first with
  | nil => rw [String.intercalate_singleton, behind, String.append_empty]
  | cons second fields ih => rw [String.intercalate_cons_cons, ih, String.append_assoc, behind]

/-- A text that is put together from fields is cut into them, if there may be so many. -/
theorem cut_ofFields {first : String} {fields : List String} (hfirst : IsPiece first)
    (hfields : ∀ field ∈ fields, IsPiece field) {limit : Nat} (hlimit : fields.length ≤ limit) :
    cut (limit + 1) (Line.ofFields (first :: fields)) = first :: fields := by
  induction fields generalizing first limit with
  | nil => rw [ofFields_cons, behind, String.append_empty, cut_of_isPiece _ hfirst]
  | cons second fields ih =>
    -- As long as fields are left, there is a cut left for them.
    cases limit with
    | zero => exact absurd hlimit (Nat.not_succ_le_zero _)
    | succ limit =>
      obtain ⟨hsecond, hothers⟩ := List.forall_mem_cons.1 hfields
      have hrest := ih hsecond hothers (Nat.le_of_succ_le_succ hlimit)
      rw [ofFields_cons] at hrest ⊢
      rw [behind, cut_append_bar _ hfirst, hrest]

/-- No tag of an event has a bar in it. -/
theorem EventKind.isPiece_tag (event : EventKind) : IsPiece event.tag := by
  cases event <;> simp [IsPiece, tag]

/-- Every event has a tag. -/
theorem EventKind.tag_ne_empty (event : EventKind) : event.tag ≠ "" := by
  cases event <;> decide

/-- No tag of an operation has a bar in it. -/
theorem Operation.isPiece_tag (operation : Operation) : IsPiece operation.tag := by
  cases operation <;> simp [IsPiece, tag]

namespace Message

section Header

variable {line : WireLine}

/-- The header of a line with a name and an agent id passes both checks. -/
theorem headerOf_of_isNamed (h : line.IsNamed) :
    headerOf line.name line.agentId line.timestamp = .ok line.header := by
  rw [headerOf, if_neg h.name, if_neg h.agentId]
  rfl

/-- An agent is read from its first five fields. -/
theorem decodeText_agent (hproper : line.IsProper) (htag : line.tag = "AGENT") :
    decodeText line.text =
      (headerOf line.name line.agentId line.timestamp).map fun header =>
        agent header line.type := by
  obtain ⟨more, hcut⟩ := WireLine.exists_cut_text hproper
  rw [htag] at hcut
  exact decodeText_of_cut .agent WireLine.text_ne_empty hcut

/-- So is an activity. -/
theorem decodeText_activity (hproper : line.IsProper) (htag : line.tag = "ACTIVITY") :
    decodeText line.text =
      (headerOf line.name line.agentId line.timestamp).map fun header =>
        activity header line.type := by
  obtain ⟨more, hcut⟩ := WireLine.exists_cut_text hproper
  rw [htag] at hcut
  exact decodeText_of_cut .activity WireLine.text_ne_empty hcut

/-- An entity is read from its seven fields. -/
theorem decodeText_entity (hproper : line.IsProper) (htag : line.tag = "ENTITY") {call raw : String}
    (hcarries : line.Carries call raw) :
    decodeText line.text =
      match headerOf line.name line.agentId line.timestamp with
      | .error error => .error error
      | .ok header => decodeEntity header line.type call raw := by
  have hcut := WireLine.cut_text_of_carries hproper hcarries
  rw [htag] at hcut
  exact decodeText_of_cut .entity WireLine.text_ne_empty hcut

/-- The header is looked at before anything that comes behind it. -/
theorem decodeText_of_headerOf {event : EventKind} (h : line.IsOf event) {error : MessageError}
    (hheader : headerOf line.name line.agentId line.timestamp = .error error) :
    decodeText line.text = .error error := by
  cases h with
  | agent hproper htag =>
    rw [decodeText_agent hproper htag, hheader]
    rfl
  | activity hproper htag =>
    rw [decodeText_activity hproper htag, hheader]
    rfl
  | entity hproper htag hcarries => rw [decodeText_entity hproper htag hcarries, hheader]

end Header

end Message

/-- **What a text is read as is what decoding it yields.** -/
theorem ReadAs.decodeText_eq {text : String} {result : Except MessageError Message}
    (h : ReadAs text result) : Message.decodeText text = result := by
  cases h with
  | noText => rfl
  | @unknownEvent tag rest hfield hrest htext hunknown =>
    obtain ⟨more, hmore⟩ := exists_cut_append 5 hfield hrest
    have htag := (EventKind.ofTag_cases tag).resolve_left fun ⟨event, htag⟩ => hunknown event htag
    rw [Message.decodeText, if_neg htext, Message.fieldLimit, hmore]
    simp only [htag.2]
  | @tooFewFields event fields hfields hfew =>
    -- No event asks for more fields than a line is cut into.
    have hlimit : fields.length ≤ 6 := by
      cases event <;> simp only [EventKind.requiredFields] at hfew <;> omega
    have htext : Line.ofFields (event.tag :: fields) ≠ "" := by
      intro hempty
      rw [ofFields_cons, String.append_eq_empty_iff] at hempty
      exact event.tag_ne_empty hempty.1
    rw [Message.decodeText_of_cut event htext (cut_ofFields event.isPiece_tag hfields hlimit),
      Message.decodeFields_of_few hfew]
  | noName hline hname =>
    exact Message.decodeText_of_headerOf hline (by rw [Message.headerOf, if_pos hname])
  | noAgentId hline hname hagentId =>
    exact Message.decodeText_of_headerOf hline
      (by rw [Message.headerOf, if_neg hname, if_pos hagentId])
  | agent hproper htag hnamed =>
    rw [Message.decodeText_agent hproper htag, Message.headerOf_of_isNamed hnamed]
    rfl
  | activity hproper htag hnamed =>
    rw [Message.decodeText_activity hproper htag, Message.headerOf_of_isNamed hnamed]
    rfl
  | @unrecognizedOperation line call raw hproper htag hnamed hcarries hunknown =>
    -- The operation is looked at before the payload.
    have hcall :=
      (Operation.ofTag_cases call).resolve_left fun ⟨operation, hcall⟩ => hunknown operation hcall
    rw [Message.decodeText_entity hproper htag hcarries, Message.headerOf_of_isNamed hnamed]
    simp only [Message.decodeEntity, hcall.2]
  | @invalidPayload line operation raw fault hproper htag hnamed hcarries hread =>
    rw [Message.decodeText_entity hproper htag hcarries, Message.headerOf_of_isNamed hnamed]
    simp only [Message.decodeEntity, operation.ofTag_tag, hread]
  | @entity line operation raw payload hproper htag hnamed hcarries hread =>
    rw [Message.decodeText_entity hproper htag hcarries, Message.headerOf_of_isNamed hnamed]
    simp only [Message.decodeEntity, operation.ofTag_tag, hread]

/-! ### Every text is read -/

/-- Behind a field there are as many fields as may be wanted and a rest, or there are fewer and
nothing else. -/
theorem exists_fields (n : Nat) {rest : String} (h : IsRest rest) :
    ∃ fields : List String, (∀ field ∈ fields, IsPiece field) ∧
      (fields.length < n ∧ rest = behind fields ∨
        fields.length = n ∧ ∃ more, IsRest more ∧ rest = behind fields ++ more) := by
  induction n generalizing rest with
  | zero => exact ⟨[], by simp, .inr ⟨rfl, rest, h, String.empty_append.symm⟩⟩
  | succ n ih =>
    -- Nothing is left, or a bar and the next field.
    obtain rfl | ⟨more, rfl⟩ := h
    · exact ⟨[], by simp, .inl ⟨Nat.succ_pos n, rfl⟩⟩
    · obtain ⟨field, rest, hfield, hrest, rfl⟩ := exists_isPiece more
      obtain ⟨fields, hfields, hcases⟩ := ih hrest
      refine ⟨field :: fields, List.forall_mem_cons.2 ⟨hfield, hfields⟩, ?_⟩
      rcases hcases with ⟨hfew, rfl⟩ | ⟨hall, more, hmore, rfl⟩
      · exact .inl ⟨Nat.succ_lt_succ hfew, rfl⟩
      · refine .inr ⟨congrArg Nat.succ hall, more, hmore, ?_⟩
        rw [behind, String.append_assoc, String.append_assoc]

/-- A tag, four fields and a rest are a line. -/
theorem exists_line {tag name agentId timestamp type rest : String} (htag : IsPiece tag)
    (hfields : ∀ field ∈ [name, agentId, timestamp, type], IsPiece field) (hrest : IsRest rest) :
    ∃ line : WireLine, line.IsProper ∧ line.tag = tag ∧ line.rest = rest ∧
      tag ++ (behind [name, agentId, timestamp, type] ++ rest) = line.text := by
  refine ⟨⟨tag, name, agentId, timestamp, type, rest⟩, ⟨htag, ?_, ?_, ?_, ?_, hrest⟩, rfl, rfl, ?_⟩
  · exact hfields name (by simp)
  · exact hfields agentId (by simp)
  · exact hfields timestamp (by simp)
  · exact hfields type (by simp)
  · rw [WireLine.text_eq]
    simp only [behind, String.append_empty, String.append_assoc]

/-- Behind the tag of an event all that is needed is there, or fields are missing. -/
theorem exists_isOf_or_few (event : EventKind) {rest : String} (h : IsRest rest) :
    (∃ line : WireLine, line.IsOf event ∧ event.tag ++ rest = line.text) ∨
      ∃ fields : List String, (∀ field ∈ fields, IsPiece field) ∧
        fields.length + 1 < event.requiredFields ∧
        event.tag ++ rest = Line.ofFields (event.tag :: fields) := by
  -- The tag is one of the fields that are asked for.
  obtain ⟨fields, hfields, ⟨hfew, rfl⟩ | ⟨hall, more, hmore, rfl⟩⟩ :=
    exists_fields (event.requiredFields - 1) h
  · exact .inr ⟨fields, hfields, Nat.add_lt_of_lt_sub hfew, (ofFields_cons _ _).symm⟩
  · refine .inl ?_
    cases event with
    | agent =>
      match fields, hall with
      | [name, agentId, timestamp, type], _ =>
        obtain ⟨line, hproper, htag, -, htext⟩ :=
          exists_line EventKind.agent.isPiece_tag hfields hmore
        exact ⟨line, .agent hproper htag, htext⟩
    | activity =>
      match fields, hall with
      | [name, agentId, timestamp, type], _ =>
        obtain ⟨line, hproper, htag, -, htext⟩ :=
          exists_line EventKind.activity.isPiece_tag hfields hmore
        exact ⟨line, .activity hproper htag, htext⟩
    | entity =>
      match fields, hall with
      | [name, agentId, timestamp, type, call, payload], _ =>
        -- The last field goes on with all that is left.
        have hfirst : ∀ field ∈ [name, agentId, timestamp, type], IsPiece field :=
          fun field hmem => hfields field (List.mem_append_left [call, payload] hmem)
        obtain ⟨line, hproper, htag, hrest, htext⟩ :=
          exists_line EventKind.entity.isPiece_tag hfirst
            (WireLine.isRest_bar (call ++ ("|" ++ (payload ++ more))))
        have hcarries : line.Carries call (payload ++ more) :=
          ⟨hfields call (by simp), by rw [hrest, String.append_assoc, String.append_assoc]⟩
        refine ⟨line, .entity hproper htag hcarries, ?_⟩
        rw [← htext]
        simp only [behind, String.append_empty, String.append_assoc]

/-- A line with all the fields that its event needs is read as a message, or refused for one of
them. -/
theorem exists_reads_of_isOf {line : WireLine} {event : EventKind} (h : line.IsOf event) :
    ∃ result, ReadAs line.text result := by
  by_cases hname : line.name = ""
  · exact ⟨_, .noName h hname⟩
  by_cases hagentId : line.agentId = ""
  · exact ⟨_, .noAgentId h hname hagentId⟩
  have hnamed : line.IsNamed := ⟨hname, hagentId⟩
  cases h with
  | agent hproper htag => exact ⟨_, .agent hproper htag hnamed⟩
  | activity hproper htag => exact ⟨_, .activity hproper htag hnamed⟩
  | @entity call raw hproper htag hcarries =>
    -- The checks that only an entity has.
    obtain ⟨operation, rfl⟩ | ⟨hunknown, -⟩ := Operation.ofTag_cases call
    · cases hread : Payload.read (EntityKind.ofTag line.type).form raw with
      | error fault => exact ⟨_, .invalidPayload hproper htag hnamed hcarries hread⟩
      | ok payload => exact ⟨_, .entity hproper htag hnamed hcarries hread⟩
    · exact ⟨_, .unrecognizedOperation hproper htag hnamed hcarries hunknown⟩

/-- **Every text is read** as a message, or refused. -/
theorem exists_reads (text : String) : ∃ result, ReadAs text result := by
  by_cases hempty : text = ""
  · subst hempty
    exact ⟨_, .noText⟩
  obtain ⟨tag, rest, htag, hrest, rfl⟩ := exists_isPiece text
  obtain ⟨event, rfl⟩ | ⟨hunknown, -⟩ := EventKind.ofTag_cases tag
  · obtain ⟨line, hline, htext⟩ | ⟨fields, hfields, hfew, htext⟩ := exists_isOf_or_few event hrest
    · rw [htext]
      exact exists_reads_of_isOf hline
    · rw [htext]
      exact ⟨_, .tooFewFields hfields hfew⟩
  · exact ⟨_, .unknownEvent htag hrest hempty hunknown⟩

/-- What a text is read as is decided by decoding it, since every text is read as something. -/
theorem reads_iff {text : String} {result : Except MessageError Message} :
    ReadAs text result ↔ Message.decodeText text = result := by
  refine ⟨ReadAs.decodeText_eq, ?_⟩
  rintro rfl
  obtain ⟨result, hreads⟩ := exists_reads text
  rw [hreads.decodeText_eq]
  exact hreads

/-! ### The grammar -/

/-- Whether a text is a line with blanks around it, from which a message can be read. -/
structure WireLine.Stands (line : WireLine) (raw before after : String) : Prop where
  trims : Trims raw before line.text after
  proper : line.IsProper
  named : line.IsNamed

namespace Message

/-- A text is decoded as what is read of it between the blanks. -/
theorem decode_eq_iff {raw : String} {result : Except MessageError Message} :
    decode raw = result ↔
      ∃ before text after, Trims raw before text after ∧ ReadAs text result := by
  rw [decode_eq, ← reads_iff]
  constructor
  · intro hreads
    -- Every text is trimmed in some way, and what is left between the blanks is unique.
    obtain ⟨before, after, htrims⟩ := exists_trims raw
    exact ⟨before, _, after, htrims, hreads⟩
  · rintro ⟨before, text, after, htrims, hreads⟩
    rwa [← htrims.text_eq]

end Message

namespace WireLine

/-- The line of an event with a header, a type and a rest. -/
def of (event : EventKind) (header : Header) (type rest : String) : WireLine :=
  ⟨event.tag, header.name, header.agentId, header.timestamp, type, rest⟩

/-- A line is what its tag, its header, its type and its rest make up. -/
theorem eq_of {line : WireLine} (event : EventKind) (htag : line.tag = event.tag) :
    line = of event line.header line.type line.rest := by
  rw [of, ← htag]
  rfl

/-- **There is one line at most in a text**, with one row of blanks before and one behind it. -/
theorem Stands.unique {line line' : WireLine} {raw before after before' after' : String}
    (h : line.Stands raw before after) (h' : line'.Stands raw before' after') :
    before = before' ∧ line = line' ∧ after = after' := by
  obtain ⟨hbefore, htext, hafter⟩ := h.trims.unique h'.trims text_ne_empty
  exact ⟨hbefore, h.proper.eq_of_text_eq h'.proper htext, hafter⟩

/-- The rest that is made of an operation and a payload carries them. -/
theorem carries_of (header : Header) (type : String) (operation : Operation) (text : String) :
    (of .entity header type ("|" ++ operation.tag ++ "|" ++ text)).Carries operation.tag text :=
  ⟨operation.isPiece_tag, rfl⟩

end WireLine

namespace Message

variable {raw : String} {header : Header}

/-- The lines that are decoded as an agent. -/
theorem decode_eq_agent_iff {agentType : String} :
    decode raw = .ok (.agent header agentType) ↔
      ∃ before rest after, (WireLine.of .agent header agentType rest).Stands raw before after := by
  rw [decode_eq_iff]
  constructor
  · rintro ⟨before, text, after, htrims, hreads⟩
    cases hreads with
    | @agent line hproper htag hnamed =>
      have hstands : line.Stands raw before after := ⟨htrims, hproper, hnamed⟩
      rw [WireLine.eq_of .agent htag] at hstands
      exact ⟨before, line.rest, after, hstands⟩
  · rintro ⟨before, rest, after, hstands⟩
    exact ⟨before, _, after, hstands.trims, .agent hstands.proper rfl hstands.named⟩

/-- The lines that are decoded as an activity. -/
theorem decode_eq_activity_iff {activityType : String} :
    decode raw = .ok (.activity header activityType) ↔
      ∃ before rest after,
        (WireLine.of .activity header activityType rest).Stands raw before after := by
  rw [decode_eq_iff]
  constructor
  · rintro ⟨before, text, after, htrims, hreads⟩
    cases hreads with
    | @activity line hproper htag hnamed =>
      have hstands : line.Stands raw before after := ⟨htrims, hproper, hnamed⟩
      rw [WireLine.eq_of .activity htag] at hstands
      exact ⟨before, line.rest, after, hstands⟩
  · rintro ⟨before, rest, after, hstands⟩
    exact ⟨before, _, after, hstands.trims, .activity hstands.proper rfl hstands.named⟩

/-- The lines that are decoded as an entity, with their payloads. -/
theorem decode_eq_entity_iff {entityType : String} {operation : Operation} {payload : Payload} :
    decode raw = .ok (.entity header entityType operation payload) ↔
      ∃ before text after,
        (WireLine.of .entity header entityType ("|" ++ operation.tag ++ "|" ++ text)).Stands raw
          before after ∧
        Payload.read (EntityKind.ofTag entityType).form text = .ok payload := by
  rw [decode_eq_iff]
  constructor
  · rintro ⟨before, text, after, htrims, hreads⟩
    -- Only the last rule for reading yields an entity.
    cases hreads with
    | @entity line _ text _ hproper htag hnamed hcarries hread =>
      have hstands : line.Stands raw before after := ⟨htrims, hproper, hnamed⟩
      rw [WireLine.eq_of .entity htag, hcarries.rest] at hstands
      exact ⟨before, text, after, hstands, hread⟩
  · rintro ⟨before, text, after, hstands, hread⟩
    exact ⟨before, _, after, hstands.trims,
      .entity hstands.proper rfl hstands.named
        (WireLine.carries_of header entityType operation text) hread⟩

/-- **The grammar of messages.** A text is decoded as an agent or as an activity just if, between
blanks, it is the line of one with the fields of the message, a name and an agent id, and nothing
or a bar and any text behind them; and as an entity just if behind its type there are the operation
and a payload that reads as that of the message. There is but one way to see a text as a line
between blanks, and one way to see an operation and a payload in its rest. What is refused is
refused for the first check that it does not pass: that there is a text, that its tag is that of an
event, that there are enough fields, that there is a name, that there is an agent id, the
operation, the payload. -/
theorem grammar_decode :
    (∀ raw header agentType, decode raw = .ok (.agent header agentType) ↔
        ∃ before rest after, (WireLine.of .agent header agentType rest).Stands raw before after) ∧
      (∀ raw header activityType, decode raw = .ok (.activity header activityType) ↔
        ∃ before rest after,
          (WireLine.of .activity header activityType rest).Stands raw before after) ∧
      (∀ raw header entityType operation payload,
        decode raw = .ok (.entity header entityType operation payload) ↔
          ∃ before text after,
            (WireLine.of .entity header entityType ("|" ++ operation.tag ++ "|" ++ text)).Stands raw
              before after ∧
            Payload.read (EntityKind.ofTag entityType).form text = .ok payload) ∧
      (∀ raw line line' before before' after after', WireLine.Stands line raw before after →
        WireLine.Stands line' raw before' after' →
        before = before' ∧ line = line' ∧ after = after') ∧
      (∀ line call call' payload payload', WireLine.Carries line call payload →
        WireLine.Carries line call' payload' → call = call' ∧ payload = payload') ∧
      ∀ raw error, decode raw = .error error ↔
        ∃ before text after, Trims raw before text after ∧ ReadAs text (.error error) :=
  ⟨fun _ _ _ => decode_eq_agent_iff, fun _ _ _ => decode_eq_activity_iff,
    fun _ _ _ _ _ => decode_eq_entity_iff, fun _ _ _ _ _ _ _ h h' => h.unique h',
    fun _ _ _ _ _ h h' => h.unique h', fun _ _ => decode_eq_iff⟩

/-- An agent between blanks, with a field that is ignored: there is no other way to see a line in
it. -/
theorem grammar_decode_agent :
    let line := WireLine.of .agent ⟨"S1", "1", "t0"⟩ "Switch" "|more"
    line.Stands " AGENT|S1|1|t0|Switch|more\r\n" " " "\r\n" ∧
      (∀ other before after, WireLine.Stands other " AGENT|S1|1|t0|Switch|more\r\n" before after →
        other = line) ∧
      decode " AGENT|S1|1|t0|Switch|more\r\n" = .ok (.agent ⟨"S1", "1", "t0"⟩ "Switch") := by
  intro line
  have hproper : line.IsProper :=
    ⟨by simp [IsPiece, line, WireLine.of, EventKind.tag], by simp [IsPiece, line, WireLine.of],
      by simp [IsPiece, line, WireLine.of], by simp [IsPiece, line, WireLine.of],
      by simp [IsPiece, line, WireLine.of], .inr ⟨"more", rfl⟩⟩
  -- Blanks at both ends, and none next to them.
  have htrims : Trims " AGENT|S1|1|t0|Switch|more\r\n" " " line.text "\r\n" := by
    have htext : line.text = "AGENT|S1|1|t0|Switch|more" := by decide
    rw [htext]
    refine ⟨by decide, by simp [IsBlankText, isBlank], ⟨?_, ?_⟩, by simp [IsBlankText, isBlank]⟩
    · rintro c hc
      obtain rfl : 'A' = c := by simpa using hc
      decide
    · rintro c hc
      obtain rfl : 'e' = c := by simpa using hc
      decide
  have hstands : line.Stands " AGENT|S1|1|t0|Switch|more\r\n" " " "\r\n" :=
    ⟨htrims, hproper, ⟨by decide, by decide⟩⟩
  refine ⟨hstands, fun other before after hother => ?_, (grammar_decode.1 _ _ _).2
    ⟨" ", "|more", "\r\n", hstands⟩⟩
  exact (grammar_decode.2.2.2.1 _ _ _ _ _ _ _ hother hstands).2.1

end Message

end Lineage.Telemetry
