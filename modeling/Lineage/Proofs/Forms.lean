import Lineage.Graph.Form
import Lineage.Proofs.Utf8
import Lineage.Proofs.Written
import Lineage.Settings

/-!
# Written forms are read back

The written forms of vertices, edges, endpoints and records, and of settings, lose nothing: each of
them is decoded as what it was written for, whatever texts it holds (`Json.IsLossless`). For every
form there is one fact behind this, that its reader reads any spelling of it so (`Reads`); what is
written is one of these spellings.

A record is written without control characters, so in a file of lines it takes one line, and no two
elements have the same line (`forms_decode`).
-/

namespace Lineage

open Lineage.Json

namespace Json

/-- Whether a form that is written for something is decoded as just that. -/
def IsLossless {α : Type} (toJson : α → Value) (reader : Reader α) : Prop :=
  ∀ a, decode reader (toJson a).compact.toList = .ok a

/-- A form loses nothing if its reader reads every spelling of it. -/
theorem isLossless_of_reads {α : Type} {toJson : α → Value} {reader : Reader α}
    (hreads : ∀ a, Reads reader (toJson a) a) (hspelt : ∀ a, (toJson a).IsSpelt) :
    IsLossless toJson reader := by
  intro a
  rw [Value.compact, String.toList_ofList]
  exact (hreads a).decode_eq (hspelt a)

/-- Texts and objects of texts are within the limits of a reader. -/
theorem Value.fits_ofTexts (catalog : Catalog String) {budget : Nat} :
    (ofTexts catalog).Fits (budget + 1) := by
  refine .object fun member hmember => ?_
  obtain ⟨entry, -, rfl⟩ := List.mem_map.1 hmember
  exact .text entry.2

end Json

namespace Graph

/-! ### Vertices -/

section Node

variable (node : Node)

/-- What is to be shown of every member of a node is shown of each of them. -/
theorem Node.forall_members {motive : String × Value → Prop} (hid : motive ("id", .text node.id))
    (hannotations : motive ("annotations", .ofTexts node.annotations)) :
    ∀ pair ∈ node.members, motive pair := by
  simp only [members, List.forall_mem_cons]
  exact ⟨hid, hannotations, nofun⟩

/-- The members of a node have a spelling, -/
theorem Node.isSpelt_members : ∀ pair ∈ node.members, pair.2.IsSpelt :=
  node.forall_members (.text _) (Value.isSpelt_ofTexts _)

/-- and each is a field that its reader knows. -/
theorem Node.isField_members : ∀ pair ∈ node.members, IsField Node.fields pair := by
  refine node.forall_members ?_ ?_
  · exact ⟨_, rfl, (reads_text node.id).field _⟩
  · exact ⟨_, rfl, (reads_ofTexts node.annotations).field _⟩

/-- A node is made of its members, wherever they start. -/
theorem Node.ofStarts_startsAt {starts : Starts} (h : List.Forall₂ StartsAt node.members starts) :
    ofStarts starts = .ok node := by
  have hid : starts.get "id" readString = .ok node.id := get_startsAt h rfl (reads_text node.id)
  have hannotations : starts.get "annotations" readStrings = .ok node.annotations :=
    get_startsAt h rfl (reads_ofTexts node.annotations)
  rw [ofStarts, hid]
  simp only [hannotations]
  rfl

end Node

namespace Vertex

variable (vertex : Vertex)

/-- A vertex is written as a value that has a spelling. -/
theorem isSpelt_toJson : vertex.toJson.IsSpelt :=
  .object (List.forall_mem_cons.2 ⟨.text vertex.kind.label, vertex.toNode.isSpelt_members⟩)

/-- **A vertex is read from its written form.** -/
theorem reads_toJson : Reads reader vertex.toJson vertex := by
  intro start hstart
  -- The kind is taken as a tag, and then the fields from what was kept besides.
  have hname : vertex.kind.label ∈ VertexKind.all.map VertexKind.label := by
    cases vertex.kind <;> decide
  have hkind : VertexKind.ofLabel? vertex.kind.label = some vertex.kind := by
    cases vertex.kind <;> rfl
  have hothers : ∀ pair ∈ vertex.toNode.members, pair.1 ≠ "kind" := by
    simp [Node.members]
  have hfits : ∀ pair ∈ vertex.toNode.members, pair.2.Fits (depthLimit - 1) :=
    vertex.toNode.forall_members (.text _) (Value.fits_ofTexts _)
  obtain ⟨parts, htagged, hwritten⟩ := readTagged_of_startsWith hstart hname hothers hfits
  have hkeys : (vertex.toNode.members.map (·.1)).Nodup := by
    simp [Node.members]
  obtain ⟨starts, hstarts, hat⟩ := exists_takeFields hwritten vertex.toNode.isField_members hkeys
  unfold reader
  simp only [htagged, hkind, Tagged.record, hstarts, vertex.toNode.ofStarts_startsAt hat]
  rfl

end Vertex

/-! ### Edges -/

/-- The four fields of an edge have different names, whatever the names of its ends are. -/
theorem Relation.nodup_fields (relation : Relation) : (relation.fields.map Field.name).Nodup := by
  cases relation <;> decide

/-- None of them has the name that tells the relation. -/
theorem Relation.kind_notMem_fields (relation : Relation) :
    "kind" ∉ relation.fields.map Field.name := by
  cases relation <;> decide

namespace Edge

variable (edge : Edge)

/-- The members of an edge besides its relation. -/
def members : List (String × Value) :=
  [("id", .text edge.id), (edge.relation.sourceField, .text edge.source),
    (edge.relation.destinationField, .text edge.destination),
    ("annotations", .ofTexts edge.annotations)]

/-- What is to be shown of every member of an edge is shown of each of them. -/
theorem forall_members {motive : String × Value → Prop} (hid : motive ("id", .text edge.id))
    (hsource : motive (edge.relation.sourceField, .text edge.source))
    (hdestination : motive (edge.relation.destinationField, .text edge.destination))
    (hannotations : motive ("annotations", .ofTexts edge.annotations)) :
    ∀ pair ∈ edge.members, motive pair := by
  simp only [members, List.forall_mem_cons]
  exact ⟨hid, hsource, hdestination, hannotations, nofun⟩

/-- An edge is written as a value that has a spelling. -/
theorem isSpelt_toJson : edge.toJson.IsSpelt :=
  .object (List.forall_mem_cons.2 ⟨.text edge.relation.label,
    edge.forall_members (.text _) (.text _) (.text _) (Value.isSpelt_ofTexts _)⟩)

/-- Each member of an edge is a field that the reader of its relation knows. -/
theorem isField_members : ∀ pair ∈ edge.members, IsField edge.relation.fields pair := by
  have hnames := edge.relation.nodup_fields
  refine edge.forall_members ?_ ?_ ?_ ?_
  · exact isField_of_mem hnames (by simp [Relation.fields]) (reads_text edge.id)
  · exact isField_of_mem hnames (by simp [Relation.fields]) (reads_text edge.source)
  · exact isField_of_mem hnames (by simp [Relation.fields]) (reads_text edge.destination)
  · exact isField_of_mem hnames (by simp [Relation.fields]) (reads_ofTexts edge.annotations)

/-- An edge is made of its members, wherever they start. -/
theorem ofStarts_startsAt {starts : Starts} (h : List.Forall₂ StartsAt edge.members starts) :
    ofStarts edge.relation starts = .ok edge := by
  obtain ⟨relation, id, source, destination, annotations⟩ := edge
  have hid : starts.get "id" readString = .ok id := get_startsAt h rfl (reads_text id)
  -- Either end is under the name that the relation has for it.
  have hsource : starts.get relation.sourceField readString = .ok source :=
    get_startsAt h (by cases relation <;> rfl) (reads_text source)
  have hdestination : starts.get relation.destinationField readString = .ok destination :=
    get_startsAt h (by cases relation <;> rfl) (reads_text destination)
  have hannotations : starts.get "annotations" readStrings = .ok annotations :=
    get_startsAt h (by cases relation <;> rfl) (reads_ofTexts annotations)
  simp only [ofStarts, hid, hsource, hdestination, hannotations, bind, Except.bind]
  rfl

/-- **An edge is read from its written form.** -/
theorem reads_toJson : Reads reader edge.toJson edge := by
  intro start hstart
  have hname : edge.relation.label ∈ Relation.all.map Relation.label := by
    cases edge.relation <;> decide
  have hrelation : Relation.ofLabel? edge.relation.label = some edge.relation := by
    cases edge.relation <;> rfl
  -- No field is called `kind`, so the tag is told from the fields.
  have hothers : ∀ pair ∈ edge.members, pair.1 ≠ "kind" := by
    intro pair hpair hkind
    exact edge.relation.kind_notMem_fields (hkind ▸ List.mem_map_of_mem hpair)
  have hfits : ∀ pair ∈ edge.members, pair.2.Fits (depthLimit - 1) :=
    edge.forall_members (.text _) (.text _) (.text _) (Value.fits_ofTexts _)
  have hkeys : (edge.members.map (·.1)).Nodup := edge.relation.nodup_fields
  obtain ⟨parts, htagged, hwritten⟩ := readTagged_of_startsWith hstart hname hothers hfits
  obtain ⟨starts, hstarts, hat⟩ := exists_takeFields hwritten edge.isField_members hkeys
  unfold reader
  simp only [htagged, hrelation, Tagged.record, hstarts, edge.ofStarts_startsAt hat]

end Edge

/-! ### Endpoints -/

namespace Endpoint

variable (endpoint : Endpoint)

/-- An endpoint is written as a value that has a spelling. -/
theorem isSpelt_toJson : endpoint.toJson.IsSpelt :=
  .object (List.forall_mem_singleton.2 (.text endpoint.id))

/-- **An endpoint is read from its written form.** -/
theorem reads_toJson : Reads reader endpoint.toJson endpoint := by
  obtain ⟨kind, id⟩ := endpoint
  -- An endpoint is its kind, and the id is what the kind is chosen with.
  cases kind <;> exact reads_choice_object rfl ((reads_text id).map _)

end Endpoint

/-! ### Records -/

namespace Record

/-- The members that a record is written with. -/
def members (record : Record) : List (String × Value) :=
  [("kind", .text record.kind), ("hash", .text record.hash)] ++
    optionalMember "sourceVertexHash" record.source ++
    optionalMember "destinationVertexHash" record.destination ++
    [("annotations", .ofTexts record.annotations)]

/-- An absent text is no member, and one that is there is the only one. -/
theorem mem_optionalMember {key : String} {text : Option String} {pair : String × Value} :
    pair ∈ optionalMember key text ↔
      ∃ content, text = some content ∧ pair = (key, .text content) := by
  cases text <;> simp [optionalMember]

variable (record : Record)

/-- What is to be shown of every member of a record is shown of each of them. -/
theorem forall_members {motive : String × Value → Prop} (hkind : motive ("kind", .text record.kind))
    (hhash : motive ("hash", .text record.hash))
    (hsource : ∀ content, motive ("sourceVertexHash", .text content))
    (hdestination : ∀ content, motive ("destinationVertexHash", .text content))
    (hannotations : motive ("annotations", .ofTexts record.annotations)) :
    ∀ pair ∈ record.members, motive pair := by
  intro pair hmem
  simp only [members, List.mem_append, List.mem_cons, List.not_mem_nil, or_false,
    mem_optionalMember] at hmem
  -- The members in their order; an end is there only if it has a text.
  rcases hmem with (((rfl | rfl) | ⟨content, -, rfl⟩) | ⟨content, -, rfl⟩) | rfl
  · exact hkind
  · exact hhash
  · exact hsource content
  · exact hdestination content
  · exact hannotations

/-- A record is written as a value that has a spelling. -/
theorem isSpelt_toJson : record.toJson.IsSpelt :=
  .object (record.forall_members (.text _) (.text _) .text .text (Value.isSpelt_ofTexts _))

/-- Each member of a record is a field that its reader knows. -/
theorem isField_members : ∀ pair ∈ record.members, IsField fields pair := by
  refine record.forall_members ?_ ?_ ?_ ?_ ?_
  · exact ⟨_, rfl, (reads_text record.kind).field _⟩
  · exact ⟨_, rfl, (reads_text record.hash).field _⟩
  · exact fun content => ⟨_, rfl, (reads_text_orNull content).field _⟩
  · exact fun content => ⟨_, rfl, (reads_text_orNull content).field _⟩
  · exact ⟨_, rfl, (reads_ofTexts record.annotations).field _⟩

/-- The members of a record have different keys. -/
theorem nodup_members : (record.members.map (·.1)).Nodup := by
  obtain ⟨kind, hash, source, destination, annotations⟩ := record
  -- There are three to five of them.
  cases source <;> cases destination <;> simp [members, optionalMember]

/-- Among them an end is found just if the record has it. -/
theorem lookup_members : record.members.lookup "sourceVertexHash" = record.source.map .text ∧
    record.members.lookup "destinationVertexHash" = record.destination.map .text ∧
    record.members.lookup "annotations" = some (.ofTexts record.annotations) := by
  obtain ⟨kind, hash, source, destination, annotations⟩ := record
  cases source <;> cases destination <;> exact ⟨rfl, rfl, rfl⟩

/-- **A record is read from its written form**, whatever texts it holds. -/
theorem reads_toJson : Reads reader record.toJson record := by
  intro start hstart
  obtain ⟨starts, hstarts, hat⟩ :=
    readRecord_of_startsWith hstart record.isField_members record.nodup_members
  obtain ⟨hlookupSource, hlookupDestination, hlookupAnnotations⟩ := record.lookup_members
  have hkind : starts.get "kind" readString = .ok record.kind :=
    get_startsAt hat rfl (reads_text record.kind)
  have hhash : starts.get "hash" readString = .ok record.hash :=
    get_startsAt hat rfl (reads_text record.hash)
  -- An end that is absent is not written, and what is not written is read as absent.
  have hsource : starts.getOr "sourceVertexHash" none readStringOrNull = .ok record.source :=
    getOr_startsAt hat hlookupSource
  have hdestination : starts.getOr "destinationVertexHash" none readStringOrNull =
      .ok record.destination :=
    getOr_startsAt hat hlookupDestination
  have hannotations : starts.get "annotations" readStrings = .ok record.annotations :=
    get_startsAt hat hlookupAnnotations (reads_ofTexts record.annotations)
  simp only [reader, hstarts, bind, Except.bind, hkind, hhash, hsource, hdestination, hannotations]
  rfl

/-- A record is decoded from what it is written as. -/
theorem decode_toJson : decode reader record.toJson.render = .ok record :=
  record.reads_toJson.decode_eq record.isSpelt_toJson

/-- A written record takes one line. -/
theorem newline_notMem_render : '\n' ∉ record.toJson.render := by
  intro hmem
  exact absurd (record.isSpelt_toJson.isPrintable_render _ hmem) (by decide)

/-- And so do its bytes. -/
theorem lineEnd_notMem_encode : 0x0A ∉ Text.Utf8.encode record.toJson.compact ∧
    0x0D ∉ Text.Utf8.encode record.toJson.compact := by
  -- A byte of a single character is the character, so a control byte would come from a control
  -- character.
  have hprintable {b : UInt8} (hb : b.toNat < 0x20) :
      b ∉ Text.Utf8.encode record.toJson.compact := by
    intro hmem
    obtain ⟨c, hc, hcode⟩ := Text.Utf8.exists_of_mem_encode hmem (Nat.lt_trans hb (by decide))
    rw [Value.compact, String.toList_ofList] at hc
    have hcontrol := record.isSpelt_toJson.isPrintable_render c hc
    rw [isControl, hcode, decide_eq_false_iff_not] at hcontrol
    exact hcontrol hb
  exact ⟨hprintable (by decide), hprintable (by decide)⟩

end Record

/-! ### Elements -/

/-- Different elements have different records: an edge has ends, and a vertex has none. -/
theorem Element.record_injective {a b : Element} (h : a.record = b.record) : a = b := by
  -- Elements of one sort are told apart field by field, since labels tell kinds and relations.
  cases a with
  | vertex v =>
    cases b with
    | vertex w =>
      obtain ⟨hkind, hid, -, -, hannotations⟩ := Record.mk.inj h
      obtain ⟨⟨id, annotations⟩, kind⟩ := v
      obtain ⟨⟨id', annotations'⟩, kind'⟩ := w
      obtain rfl := VertexKind.label_injective hkind
      subst hid hannotations
      rfl
    -- A vertex has no source.
    | edge e => exact nomatch (Record.mk.inj h).2.2.1
  | edge e =>
    cases b with
    | vertex w => exact nomatch (Record.mk.inj h).2.2.1
    | edge f =>
      obtain ⟨hlabel, hid, hsource, hdestination, hannotations⟩ := Record.mk.inj h
      obtain ⟨relation, id, source, destination, annotations⟩ := e
      obtain ⟨relation', id', source', destination', annotations'⟩ := f
      obtain rfl := Relation.label_injective hlabel
      obtain rfl := Option.some.inj hsource
      obtain rfl := Option.some.inj hdestination
      subst hid hannotations
      rfl

/-- What is written of a record tells it. -/
theorem Record.line_injective {a b : Record} (h : a.line = b.line) : a = b := by
  have hrender : a.toJson.render = b.toJson.render := by
    rw [line, line, String.append_left_inj] at h
    exact String.ofList_injective h
  -- One text is decoded as one record.
  have hdecode := a.decode_toJson
  rw [hrender, b.decode_toJson] at hdecode
  exact (Except.ok.inj hdecode).symm

end Graph

/-! ### Settings -/

/-- A port is read from its number, which is within its limit. -/
theorem reads_port (port : UInt16) : Reads readPort (.ofNat port.toNat) port := by
  have hport : port.toNat < 65536 := port.toNat_lt
  have hnat : Reads (readNatUpTo portLimit) (.ofNat port.toNat) port.toNat :=
    reads_ofNat (Nat.le_of_lt_succ hport) (by omega)
  -- The number is below `65536`, so nothing is lost when it is cut to a port.
  have hreads := hnat.map UInt16.ofNat
  rwa [UInt16.ofNat_toNat] at hreads

namespace Queue

variable (queue : Queue)

/-- **A queue is read from its written form.** -/
theorem reads_toJson : Reads reader queue.toJson queue := by
  intro start hstart
  have hfields : ∀ pair ∈ [("host", Value.text queue.host), ("port", .ofNat queue.port.toNat),
      ("queue_name", .text queue.queueName)],
      IsField [.of "host" readString, .of "port" readPort, .of "queue_name" readString] pair := by
    simp only [List.forall_mem_cons]
    exact ⟨⟨_, rfl, (reads_text _).field _⟩, ⟨_, rfl, (reads_port _).field _⟩,
      ⟨_, rfl, (reads_text _).field _⟩, nofun⟩
  obtain ⟨starts, hstarts, hat⟩ := readRecord_of_startsWith hstart hfields (by simp)
  have hhost : starts.get "host" readString = .ok queue.host := get_startsAt hat rfl (reads_text _)
  have hport : starts.get "port" readPort = .ok queue.port := get_startsAt hat rfl (reads_port _)
  have hname : starts.get "queue_name" readString = .ok queue.queueName :=
    get_startsAt hat rfl (reads_text _)
  simp only [reader, hstarts, bind, Except.bind, hhost, hport, hname]
  rfl

/-- A queue is written as a value that has a spelling. -/
theorem isSpelt_toJson : queue.toJson.IsSpelt := by
  refine .object ?_
  simp only [List.forall_mem_cons]
  exact ⟨.text _, Value.isSpelt_ofNat _, .text _, nofun⟩

end Queue

/-- **A retention is read from its written form.** -/
theorem Session.Retention.reads_toJson (retention : Session.Retention) :
    Reads reader retention.toJson retention := by
  cases retention <;> exact reads_choice_text rfl rfl

namespace Settings

variable (settings : Settings)

/-- **Settings are read from their written form.** -/
theorem reads_toJson : Reads reader settings.toJson settings := by
  intro start hstart
  have hfields : ∀ pair ∈ [("queue", settings.queue.toJson), ("history", settings.history.toJson)],
      IsField [.of "queue" Queue.reader, .of "history" Session.Retention.reader] pair := by
    simp only [List.forall_mem_cons]
    exact ⟨⟨_, rfl, settings.queue.reads_toJson.field _⟩,
      ⟨_, rfl, settings.history.reads_toJson.field _⟩, nofun⟩
  obtain ⟨starts, hstarts, hat⟩ := readRecord_of_startsWith hstart hfields (by simp)
  have hqueue : starts.get "queue" Queue.reader = .ok settings.queue :=
    get_startsAt hat rfl settings.queue.reads_toJson
  have hhistory : starts.get "history" Session.Retention.reader = .ok settings.history :=
    get_startsAt hat rfl settings.history.reads_toJson
  simp only [reader, hstarts, bind, Except.bind, hqueue, hhistory]
  rfl

/-- Settings are written as a value that has a spelling. -/
theorem isSpelt_toJson : settings.toJson.IsSpelt := by
  refine .object ?_
  simp only [List.forall_mem_cons]
  exact ⟨settings.queue.isSpelt_toJson, .text _, nofun⟩

end Settings

/-! ### All forms -/

/-- **Written forms lose nothing.** Vertices, edges, records and endpoints are decoded from
their written forms as what they were, whatever texts and annotations they hold, and so are
queues and settings. A record is written in bytes without a line end, so it takes one line, and
from such a line it is known which vertex or edge it is of: its kind, its id, the ids of its
ends and its annotations. -/
theorem forms_decode :
    IsLossless Graph.Vertex.toJson Graph.Vertex.reader ∧
      IsLossless Graph.Edge.toJson Graph.Edge.reader ∧
      IsLossless Graph.Record.toJson Graph.Record.reader ∧
      IsLossless Graph.Endpoint.toJson Graph.Endpoint.reader ∧
      IsLossless Queue.toJson Queue.reader ∧ IsLossless Settings.toJson Settings.reader ∧
      (∀ record : Graph.Record, 0x0A ∉ Text.Utf8.encode record.toJson.compact ∧
        0x0D ∉ Text.Utf8.encode record.toJson.compact) ∧
      ∀ a b : Graph.Element, a.record.line = b.record.line → a = b :=
  ⟨isLossless_of_reads Graph.Vertex.reads_toJson Graph.Vertex.isSpelt_toJson,
    isLossless_of_reads Graph.Edge.reads_toJson Graph.Edge.isSpelt_toJson,
    isLossless_of_reads Graph.Record.reads_toJson Graph.Record.isSpelt_toJson,
    isLossless_of_reads Graph.Endpoint.reads_toJson Graph.Endpoint.isSpelt_toJson,
    isLossless_of_reads Queue.reads_toJson Queue.isSpelt_toJson,
    isLossless_of_reads Settings.reads_toJson Settings.isSpelt_toJson,
    Graph.Record.lineEnd_notMem_encode,
    fun _ _ hline => Graph.Element.record_injective (Graph.Record.line_injective hline)⟩

end Lineage
