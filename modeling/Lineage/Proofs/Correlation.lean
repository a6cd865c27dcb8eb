import Lineage.Proofs.Attribution
import Lineage.Proofs.Ends
import Lineage.Proofs.Telling
import Lineage.Proofs.Tracking

/-!
# What is filed carries its key

A session files vertices for messages that come later: the agent and the activity of each device,
and the states of each cell. Messages look them up by their own fields, but devices and cells are
told by annotations, and those were written by earlier messages. The two agree in every session
(`Session.Correlates`). So where it is looked whether an activity is one of the device that it was
found under, it is, and no state is without the value that a new one is compared with.

For the devices this rests on `Session.Knows`. For the cells it is an invariant of the table,
whatever entities it is shown: one observation keeps it (`Session.CellTable.Observes.holdsOwn`), and
so do all (`HoldsOwn.observeAll`).

That a vertex has just the annotations that its message gives it (`Graph.Node.HasJust`) rests on the
keys, which are different for each kind of message. So a register never lacks what the table of
cells asks for, and no journal says that one did (`Recorder.correlation_run`).
-/

namespace Lineage

open Lineage.Graph Session Session.CellTable Telemetry

/-! ### The annotations of a vertex -/

/-- A node has just these annotations, and they are as many: no two of them are filed
under one key. -/
structure Graph.Node.HasJust (node : Node) (annotations : List (String × String)) : Prop where
  distinct : (annotations.map (·.1)).Nodup
  entries : node.annotations.entries.Perm annotations

/-- **Nothing that a message says is overwritten**, and nothing else is said of its vertex. -/
theorem Telemetry.Message.hasJust_node {message : Message} (h : message.WellFormed) (index : Nat) :
    (message.node index).HasJust message.annotations :=
  ⟨nodup_annotations h, Catalog.entries_insertAll_perm .empty (nodup_annotations h)⟩

/-- An entity that is about a cell and has a value is taken in by every table of cells. -/
theorem Session.CellTable.observe_of_sighted (table : CellTable) (operation : Operation)
    {entity : Node} {cell : Cell} (h : sighted? entity = some cell) :
    (table.observe operation entity).2 ≠ .noCell ∧
      (table.observe operation entity).2 ≠ .noValue := by
  obtain ⟨value, hvalue⟩ := Option.isSome_iff_exists.1 (sighted?_eq_some_iff.1 h).2.2.2
  -- The table finds the cell and the value, so it is past both of the places where it would miss
  -- one.
  simp only [observe, ofNode?_of_sighted h, hvalue]
  split
  · exact ⟨nofun, nofun⟩
  · split <;> exact ⟨nofun, nofun⟩

namespace Announcement

/-- The vertex of a message has the annotations of its header, of its type and, if it is an entity,
of what was done to it and of its payload, and no others. A register is about the cell at the index
in its payload, and no table of cells misses anything of it. -/
structure Annotated (a : Announcement) : Prop where
  agent : ∀ header agentType, a.message = .agent header agentType → a.node.HasJust
    [(Key.name, header.name), (Key.agentId, header.agentId), (Key.timestamp, header.timestamp),
      (Key.agentType, agentType)]
  activity : ∀ header activityType, a.message = .activity header activityType → a.node.HasJust
    [(Key.name, header.name), (Key.agentId, header.agentId), (Key.timestamp, header.timestamp),
      (Key.activityType, activityType)]
  entity : ∀ header entityType operation payload,
    a.message = .entity header entityType operation payload →
    a.node.HasJust ([(Key.name, header.name), (Key.agentId, header.agentId),
      (Key.timestamp, header.timestamp), (Key.entityType, entityType),
      (Key.operation, operation.tag)] ++ payload.attributes)
  register : ∀ header entityType operation payload,
    a.message = .entity header entityType operation payload →
    (EntityKind.ofTag entityType).isStateful = true → ∃ index,
      payload.attributes.lookup Key.index = some index ∧
      Cell.ofNode? a.node = some ⟨header.name, header.agentId, index⟩ ∧
      ∀ (table : CellTable) (seen : Operation), (table.observe seen a.node).2 ≠ .noCell ∧
        (table.observe seen a.node).2 ≠ .noValue

/-- **Every vertex is annotated as its message says**, if the message is well formed. -/
theorem annotated {a : Announcement} (h : a.message.WellFormed) : a.Annotated := by
  have hjust : a.node.HasJust a.message.annotations := Message.hasJust_node h a.index
  constructor
  · rintro header agentType hmessage
    rwa [hmessage] at hjust
  · rintro header activityType hmessage
    rwa [hmessage] at hjust
  · rintro header entityType operation payload hmessage
    rwa [hmessage] at hjust
  · rintro header entityType operation payload hmessage hstate
    obtain ⟨index, value, hattributes⟩ := Message.attributes_of_isStateful (hmessage ▸ h) hstate
    have hindex : payload.attributes.lookup Key.index = some index := by
      rw [hattributes]
      rfl
    -- The cell that the message names is the one that its entity is seen to be about.
    have hcell : a.cell? = some ⟨header.name, header.agentId, index⟩ := by
      rw [cell?, hmessage, Message.cell?, if_pos hstate, hindex]
      rfl
    have htells := tells_of_cell? h hcell
    exact ⟨index, hindex, htells.ofNode?_eq,
      fun table seen => table.observe_of_sighted seen htells.sighted⟩

end Announcement

/-! ### The states of a cell -/

/-- What is kept of a history and one more state was kept before, or is that state. -/
theorem Session.History.mem_push {history : History} {retention : Retention} {entity state : Node}
    (h : state ∈ (history.push retention entity).toList) :
    state ∈ history.toList ∨ state = entity := by
  cases retention with
  | full => exact (List.mem_append.1 h).imp_right List.mem_singleton.1
  -- Only the new state is left.
  | latestOnly => exact .inr (List.mem_singleton.1 h)

namespace Session.CellTable

/-- Every state is about the cell under which it is filed, and has a value. -/
def HoldsOwn (table : CellTable) : Prop :=
  ∀ entry ∈ table.entries, ∀ state ∈ entry.2.toList, sighted? state = some entry.1

/-- Nothing is filed at the start. -/
theorem holdsOwn_empty (retention : Retention) : (empty retention).HoldsOwn :=
  fun _ hentry => absurd hentry List.not_mem_nil

section HoldsOwn

variable {table : CellTable} {cell : Cell} {history : History}

/-- The history of a cell is one of states of the cell. -/
theorem HoldsOwn.of_history? (h : table.HoldsOwn) (hknown : table.history? cell = some history) :
    ∀ state ∈ history.toList, sighted? state = some cell := by
  obtain ⟨entry, hentry, rfl⟩ := Option.map_eq_some_iff.1 hknown
  have hcell : entry.1 = cell := by simpa using List.find?_some hentry
  exact hcell ▸ h entry (List.mem_of_find?_eq_some hentry)

/-- Filing states of a cell under it leaves the other entries as they are. -/
theorem HoldsOwn.put (h : table.HoldsOwn)
    (hown : ∀ state ∈ history.toList, sighted? state = some cell) :
    (table.put cell history).HoldsOwn := by
  intro entry hentry
  rcases mem_putByKey hentry with rfl | hentry
  · exact hown
  · exact h entry hentry

/-- **What is filed under a cell is about the cell**, also after one more observation: just the
entities that are about a cell are filed under it. -/
theorem Observes.holdsOwn {operation : Operation} {entity : Node} {next : CellTable}
    {change : Option (Cell × Change)} (hobserves : Observes table operation entity next change)
    (h : table.HoldsOwn) : next.HoldsOwn := by
  cases hobserves with
  | overlooked hsighted => exact h
  | seeded hsighted hnew =>
    refine h.put fun state hstate => ?_
    obtain rfl := List.mem_singleton.1 hstate
    exact hsighted
  | changed hsighted hknown hwrite hvalue =>
    refine h.put fun state hstate => ?_
    -- What was filed before, and the entity, which is about this cell.
    rcases History.mem_push hstate with hbefore | rfl
    · exact h.of_history? hknown state hbefore
    · exact hsighted
  | unchanged hsighted hknown hsame => exact h

/-- The same of any row of observations. -/
theorem HoldsOwn.observeAll (h : table.HoldsOwn) (observations : List (Operation × Node)) :
    (table.observeAll observations).HoldsOwn := by
  induction observations generalizing table with
  | nil => exact h
  | cons observation observations ih =>
    exact ih ((table.observes observation.1 observation.2).holdsOwn h)

end HoldsOwn

end Session.CellTable

/-! ### What a session has filed -/

namespace Session

/-- What a session has filed carries the key under which it is filed. -/
structure Correlates (session : Session) (announced : List Announcement) : Prop where
  /-- The agent of a device is the last one that it announced. -/
  agentOf? : ∀ agentId, session.registry.agentOf? agentId =
    (lastOf (Message.isAgentOf agentId) announced).map Announcement.node
  /-- The activity of a device is the last one that it announced. -/
  activityOf? : ∀ agentId, session.registry.activityOf? agentId =
    (lastOf (Message.isActivityOf agentId) announced).map Announcement.node
  agent : ∀ agentId node, session.registry.agentOf? agentId = some node →
    node.get? Key.agentId = some agentId
  activity : ∀ agentId node, session.registry.activityOf? agentId = some node →
    node.get? Key.agentId = some agentId
  /-- No activity is turned away for its annotations. -/
  cause : ∀ agentId, causeFor? session.registry agentId = session.registry.activityOf? agentId
  known : ∀ entry ∈ session.cells.entries, entry.2.toList ≠ []
  states : ∀ entry ∈ session.cells.entries, ∀ state ∈ entry.2.toList,
    state.get? Key.name = some entry.1.name ∧ state.get? Key.agentId = some entry.1.agentId ∧
      state.get? Key.index = some entry.1.index ∧ (state.get? Key.value).isSome = true

/-- **What a session has filed carries its key** after any messages that are well formed. -/
theorem correlates_after (retention : Retention) {inputs : List (Except MessageError Message)}
    (hwell : ∀ message, .ok message ∈ inputs → message.WellFormed) :
    ((start retention).after inputs).Correlates (announcementsFrom 0 inputs) := by
  have hknows := knows_after retention hwell
  have hcells : ((start retention).after inputs).cells.HoldsOwn := by
    -- The cells are those of all that was observed, starting from an empty table.
    rw [cells_after]
    exact (holdsOwn_empty retention).observeAll _
  constructor
  case agentOf? => exact hknows.agentOf?
  case activityOf? => exact hknows.activityOf?
  case agent => exact fun agentId node => hknows.get?_agentId_agent
  case activity => exact fun agentId node => hknows.get?_agentId_activity
  case cause => exact hknows.causeFor?_eq
  case known => exact fun entry _ => List.concat_ne_nil _ _
  case states =>
    exact fun entry hentry state hstate => sighted?_eq_some_iff.1 (hcells entry hentry state hstate)

/-- Only an entity without a cell is told of as one. -/
theorem Observation.eq_noCell_of_event? {observation : Observation} {entity : Node} {id : String}
    (h : observation.event? entity = some (.noCell id)) : observation = .noCell := by
  cases observation with
  | noCell => rfl
  | noValue | seeded | unchanged => cases h
  | changed cell change => cases h

/-- No entity of a well-formed message is told of as one without a cell. -/
theorem noCell_notMem_told (session : Session) {message : Message} (hwell : message.WellFormed)
    (id : String) :
    .noCell id ∉ (session.receive (.ok message)).effects.filterMap Effect.event? := by
  rw [told_receive, notesFor, List.mem_append, List.mem_append, List.mem_singleton,
    Option.mem_toList, Option.mem_toList]
  rintro ((hcell | hmissing) | hdispatched)
  · -- The table is shown the entity of the message only if it is about a cell, and
    -- then it misses nothing.
    obtain ⟨observation, hshown, hevent⟩ := Option.bind_eq_some_iff.1 hcell
    rcases Announcement.tells_or_none
      (show (session.announcing message).message.WellFormed from hwell) with
      ⟨cell, htells⟩ | ⟨-, hunseen⟩
    · obtain rfl := Option.some.inj (hshown.symm.trans htells.observation?_eq)
      have htaken :=
        session.cells.observe_of_sighted (session.announcing message).observed.1 htells.sighted
      exact htaken.1 (Observation.eq_noCell_of_event? hevent)
    · exact absurd (hshown.symm.trans hunseen) (by simp)
  · -- The other notes of a message are other events.
    cases (Option.ite_none_right_eq_some.1 hmissing).2
  · cases hdispatched

end Session

/-! ### Journals -/

namespace Recorder

variable {σ : Type} [Sink σ] (recorder : Recorder σ)

section Processing

variable (spans : List Span) {decoded : Except MessageError Message}

/-- So no journal of a message says that a register had no cell. -/
theorem noCell_notMem_dispatchIn (hwell : ∀ message, decoded = .ok message → message.WellFormed)
    (id : String) : .noCell id ∉ (recorder.dispatchIn spans decoded).journal.map Entry.event := by
  intro hmem
  have hevents : (recorder.dispatchIn spans decoded).journal.map Entry.event =
      (Effect.performAll recorder.sink (recorder.session.receive decoded).effects).2 :=
    (List.map_map ..).trans (List.map_id _)
  rw [hevents] at hmem
  -- It is no refusal, so it is the session that has told it.
  have hkept : .noCell id ∈ (Effect.performAll recorder.sink
      (recorder.session.receive decoded).effects).2.filter fun event => !event.isRefusal :=
    List.mem_filter.2 ⟨hmem, rfl⟩
  rw [Effect.filter_performAll_snd] at hkept
  cases decoded with
  | error error => exact absurd hkept List.not_mem_nil
  | ok message =>
    exact recorder.session.noCell_notMem_told (hwell message rfl) id (List.mem_filter.1 hkept).1

/-- A refusal tells of its own event besides, which is another one. -/
theorem noCell_notMem_processIn (hwell : ∀ message, decoded = .ok message → message.WellFormed)
    (id : String) : .noCell id ∉ (recorder.processIn spans decoded).journal.map Entry.event := by
  have hdispatch := recorder.noCell_notMem_dispatchIn (spans ++ [recorder.spanFor decoded]) hwell id
  rw [processIn]
  cases (recorder.dispatchIn (spans ++ [recorder.spanFor decoded]) decoded).result with
  | ok outcome => exact hdispatch
  | error error =>
    rw [List.map_append, List.mem_append]
    rintro (hmem | hmem)
    · exact hdispatch hmem
    · cases List.mem_singleton.1 hmem

end Processing

/-- Every call is one of the two. -/
theorem noCell_notMem_perform (call : Call) (id : String) :
    .noCell id ∉ (recorder.perform call).journal.map Entry.event := by
  have hwell : ∀ message, call.input = .ok message → message.WellFormed :=
    fun _ h => Call.wellFormed_of_input h
  cases call with
  | dispatch line => exact recorder.noCell_notMem_dispatchIn [] hwell id
  | process line => exact recorder.noCell_notMem_processIn [] hwell id
  | processBytes raw => exact recorder.noCell_notMem_processIn [] hwell id

/-- No journal tells of a register without a cell. -/
theorem noCell_notMem_run (calls : List Call) (id : String) :
    .noCell id ∉ (recorder.run calls).journal.map Entry.event := by
  induction calls generalizing recorder with
  | nil => exact List.not_mem_nil
  | cons call calls ih =>
    rw [run, List.map_append, List.mem_append]
    exact fun hmem => hmem.elim (recorder.noCell_notMem_perform call id) (ih _)

end Recorder

/-- **What is filed carries its key**, whatever sink there is. After any calls the agent and the
activity that are known of a device are the last ones that it announced, and they carry its id;
every cell that is known has a state, and all of its states carry the name, the device and the index
of the cell and have a value. The vertices that were submitted are those of the messages that were
taken in, and each of them has just the annotations that its message gives it. So a register is
about the cell that its message names, and nothing is missing when it is looked for a change. -/
theorem Recorder.correlation_run {σ : Type} [Sink σ] (retention : Retention) (sink : σ)
    (calls : List Call) :
    ((start retention sink).run calls).recorder.session.Correlates
        (announcementsFrom 0 (calls.map Call.input)) ∧
      (submitted retention sink calls).filterMap Element.vertex? =
        (announcementsFrom 0 (calls.map Call.input)).map Announcement.vertex ∧
      (∀ a ∈ announcementsFrom 0 (calls.map Call.input), a.Annotated) ∧
      ∀ id, .noCell id ∉ ((start retention sink).run calls).journal.map Entry.event := by
  have hwell : ∀ message, .ok message ∈ calls.map Call.input → message.WellFormed :=
    fun message hmem => Call.wellFormed_of_mem hmem
  -- The registry and the cells follow from the session, the vertices from what it submits.
  refine ⟨?_, ?_, fun a ha => Announcement.annotated
    (hwell a.message (mem_of_mem_announcementsFrom ha)), noCell_notMem_run _ calls⟩
  · rw [session_run]
    exact correlates_after retention hwell
  · rw [submitted_eq]
    exact vertices_submissions (Session.start retention) _

/-- A register that is written behind an activity of its device is filed with the index in its
payload, and the activity under the id of the device. -/
theorem Recorder.correlation_run_register :
    let calls : List Call := [.process "ACTIVITY|ingress|s1|1|PacketProcessor",
      .process "ENTITY|R1|s1|2|Register|WRITE|\x7b\"index\":1,\"value\":5\x7d"]
    let session := ((start .full Document.empty).run calls).recorder.session
    let activity : Announcement := ⟨.activity ⟨"ingress", "s1", "1"⟩ "PacketProcessor", 0⟩
    let register : Announcement :=
      ⟨.entity ⟨"R1", "s1", "2"⟩ "Register" .write ⟨.register, [("index", "1"), ("value", "5")]⟩, 1⟩
    session.registry.activityOf? "s1" = some activity.node ∧
      activity.node.get? Key.agentId = some "s1" ∧
      (⟨"R1", "s1", "1"⟩, .single register.node) ∈ session.cells.entries ∧
      register.node.get? Key.index = some "1" ∧ (register.node.get? Key.value).isSome = true ∧
      register.node.HasJust [("name", "R1"), ("agent_id", "s1"), ("timestamp", "2"),
        ("entity_type", "Register"), ("operation", "WRITE"), ("index", "1"), ("value", "5")] ∧
      ∀ table : CellTable, (table.observe .write register.node).2 ≠ .noCell := by
  intro calls session activity register
  obtain ⟨hfiled, -, hannotated, -⟩ := correlation_run .full Document.empty calls
  -- The two lines are decoded once, and all the rest goes by the messages.
  have hinputs : calls.map Call.input = [.ok activity.message, .ok register.message] := by
    decide +kernel
  have hsession : session =
      (Session.start .full).after [.ok activity.message, .ok register.message] := by
    rw [← hinputs]
    exact session_run _ _
  have hactivity : session.registry.activityOf? "s1" = some activity.node := by
    rw [hsession]
    decide +kernel
  have hstate : (⟨"R1", "s1", "1"⟩, .single register.node) ∈ session.cells.entries := by
    rw [hsession]
    decide +kernel
  have hregister : register ∈ announcementsFrom 0 (calls.map Call.input) := by
    rw [hinputs]
    decide
  obtain ⟨-, -, hindex, hvalue⟩ := hfiled.states _ hstate register.node (by decide)
  obtain ⟨index, -, -, htaken⟩ := (hannotated _ hregister).register _ _ _ _ rfl (by decide)
  exact ⟨hactivity, hfiled.activity "s1" activity.node hactivity, hstate, hindex, hvalue,
    (hannotated _ hregister).entity _ _ _ _ rfl, fun table => (htaken table .write).1⟩

end Lineage
