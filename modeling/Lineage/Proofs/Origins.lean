import Lineage.Proofs.Observations

/-!
# What a session knows was announced

The registry and the table of cells hold nodes. Each of them is the vertex of a message that was
taken in, and which one can be said from the messages alone: the agent that is known of a device is
the one that it announced last, and so is its activity (`lastOf`); the latest state of a cell was
told by a message about that cell. This is the invariant `Session.Knows`, which a message keeps
(`Session.Knows.receive`) and so every session has that was started afresh (`Session.knows_after`).

So the ends of every edge are vertices that were announced, both by the device of the message that
the edge came of (`Session.Knows.edgesFor`): no edge of a run joins two devices
(`Session.announces_ends_edges`).
-/

namespace Lineage

open Lineage.Graph Session Session.CellTable Telemetry

/-! ### The last announcement of a kind -/

/-- The last announcement of some sort. -/
def lastOf (sort : Message → Bool) (announced : List Announcement) : Option Announcement :=
  (announced.filter fun a => sort a.message).getLast?

section LastOf

variable {sort : Message → Bool} {announced : List Announcement}

/-- What is announced now is the last one of its sort. -/
theorem lastOf_append_singleton (a : Announcement) :
    lastOf sort (announced ++ [a]) = if sort a.message then some a else lastOf sort announced := by
  rw [lastOf, List.filter_append]
  by_cases hsort : sort a.message = true
  · simp [hsort]
  · simp [hsort, lastOf]

/-- The last announcement of a sort is one of the announcements, and of that sort. -/
theorem mem_of_lastOf {a : Announcement} (h : lastOf sort announced = some a) :
    a ∈ announced ∧ sort a.message = true :=
  List.mem_filter.1 (List.mem_of_getLast? h)

end LastOf

namespace Telemetry.Message

/-- An agent of a device is a message with that event and the id of the device. -/
theorem isAgentOf_iff {agentId : String} {message : Message} :
    message.isAgentOf agentId = true ↔
      message.event = .agent ∧ message.header.agentId = agentId := by
  cases message <;> simp [isAgentOf, event, header]

/-- And so is an activity. -/
theorem isActivityOf_iff {agentId : String} {message : Message} :
    message.isActivityOf agentId = true ↔
      message.event = .activity ∧ message.header.agentId = agentId := by
  cases message <;> simp [isActivityOf, event, header]

/-- The stem of an activity is that of its device. -/
theorem stem_of_activity {message : Message} (h : message.event.vertexKind = .activity) :
    message.stem = "activity:" ++ message.header.agentId := by
  cases message with
  | activity header activityType => rfl
  | agent header agentType => exact nomatch h
  | entity header entityType operation payload => exact nomatch h

end Telemetry.Message

/-! ### Vertices that a device announced -/

/-- Whether an end of an edge is a vertex that a device announced. -/
def Announces (announced : List Announcement) (agentId : String) (endpoint : Endpoint) : Prop :=
  ∃ a ∈ announced, a.agentId = agentId ∧ a.vertex.endpoint = endpoint

section Announces

variable {announced : List Announcement} {agentId : String}

/-- What was announced stays announced. -/
theorem Announces.append {endpoint : Endpoint} (h : Announces announced agentId endpoint)
    (later : List Announcement) : Announces (announced ++ later) agentId endpoint := by
  obtain ⟨a, ha, hagent, hendpoint⟩ := h
  exact ⟨a, List.mem_append_left _ ha, hagent, hendpoint⟩

/-- An activity is announced by one device only: its id tells which. -/
theorem Announces.device_eq {announced' : List Announcement} {agentId' id : String}
    (h : Announces announced agentId ⟨.activity, id⟩)
    (h' : Announces announced' agentId' ⟨.activity, id⟩) : agentId = agentId' := by
  obtain ⟨a, -, rfl, hend⟩ := h
  obtain ⟨b, -, rfl, hend'⟩ := h'
  have hid : a.node.id = b.node.id :=
    (congrArg Endpoint.id hend).trans (congrArg Endpoint.id hend').symm
  -- Behind its first letters the stem of an activity is the id of its device, colons or not.
  have hstems := (Message.vertexId_inj hid).1
  rw [Message.stem_of_activity (congrArg Endpoint.kind hend),
    Message.stem_of_activity (congrArg Endpoint.kind hend')] at hstems
  have hlists := congrArg String.toList hstems
  simp only [String.toList_append] at hlists
  exact String.toList_injective (List.append_cancel_left hlists)

end Announces

namespace Session

/-! ### The invariant -/

/-- What a session knows was announced, and it was announced by the device under which it is
known. -/
structure Knows (session : Session) (announced : List Announcement) : Prop where
  vertices : session.numbering.vertices = announced.length
  old : ∀ a ∈ announced, a.index < session.numbering.vertices
  agentOf? : ∀ agentId, session.registry.agentOf? agentId =
    (lastOf (Message.isAgentOf agentId) announced).map Announcement.node
  activityOf? : ∀ agentId, session.registry.activityOf? agentId =
    (lastOf (Message.isActivityOf agentId) announced).map Announcement.node
  marked : ∀ id, session.registry.isAssociated id = true →
    ∃ agentId, Announces announced agentId ⟨.activity, id⟩
  latest? : ∀ cell state, session.cells.latest? cell = some state →
    ∃ a ∈ announced, a.Tells cell ∧ a.node = state

/-- At the start there is nothing to be known. -/
theorem Knows.initial (retention : Retention) : (start retention).Knows [] where
  vertices := rfl
  old := fun _ h => absurd h (by simp)
  agentOf? := fun _ => rfl
  activityOf? := fun _ => rfl
  marked := fun _ h => absurd h (by simp [start, Registry.isAssociated, Registry.empty])
  latest? := fun _ _ h => absurd h
    (by simp [start, CellTable.latest?, CellTable.history?, CellTable.empty])

section Knows

variable {session : Session} {announced : List Announcement} {message : Message} {agentId : String}
  {node : Node}

/-- What is refused makes nothing known. -/
theorem Knows.drop (h : session.Knows announced) (error : MessageError) :
    (session.drop error).Knows announced :=
  ⟨h.vertices, h.old, h.agentOf?, h.activityOf?, h.marked, h.latest?⟩

/-! The ends of the edges that a message leads to. -/

/-- The vertex of a message is announced by the device of the message. -/
theorem announces_announcing (session : Session) (announced : List Announcement)
    (message : Message) :
    Announces (announced ++ [session.announcing message]) message.header.agentId
      ⟨message.event.vertexKind, (session.nodeFor message).id⟩ :=
  ⟨session.announcing message, by simp, rfl, rfl⟩

/-- A known agent was announced by its device. -/
theorem Knows.announces_agent (h : session.Knows announced)
    (hagent : session.registry.agentOf? agentId = some node) :
    Announces announced agentId ⟨.agent, node.id⟩ := by
  rw [h.agentOf?, Option.map_eq_some_iff] at hagent
  obtain ⟨a, hlast, rfl⟩ := hagent
  obtain ⟨ha, hsort⟩ := mem_of_lastOf hlast
  obtain ⟨hevent, hdevice⟩ := Message.isAgentOf_iff.1 hsort
  exact ⟨a, ha, hdevice, congrArg (Endpoint.mk · a.node.id) (congrArg EventKind.vertexKind hevent)⟩

/-- A known activity was announced by its device. -/
theorem Knows.announces_activity (h : session.Knows announced)
    (hactivity : session.registry.activityOf? agentId = some node) :
    Announces announced agentId ⟨.activity, node.id⟩ := by
  rw [h.activityOf?, Option.map_eq_some_iff] at hactivity
  obtain ⟨a, hlast, rfl⟩ := hactivity
  obtain ⟨ha, hsort⟩ := mem_of_lastOf hlast
  obtain ⟨hevent, hdevice⟩ := Message.isActivityOf_iff.1 hsort
  exact ⟨a, ha, hdevice, congrArg (Endpoint.mk · a.node.id) (congrArg EventKind.vertexKind hevent)⟩

/-- The last agent or activity of a device carries the id of the device. -/
theorem get?_agentId_of_lastOf {sort : Message → Bool}
    (hsort : ∀ message, sort message = true →
      message.event ≠ .entity ∧ message.header.agentId = agentId)
    (h : (lastOf sort announced).map Announcement.node = some node) :
    node.get? Key.agentId = some agentId := by
  obtain ⟨a, hlast, rfl⟩ := Option.map_eq_some_iff.1 h
  -- Of agents and activities the id is noted from the header.
  obtain ⟨hevent, hdevice⟩ := hsort a.message (mem_of_lastOf hlast).2
  exact (Message.get?_node_agentId (Message.wellFormed_of_ne_entity hevent) a.index).trans
    (congrArg some hdevice)

/-- A known agent carries the id under which it is known. -/
theorem Knows.get?_agentId_agent (h : session.Knows announced)
    (hagent : session.registry.agentOf? agentId = some node) :
    node.get? Key.agentId = some agentId := by
  rw [h.agentOf?] at hagent
  refine get?_agentId_of_lastOf (fun message hsort => ?_) hagent
  obtain ⟨hevent, hdevice⟩ := Message.isAgentOf_iff.1 hsort
  exact ⟨by simp [hevent], hdevice⟩

/-- A known activity carries the id under which it is known. -/
theorem Knows.get?_agentId_activity (h : session.Knows announced)
    (hactivity : session.registry.activityOf? agentId = some node) :
    node.get? Key.agentId = some agentId := by
  rw [h.activityOf?] at hactivity
  refine get?_agentId_of_lastOf (fun message hsort => ?_) hactivity
  obtain ⟨hevent, hdevice⟩ := Message.isActivityOf_iff.1 hsort
  exact ⟨by simp [hevent], hdevice⟩

/-- The latest state of a cell was announced by the device of the cell. -/
theorem Knows.announces_state (h : session.Knows announced) {cell : Cell}
    (hstate : session.cells.latest? cell = some node) :
    Announces announced cell.agentId ⟨.entity, node.id⟩ := by
  obtain ⟨a, ha, htells, rfl⟩ := h.latest? cell node hstate
  exact ⟨a, ha, htells.agentId_eq.symm, htells.endpoint_eq⟩

/-- **Edges stay on one device.** Both ends of an edge that a message leads to were announced by the
device of the message. -/
theorem Knows.edgesFor (h : session.Knows announced) (hwell : message.WellFormed) {edge : Edge}
    (hedge : edge ∈ session.edgesFor message) :
    Announces (announced ++ [session.announcing message]) message.header.agentId edge.sourceEnd ∧
      Announces (announced ++ [session.announcing message]) message.header.agentId
        edge.destinationEnd := by
  have hown := announces_announcing session announced message
  cases message with
  | agent header agentType =>
    obtain ⟨activity, hactivity, rfl⟩ := mem_edgesFor_agent.1 hedge
    exact ⟨(h.announces_activity (Option.filter_eq_some_iff.1 hactivity).1).append _, hown⟩
  | activity header activityType =>
    obtain ⟨agent, hagent, rfl⟩ := mem_edgesFor_activity.1 hedge
    exact ⟨hown, (h.announces_agent (Option.filter_eq_some_iff.1 hagent).1).append _⟩
  | entity header entityType operation payload =>
    rcases mem_edgesFor_entity.1 hedge with ⟨change, hchange, rfl⟩ | ⟨activity, hactivity, rfl⟩
    · -- The state before is one of the same cell, and the cell names the device.
      obtain ⟨cell, latest, htells, hlatest, rfl⟩ := exists_of_changeFor? hwell hchange
      have hprevious := (h.announces_state hlatest).append
        [session.announcing (.entity header entityType operation payload)]
      rw [htells.agentId_eq] at hprevious
      exact ⟨hown, hprevious⟩
    · -- A use starts at the activity, and the other operations end there.
      have hcause := (h.announces_activity (Option.filter_eq_some_iff.1 hactivity).1).append
        [session.announcing (.entity header entityType operation payload)]
      cases operation with
      | read => exact ⟨hcause, hown⟩
      | write => exact ⟨hown, hcause⟩
      | add => exact ⟨hown, hcause⟩

/-- **A message is known after it was taken in**, and what was known before is known as the
announcement that it was. -/
theorem Knows.receive (h : session.Knows announced) (hwell : message.WellFormed) :
    (session.receive (.ok message)).session.Knows (announced ++ [session.announcing message]) where
  vertices := by rw [numbering_receive, h.vertices, List.length_append, List.length_singleton]
  old := by
    intro a ha
    rw [numbering_receive]
    rcases List.mem_append.1 ha with ha | ha
    · exact Nat.lt_succ_of_lt (h.old a ha)
    · obtain rfl := List.mem_singleton.1 ha
      exact Nat.lt_succ_self _
  agentOf? := by
    intro agentId
    rw [agentOf?_receive, lastOf_append_singleton, h.agentOf?]
    change (if message.isAgentOf agentId = true then _ else _) =
      Option.map _ (if message.isAgentOf agentId = true then _ else _)
    split <;> rfl
  activityOf? := by
    intro agentId
    rw [activityOf?_receive, lastOf_append_singleton, h.activityOf?]
    change (if message.isActivityOf agentId = true then _ else _) =
      Option.map _ (if message.isActivityOf agentId = true then _ else _)
    split <;> rfl
  marked := by
    intro id hid
    -- What is marked by this message is the start of an edge, and that was announced.
    rcases (isAssociated_receive session message id).1 hid with hid | ⟨edge, hedge, hrelation, rfl⟩
    · obtain ⟨agentId, hannounces⟩ := h.marked id hid
      exact ⟨agentId, hannounces.append _⟩
    · have hsource := (h.edgesFor hwell hedge).1
      rw [Edge.sourceEnd, hrelation] at hsource
      exact ⟨message.header.agentId, hsource⟩
  latest? := by
    intro cell state hstate
    rw [cells_receive] at hstate
    by_cases hcell : message.cell? = some cell
    · have htells : (session.announcing message).Tells cell :=
        Announcement.tells_of_cell? hwell hcell
      rw [latest?_cellsAfter_of_tells htells, Option.some.injEq] at hstate
      -- Either the message is the latest state now, or the one before still is.
      rcases refreshed_eq_or (session.cells.latest? cell) (session.announcing message).observed.1
        (session.nodeFor message) with hnew | hold
      · exact ⟨session.announcing message, by simp, htells, hnew.symm.trans hstate⟩
      · obtain ⟨a, ha, htells, hnode⟩ := h.latest? cell _ hold
        exact ⟨a, List.mem_append_left _ ha, htells, hnode.trans hstate⟩
    · -- A message that names another cell leaves the state of this one.
      rw [latest?_cellsAfter_of_ne hwell hcell] at hstate
      obtain ⟨a, ha, htells, hnode⟩ := h.latest? cell state hstate
      exact ⟨a, List.mem_append_left _ ha, htells, hnode⟩

/-- The vertex of a message that comes later has another id. -/
theorem nodeFor_id_ne {a : Announcement} (hold : a.index < session.numbering.vertices)
    (message : Message) : (session.nodeFor message).id ≠ a.node.id := by
  intro hid
  -- The ids end in the numbers, and the next number is larger than all before.
  have hindex : session.numbering.vertices = a.index := (Message.vertexId_inj hid).2
  omega

/-- A vertex that is old stays old. -/
theorem old_receive {a : Announcement} (hold : a.index < session.numbering.vertices)
    (message : Message) : a.index < (session.receive (.ok message)).session.numbering.vertices := by
  rw [numbering_receive]
  exact Nat.lt_succ_of_lt hold

/-- The id of the next vertex has not been given to any vertex. -/
theorem Knows.not_announces_next (h : session.Knows announced) (message : Message)
    {endpoint : Endpoint} (hannounces : Announces announced agentId endpoint) :
    endpoint.id ≠ (session.nodeFor message).id := by
  obtain ⟨a, ha, -, rfl⟩ := hannounces
  exact (nodeFor_id_ne (h.old a ha) message).symm

/-- So the next vertex is not marked, whatever becomes of it. -/
theorem Knows.isAssociated_next (h : session.Knows announced) (message : Message) :
    session.registry.isAssociated (session.nodeFor message).id = false := by
  rw [← Bool.not_eq_true]
  intro hmarked
  obtain ⟨agentId, hannounces⟩ := h.marked _ hmarked
  exact h.not_announces_next message hannounces rfl

end Knows

/-! ### Runs -/

/-- **What a session knows after a run** was announced in the run. -/
theorem knows_after (retention : Retention) {inputs : List (Except MessageError Message)}
    (h : ∀ message, .ok message ∈ inputs → message.WellFormed) :
    ((start retention).after inputs).Knows (announcementsFrom 0 inputs) := by
  induction inputs using List.reverseRecOn with
  | nil => exact .initial retention
  -- The induction is from the right, where `Knows` is kept by one more input.
  | append_singleton inputs input ih =>
    have hbefore := ih fun message hmem => h message (List.mem_append_left _ hmem)
    rw [after_append, announcementsFrom_append, Nat.zero_add]
    cases input with
    | error e =>
      rw [announcementsFrom, announcementsFrom, List.append_nil]
      exact hbefore.drop e
    | ok message =>
      rw [announcementsFrom, announcementsFrom, ← hbefore.vertices]
      exact hbefore.receive (h message (by simp))

/-- **No edge joins two devices.** The ends of an edge of a run are vertices of the run, and one
device announced them both. -/
theorem announces_ends_edges (retention : Retention) {inputs : List (Except MessageError Message)}
    (h : ∀ message, .ok message ∈ inputs → message.WellFormed) {edge : Edge}
    (hedge : edge ∈ (start retention).edges inputs) :
    ∃ agentId, Announces (announcementsFrom 0 inputs) agentId edge.sourceEnd ∧
      Announces (announcementsFrom 0 inputs) agentId edge.destinationEnd := by
  induction inputs using List.reverseRecOn with
  | nil => exact absurd hedge (by simp)
  | append_singleton inputs input ih =>
    have hwell : ∀ message, .ok message ∈ inputs → message.WellFormed :=
      fun message hmem => h message (List.mem_append_left _ hmem)
    have hknows := knows_after retention hwell
    -- The last input is taken in with all knowledge of the inputs before it.
    rw [edges_append, List.mem_append] at hedge
    rw [announcementsFrom_append, Nat.zero_add]
    rcases hedge with hedge | hedge
    · obtain ⟨agentId, hsource, hdestination⟩ := ih hwell hedge
      exact ⟨agentId, hsource.append _, hdestination.append _⟩
    · cases input with
      | error e => exact absurd hedge (by simp)
      | ok message =>
        rw [edges_ok, edges_nil, List.append_nil] at hedge
        rw [announcementsFrom, announcementsFrom, ← hknows.vertices]
        exact ⟨message.header.agentId, hknows.edgesFor (h message (by simp)) hedge⟩

/-- Before a vertex is added, no edge touches it. -/
theorem ends_edges_ne_next (retention : Retention) {inputs : List (Except MessageError Message)}
    (h : ∀ message, .ok message ∈ inputs → message.WellFormed) (message : Message) {edge : Edge}
    (hedge : edge ∈ (start retention).edges inputs) :
    edge.source ≠ (((start retention).after inputs).nodeFor message).id ∧
      edge.destination ≠ (((start retention).after inputs).nodeFor message).id := by
  obtain ⟨agentId, hsource, hdestination⟩ := announces_ends_edges retention h hedge
  have hknows := knows_after retention h
  exact ⟨hknows.not_announces_next message hsource, hknows.not_announces_next message hdestination⟩

end Session

end Lineage
