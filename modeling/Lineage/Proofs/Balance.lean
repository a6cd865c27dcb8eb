import Lineage.Proofs.Association
import Lineage.Proofs.CellHistory
import Lineage.Proofs.Counters
import Mathlib.Data.List.Perm.Subperm

/-!
# The counters balance

The counters of a session are raised in several places, but they agree with each other and with what
the session remembers (`Session.Balanced`). Every call counts once, as a vertex or as refused; every
entity counts once, by the edge to its activity or as missing one; an entity adds a cell or derives
a state, but not both; and the numbers that have been given are those that are counted. One message
keeps the balance (`Session.Balanced.receive`), and so does a refusal (`Session.Balanced.drop`),
since nothing is refused for want of an activity (`Call.refuses_of_input`).

That associations are no more than activities cannot be seen from the counters alone: it holds since
no activity is associated twice (`Session.nodup_sources_associations`).
-/

namespace Lineage

open Lineage.Graph Session Telemetry

/-! ### Why messages are refused -/

/-- Whether an error keeps a message out; one does not. -/
def Telemetry.MessageError.Refuses : MessageError → Prop
  | .missingCorrelation _ => False
  | _ => True

/-- The errors that keep a message out are counted under other kinds than a missing activity. -/
theorem Telemetry.MessageError.Refuses.kind_ne {error : MessageError} (h : error.Refuses) :
    error.kind ≠ "missing_correlation" := by
  cases error with
  | missingCorrelation agentId => exact h.elim
  | malformed reason => simp [kind]
  | invalidPayload entityType fault => simp [kind]
  | unknownEvent tag => simp [kind]
  | unrecognizedOperation tag => simp [kind]

namespace Telemetry

section Refused

variable {error : MessageError}

/-- A tag is refused as one of no event. -/
theorem EventKind.refuses_of_ofTag {tag : String} (h : ofTag tag = .error error) :
    error.Refuses := by
  simp only [ofTag] at h
  split_ifs at h
  obtain rfl := Except.error.inj h
  trivial

/-- An operation is refused as one that is not known. -/
theorem Operation.refuses_of_ofTag {tag : String} (h : ofTag tag = .error error) :
    error.Refuses := by
  simp only [ofTag] at h
  split_ifs at h
  obtain rfl := Except.error.inj h
  trivial

namespace Message

/-- A header is refused for a name or an id that is not there. -/
theorem refuses_of_headerOf {name agentId timestamp : String}
    (h : headerOf name agentId timestamp = .error error) : error.Refuses := by
  simp only [headerOf] at h
  split_ifs at h <;> obtain rfl := Except.error.inj h <;> trivial

/-- An entity is refused for its operation or for its payload. -/
theorem refuses_of_decodeEntity {header : Header} {entityType operation raw : String}
    (h : decodeEntity header entityType operation raw = .error error) : error.Refuses := by
  simp only [decodeEntity] at h
  split at h
  next hoperation =>
    obtain rfl := Except.error.inj h
    exact Operation.refuses_of_ofTag hoperation
  · split at h
    · obtain rfl := Except.error.inj h
      trivial
    · cases h

/-- Where only the header can fail, what fails is a name or an id that is not there. -/
theorem refuses_of_map_headerOf {name agentId timestamp : String} {f : Header → Message}
    (h : (headerOf name agentId timestamp).map f = .error error) : error.Refuses := by
  cases hheader : headerOf name agentId timestamp with
  | error e =>
    rw [hheader] at h
    obtain rfl := Except.error.inj h
    exact refuses_of_headerOf hheader
  | ok header =>
    rw [hheader] at h
    exact nomatch h

/-- The fields are refused for being too few, for the header, or for what an entity brings. -/
theorem refuses_of_decodeFields {event : EventKind} {fields : List String}
    (h : decodeFields event fields = .error error) : error.Refuses := by
  unfold decodeFields at h
  split at h
  · split at h
    · split at h
      -- The three parts that can refuse are the header, the operation and the payload.
      next hheader =>
        obtain rfl := Except.error.inj h
        exact refuses_of_headerOf hheader
      · exact refuses_of_decodeEntity h
    · obtain rfl := Except.error.inj h
      trivial
    · exact refuses_of_map_headerOf h
    · exact refuses_of_map_headerOf h
  · obtain rfl := Except.error.inj h
    trivial

/-- So is a text: for being empty, for its tag, or for its fields. -/
theorem refuses_of_decode {raw : String} (h : decode raw = .error error) : error.Refuses := by
  simp only [decode] at h
  split at h
  · obtain rfl := Except.error.inj h
    trivial
  · split at h
    · obtain rfl := Except.error.inj h
      trivial
    · split at h
      next hevent =>
        obtain rfl := Except.error.inj h
        exact EventKind.refuses_of_ofTag hevent
      · exact refuses_of_decodeFields h

end Message

end Refused

end Telemetry

/-- **Nothing is refused for want of an activity.** Such a message is kept, and counted
elsewhere. -/
theorem Call.refuses_of_input {call : Call} {error : MessageError} (h : call.input = .error error) :
    error.Refuses := by
  cases call with
  | dispatch line => exact Message.refuses_of_decode h
  | process line => exact Message.refuses_of_decode h
  -- Bytes may be refused before there is any text, and that is an error of the kind too.
  | processBytes raw =>
    simp only [input, Message.decodeBytes] at h
    split at h
    · obtain rfl := Except.error.inj h
      trivial
    · exact Message.refuses_of_decode h

namespace Session

/-! ### What one message adds -/

section Added

variable (session : Session) (message : Message)

/-- An entity has one edge to an activity, or is missing one. -/
theorem countP_causal_edgesFor :
    ((session.edgesFor message).countP fun edge => edge.relation = .used) +
    ((session.edgesFor message).countP fun edge => edge.relation = .wasGeneratedBy) +
      (session.isUncaused message).toNat = if message.event.vertexKind = .entity then 1 else 0 := by
  cases message with
  | agent header agentType =>
    simp only [edgesFor]
    cases awaitingAgent? session.registry header.agentId _ <;> rfl
  | activity header activityType =>
    simp only [edgesFor]
    cases agentFor? session.registry header.agentId _ <;> rfl
  | entity header entityType operation payload =>
    -- The derivation of a state is of neither relation.
    simp only [edgesFor, isUncaused]
    cases session.changeFor? _ <;> cases causeFor? session.registry header.agentId <;>
      cases operation <;> rfl

/-- Edges of derivation are the changes that a message brings about. -/
theorem countP_derived_edgesFor :
    ((session.edgesFor message).countP fun edge => edge.relation = .wasDerivedFrom) =
      (session.changeFor? message).toList.length := by
  cases message with
  | agent header agentType =>
    simp only [edgesFor]
    cases awaitingAgent? session.registry header.agentId _ <;> rfl
  | activity header activityType =>
    simp only [edgesFor]
    cases agentFor? session.registry header.agentId _ <;> rfl
  | entity header entityType operation payload =>
    simp only [edgesFor]
    cases session.changeFor? _ <;> cases causeFor? session.registry header.agentId <;>
      cases operation <;> rfl

/-- An entity adds a cell or derives a state, but not both; other messages do neither. -/
theorem size_cellsAfter_add_le :
    (session.cellsAfter message).size + (session.changeFor? message).toList.length ≤
    session.cells.size + if message.event.vertexKind = .entity then 1 else 0 := by
  unfold cellsAfter changeFor?
  cases hobservation : message.observation? session.numbering.vertices with
  | none => exact Nat.le_add_right ..
  | some observation =>
    have hentity : message.event.vertexKind = .entity := by
      cases message with
      | agent header agentType => exact nomatch hobservation
      | activity header activityType => exact nomatch hobservation
      | entity header entityType operation payload => rfl
    -- The table either grows by the cell or reports a change of it.
    have hsize := (session.cells.observes observation.1 observation.2).size_add_change_le
    rw [← List.length_map (f := Prod.snd), ← Option.toList_map, Observation.map_snd_cellChange?]
      at hsize
    rw [if_pos hentity]
    exact hsize

end Added

/-! ### The balance -/

/-- What a session has counted in some calls agrees. -/
structure Balanced (session : Session) (calls : Nat) : Prop where
  messages : session.stats.messages = calls
  /-- Every message is a vertex or was refused. -/
  results : session.stats.messages = session.stats.vertexTotal + session.stats.droppedTotal
  /-- Every entity has an edge to an activity or is missing one. -/
  causes : session.stats.vertices.count VertexKind.entity.label =
    session.stats.edges.count Relation.used.label +
      session.stats.edges.count Relation.wasGeneratedBy.label + session.stats.missingCorrelations
  /-- Every cell was added by an entity, and every state derived by another one. -/
  states : session.stats.edges.count Relation.wasDerivedFrom.label + session.cells.size ≤
    session.stats.vertices.count VertexKind.entity.label
  vertexNumbers : session.numbering.vertices = session.stats.vertexTotal
  edgeNumbers : session.numbering.edges = session.stats.edgeTotal
  /-- No message was refused for want of an activity. -/
  dropped : session.stats.dropped.get? "missing_correlation" = none

/-- A fresh session has counted nothing. -/
theorem Balanced.initial (retention : Retention) : (start retention).Balanced 0 := by
  constructor <;> rfl

section Balanced

variable {session : Session} {calls : Nat}

/-- A refusal keeps the balance. -/
theorem Balanced.drop (h : session.Balanced calls) {error : MessageError}
    (hrefuses : error.Refuses) : (session.drop error).Balanced (calls + 1) where
  messages := congrArg (· + 1) h.messages
  results := by
    have htotal : (session.drop error).stats.droppedTotal = session.stats.droppedTotal + 1 :=
      Catalog.total_increment _ _
    rw [htotal, ← Nat.add_assoc]
    exact congrArg (· + 1) h.results
  causes := h.causes
  states := h.states
  vertexNumbers := h.vertexNumbers
  edgeNumbers := h.edgeNumbers
  dropped := by
    refine (Catalog.get?_insert _ _ _ _).trans ?_
    -- No refusal is counted under the label of a missing correlation.
    rw [if_neg hrefuses.kind_ne.symm]
    exact h.dropped

/-- **A message keeps the balance.** -/
theorem Balanced.receive (h : session.Balanced calls) (message : Message) :
    (session.receive (.ok message)).session.Balanced (calls + 1) := by
  have hmessages := session.messages_receive (.ok message)
  have hdropped :
      (session.receive (.ok message)).session.stats.dropped = session.stats.dropped := by
    rw [stats_receive]
    rfl
  have hmissing : (session.receive (.ok message)).session.stats.missingCorrelations =
      session.stats.missingCorrelations + (session.isUncaused message).toNat := by
    rw [stats_receive]
    rfl
  constructor
  · -- The fields in their order; most of them are two counters that are raised alike.
    rw [hmessages, h.messages]
  · rw [hmessages, vertexTotal_receive, Stats.droppedTotal, hdropped, h.results, Stats.droppedTotal]
    omega
  · -- One more entity, and one more edge to an activity or one more that is missing.
    have hcauses := session.countP_causal_edgesFor message
    have hbefore := h.causes
    rw [count_vertices_receive, count_edges_receive, count_edges_receive, hmissing]
    omega
  · -- The entity pays for the cell or for the state.
    have hstates := session.size_cellsAfter_add_le message
    have hbefore := h.states
    rw [count_vertices_receive, count_edges_receive, cells_receive, countP_derived_edgesFor]
    omega
  · rw [numbering_receive, vertexTotal_receive, h.vertexNumbers]
  · rw [numbering_receive, edgeTotal_receive, h.edgeNumbers]
  · rw [hdropped, h.dropped]

end Balanced

/-- **A run keeps the balance**, if nothing in it is refused for want of an activity. -/
theorem balanced_after (retention : Retention) {inputs : List (Except MessageError Message)}
    (h : ∀ error, .error error ∈ inputs → error.Refuses) :
    ((start retention).after inputs).Balanced inputs.length := by
  induction inputs using List.reverseRecOn with
  | nil => exact .initial retention
  | append_singleton inputs input ih =>
    have hbefore := ih fun error hmem => h error (List.mem_append_left _ hmem)
    rw [after_append, List.length_append]
    cases input with
    | error error => exact hbefore.drop (h error (by simp))
    | ok message => exact hbefore.receive message

/-! ### Associations and activities -/

/-- An association that comes with a message is of an activity that was not marked before. -/
theorem Knows.unmarked_source {session : Session} {announced : List Announcement}
    (h : session.Knows announced) {message : Message} {edge : Edge}
    (hedge : edge ∈ session.edgesFor message) (hrelation : edge.relation = .wasAssociatedWith) :
    session.registry.isAssociated edge.source = false := by
  cases message with
  -- The activity was awaiting the agent, and only one that is not marked does.
  | agent header agentType =>
    obtain ⟨activity, hawaiting, rfl⟩ := mem_edgesFor_agent.1 hedge
    have hfree := (Option.filter_eq_some_iff.1 hawaiting).2
    rw [Bool.and_eq_true, Bool.not_eq_true'] at hfree
    exact hfree.1
  | activity header activityType =>
    obtain ⟨agent, -, rfl⟩ := mem_edgesFor_activity.1 hedge
    exact h.isAssociated_next (.activity header activityType)
  | entity header entityType operation payload =>
    exact absurd rfl ((relation_edgesFor hedge).1 hrelation)

/-- A message associates one activity at most. -/
theorem nodup_sources_edgesFor (session : Session) (message : Message) :
    (((session.edgesFor message).filter fun edge => edge.relation = .wasAssociatedWith).map
      Edge.source).Nodup := by
  cases message with
  | agent header agentType =>
    simp only [edgesFor]
    cases awaitingAgent? session.registry header.agentId _ <;> simp
  | activity header activityType =>
    simp only [edgesFor]
    cases agentFor? session.registry header.agentId _ <;> simp
  | entity header entityType operation payload =>
    -- An entity is associated with nothing.
    have hnone : ((session.edgesFor (.entity header entityType operation payload)).filter
        fun edge => edge.relation = .wasAssociatedWith) = [] := by
      rw [List.filter_eq_nil_iff]
      intro edge hedge hrelation
      exact (relation_edgesFor hedge).1 (of_decide_eq_true hrelation) rfl
    rw [hnone]
    exact .nil

section Run

variable (retention : Retention) {inputs : List (Except MessageError Message)}

/-- **No activity is associated twice**, in a whole run. -/
theorem nodup_sources_associations (h : ∀ message, .ok message ∈ inputs → message.WellFormed) :
    ((((start retention).edges inputs).filter fun edge => edge.relation = .wasAssociatedWith).map
      Edge.source).Nodup := by
  induction inputs using List.reverseRecOn with
  | nil => exact .nil
  | append_singleton inputs input ih =>
    have hwell : ∀ message, .ok message ∈ inputs → message.WellFormed :=
      fun message hmem => h message (List.mem_append_left _ hmem)
    rw [edges_append]
    cases input with
    | error e =>
      rw [edges_error, edges_nil, List.append_nil]
      exact ih hwell
    | ok message =>
      rw [edges_ok, edges_nil, List.append_nil, List.filter_append, List.map_append,
        List.nodup_append]
      refine ⟨ih hwell, nodup_sources_edgesFor _ message, ?_⟩
      -- An activity that was associated before is marked, and one that is associated now was not.
      rintro _ hold _ hnew rfl
      obtain ⟨edge, hedge, hsource⟩ := List.mem_map.1 hnew
      obtain ⟨hedge, hrelation⟩ := List.mem_filter.1 hedge
      have hunmarked :=
        (knows_after retention hwell).unmarked_source hedge (of_decide_eq_true hrelation)
      obtain ⟨earlier, hearlier, hsame⟩ := List.mem_map.1 hold
      obtain ⟨hearlier, hrelation'⟩ := List.mem_filter.1 hearlier
      have hmarked := (isAssociated_start_after retention inputs edge.source).2
        ⟨earlier, hearlier, of_decide_eq_true hrelation', hsame.trans hsource.symm⟩
      rw [hunmarked] at hmarked
      exact Bool.false_ne_true hmarked

/-- What is associated are activities of the run. -/
theorem sources_associations_subset (h : ∀ message, .ok message ∈ inputs → message.WellFormed) :
    (((start retention).edges inputs).filter fun edge => edge.relation = .wasAssociatedWith).map
      Edge.source ⊆
      (((announcementsFrom 0 inputs).map Announcement.vertex).filter
        fun v => v.kind = .activity).map fun v => v.id := by
  intro id hid
  obtain ⟨edge, hedge, rfl⟩ := List.mem_map.1 hid
  obtain ⟨hedge, hrelation⟩ := List.mem_filter.1 hedge
  obtain ⟨agentId, ⟨a, ha, -, hend⟩, -⟩ := announces_ends_edges retention h hedge
  rw [Edge.sourceEnd, of_decide_eq_true hrelation] at hend
  -- The end is that of an announcement, and its kind is in the end.
  refine List.mem_map.2 ⟨a.vertex, List.mem_filter.2 ⟨List.mem_map_of_mem ha, ?_⟩,
    congrArg Endpoint.id hend⟩
  exact decide_eq_true (congrArg Endpoint.kind hend)

/-- There are no more associations than activities. -/
theorem count_associations_after_le (h : ∀ message, .ok message ∈ inputs → message.WellFormed) :
    ((start retention).after inputs).stats.edges.count Relation.wasAssociatedWith.label ≤
      ((start retention).after inputs).stats.vertices.count VertexKind.activity.label := by
  -- Different sources, all of them activities: so there are as many of these at least.
  have hsubperm :=
    (nodup_sources_associations retention h).subperm (sources_associations_subset retention h)
  have hlength := hsubperm.length_le
  rw [List.length_map, List.length_map, ← List.countP_eq_length_filter,
    ← List.countP_eq_length_filter] at hlength
  rw [count_edges_after, count_vertices_after]
  exact Nat.add_le_add_left hlength 0

end Run

/-- What calls are read as is never refused for want of an activity, so a run of calls keeps the
balance. -/
theorem balanced_after_calls (retention : Retention) (calls : List Call) :
    ((start retention).after (calls.map Call.input)).Balanced calls.length := by
  have hrefuses : ∀ error, .error error ∈ calls.map Call.input → error.Refuses := by
    intro error hmem
    obtain ⟨call, -, hinput⟩ := List.mem_map.1 hmem
    exact Call.refuses_of_input hinput
  have hbalanced := balanced_after retention hrefuses
  rw [List.length_map] at hbalanced
  exact hbalanced

end Session

/-- **The counters balance** at the end of any run, whatever is kept of the histories and whatever
sink there is. -/
theorem Recorder.balanced_run {σ : Type} [Sink σ] (retention : Retention) (sink : σ)
    (calls : List Call) :
    ((start retention sink).run calls).recorder.session.Balanced calls.length ∧
      ((start retention sink).run calls).recorder.session.stats.edges.count
        Relation.wasAssociatedWith.label ≤
        ((start retention sink).run calls).recorder.session.stats.vertices.count
          VertexKind.activity.label := by
  rw [session_run]
  exact ⟨balanced_after_calls retention calls,
    count_associations_after_le retention fun _ hmem => Call.wellFormed_of_mem hmem⟩

end Lineage
