import Lineage.Proofs.Delivery
import Lineage.Proofs.Origins

/-!
# Entities are attributed on arrival

An entity is tied to an activity once, when it arrives, or never. The activity is the last one that
its device announced before. If there is none, the entity is flagged, and no activity that comes
later makes up for it (`Recorder.attribution_run`).

That the activity of a device is the last one announced is `Session.Knows`. Such an activity carries
the id of its device, so the look at its annotations turns none away (`Session.Knows.causeFor?_eq`).

An entity that was taken in is `Session.Passed`: it is old, and no activity is known under its id. A
message ties its own entity to a known activity, and so it touches no entity that is passed
(`Session.Passed.receive`).
-/

namespace Lineage

open Lineage.Graph Session Telemetry

/-! ### Ties -/

/-- Whether edges of a relation tie entities to activities. -/
def Graph.Relation.isCausal : Relation → Bool
  | used | wasGeneratedBy => true
  | wasAssociatedWith | wasDerivedFrom => false

/-- The ties that touch a vertex, among some edges. -/
def tiesOf (id : String) (edges : List Edge) : List Edge :=
  edges.filter fun edge => edge.relation.isCausal ∧ (edge.source = id ∨ edge.destination = id)

/-- The ties of a vertex among two rows of edges are those among either. -/
theorem tiesOf_append (id : String) (es fs : List Edge) :
    tiesOf id (es ++ fs) = tiesOf id es ++ tiesOf id fs :=
  List.filter_append ..

/-- A vertex has no ties if it is at no end of an edge that could be one. -/
theorem tiesOf_eq_nil {id : String} {edges : List Edge}
    (h : ∀ edge ∈ edges, edge.relation.isCausal = true → edge.source ≠ id ∧ edge.destination ≠ id) :
    tiesOf id edges = [] := by
  rw [tiesOf, List.filter_eq_nil_iff]
  intro edge hedge htouches
  obtain ⟨hcausal, hend⟩ := of_decide_eq_true htouches
  obtain ⟨hsource, hdestination⟩ := h edge hedge hcausal
  exact hend.elim hsource hdestination

/-- An edge ties an entity to an activity. An entity that was read was used by the activity, and any
other one was generated by it. What was done is noted, and when the entity was announced, and
nothing else. -/
structure Announcement.TiedBy (entity activity : Announcement) (operation : Operation)
    (edge : Edge) : Prop where
  use : operation = .read → edge.relation = .used ∧ edge.sourceEnd = activity.vertex.endpoint ∧
    edge.destinationEnd = entity.vertex.endpoint
  generation : operation ≠ .read → edge.relation = .wasGeneratedBy ∧
    edge.sourceEnd = entity.vertex.endpoint ∧
    edge.destinationEnd = activity.vertex.endpoint
  annotations : edge.annotations =
    .ofList [(Key.operation, operation.tag), (Key.time, entity.message.header.timestamp)]

/-- The edge that a session makes for an entity and its activity ties the two. -/
theorem Announcement.tiedBy_causalEdge {entity activity : Announcement} {header : Header}
    {entityType : String} {operation : Operation} {payload : Payload}
    (hentity : entity.message = .entity header entityType operation payload)
    (hwell : entity.message.WellFormed) (hactivity : activity.message.event = .activity)
    (index : Nat) :
    entity.TiedBy activity operation (causalEdge index operation entity.node activity.node) := by
  have hkind : entity.message.event = .entity := congrArg Message.event hentity
  -- The time on the edge is read off the vertex, where the message has put it.
  have htime : entity.node.get? Key.timestamp = some entity.message.header.timestamp :=
    Message.get?_node hwell entity.index _
  refine ⟨?_, ?_, ?_⟩
  · rintro rfl
    simp only [Edge.sourceEnd, Edge.destinationEnd, Announcement.vertex, hkind, hactivity]
    exact ⟨rfl, rfl, rfl⟩
  · intro hmade
    simp only [Edge.sourceEnd, Edge.destinationEnd, Announcement.vertex, hkind, hactivity]
    cases operation with
    | read => exact absurd rfl hmade
    | write => exact ⟨rfl, rfl, rfl⟩
    | add => exact ⟨rfl, rfl, rfl⟩
  · -- The two notes are made one after the other, on an edge without any.
    simp only [causalEdge, Edge.note, htime, Option.getD_some]
    cases operation <;> rfl

namespace Session

section Ties

variable (session : Session) (id : String)

/-- Only entities are tied. -/
theorem tiesOf_edgesFor_of_ne {message : Message} (h : message.event ≠ .entity) :
    tiesOf id (session.edgesFor message) = [] := by
  refine tiesOf_eq_nil ?_
  intro edge hedge hcausal
  rw [(relation_edgesFor hedge).2 h] at hcausal
  exact absurd hcausal (by decide)

/-- Of the edges of an entity, only the one to its activity is a tie. -/
theorem tiesOf_edgesFor_entity (header : Header) (entityType : String) (operation : Operation)
    (payload : Payload) :
    ∃ index, tiesOf id (session.edgesFor (.entity header entityType operation payload)) =
      tiesOf id ((causeFor? session.registry header.agentId).toList.map
        (causalEdge index operation (session.nodeFor
          (.entity header entityType operation payload)))) := by
  -- An edge of derivation joins two entities, and is no tie.
  have hderivations : ∀ index, tiesOf id ((session.changeFor? (.entity header entityType operation
      payload)).toList.map (derivationEdge index operation)) = [] := by
    intro index
    refine tiesOf_eq_nil ?_
    intro edge hedge hcausal
    obtain ⟨change, -, rfl⟩ := List.mem_map.1 hedge
    exact absurd hcausal Bool.false_ne_true
  rw [edgesFor, tiesOf_append, hderivations, List.nil_append]
  exact ⟨_, rfl⟩

/-- An entity is touched by the edge to its activity. -/
theorem tiesOf_causalEdge_own (cause : Option Node) (index : Nat) (operation : Operation)
    (entity : Node) :
    tiesOf entity.id (cause.toList.map (causalEdge index operation entity)) =
      cause.toList.map (causalEdge index operation entity) := by
  rw [tiesOf, List.filter_eq_self]
  intro edge hedge
  obtain ⟨activity, -, rfl⟩ := List.mem_map.1 hedge
  -- A use leads to the entity, anything else starts from it.
  cases operation with
  | read => exact decide_eq_true ⟨rfl, .inr rfl⟩
  | write => exact decide_eq_true ⟨rfl, .inl rfl⟩
  | add => exact decide_eq_true ⟨rfl, .inl rfl⟩

variable {id}

/-- Vertices other than an entity and its activity are not touched by the edge between them. -/
theorem tiesOf_causalEdge_other {cause : Option Node} (index : Nat) (operation : Operation)
    {entity : Node} (hentity : entity.id ≠ id) (hcause : ∀ activity ∈ cause, activity.id ≠ id) :
    tiesOf id (cause.toList.map (causalEdge index operation entity)) = [] := by
  refine tiesOf_eq_nil ?_
  intro edge hedge _
  obtain ⟨activity, hactivity, rfl⟩ := List.mem_map.1 hedge
  have hother := hcause activity (Option.mem_toList.1 hactivity)
  rw [source_causalEdge, destination_causalEdge]
  split
  · exact ⟨hother, hentity⟩
  · exact ⟨hentity, hother⟩

end Ties

/-! ### The activity of a device -/

section Knows

variable {session : Session} {announced : List Announcement}

/-- **No activity is turned away**: the one known of a device carries the id of the device. -/
theorem Knows.causeFor?_eq (h : session.Knows announced) (agentId : String) :
    causeFor? session.registry agentId = session.registry.activityOf? agentId := by
  rw [causeFor?]
  cases hknown : session.registry.activityOf? agentId with
  | none => rfl
  -- The guard compares the id of the device, which the vertex of an activity carries.
  | some node => exact Option.filter_some_pos (decide_eq_true (h.get?_agentId_activity hknown))

/-- The activity of a device is the last one that it announced. -/
theorem Knows.causeFor?_eq_lastOf (h : session.Knows announced) (agentId : String) :
    causeFor? session.registry agentId =
      (lastOf (Message.isActivityOf agentId) announced).map Announcement.node :=
  (h.causeFor?_eq agentId).trans (h.activityOf? agentId)

end Knows

/-! ### Entities that are passed -/

/-- A vertex was added, and no activity is known under its id. -/
structure Passed (session : Session) (entity : Announcement) : Prop where
  old : entity.index < session.numbering.vertices
  apart : ∀ agentId node, session.registry.activityOf? agentId = some node →
    node.id ≠ entity.node.id

section Passed

variable {session : Session} {entity : Announcement}

/-- **An entity that is passed stays passed**, and no message ties it to an activity. -/
theorem Passed.receive (h : session.Passed entity) (message : Message) :
    tiesOf entity.node.id (session.edgesFor message) = [] ∧
      (session.receive (.ok message)).session.Passed entity := by
  have hfresh := nodeFor_id_ne h.old message
  refine ⟨?_, old_receive h.old message, ?_⟩
  · by_cases hevent : message.event = .entity
    · cases message with
      | agent header agentType => exact nomatch hevent
      | activity header activityType => exact nomatch hevent
      | entity header entityType operation payload =>
        obtain ⟨index, hties⟩ :=
          session.tiesOf_edgesFor_entity entity.node.id header entityType operation payload
        -- The message ties a vertex of its own to an activity that is known; the entity is neither
        -- of the two.
        rw [hties]
        refine tiesOf_causalEdge_other index operation hfresh ?_
        intro activity hactivity
        exact h.apart _ activity (Option.filter_eq_some_iff.1 hactivity).1
    · exact session.tiesOf_edgesFor_of_ne _ hevent
  · intro agentId node hnode
    rw [activityOf?_receive] at hnode
    split at hnode
    · -- The activity that is known now is the vertex that was just added.
      obtain rfl := Option.some.inj hnode
      exact hfresh
    · exact h.apart agentId node hnode

/-- No run ties an entity that is passed. -/
theorem Passed.edges (h : session.Passed entity) (inputs : List (Except MessageError Message)) :
    tiesOf entity.node.id (session.edges inputs) = [] := by
  induction inputs generalizing session with
  | nil => rfl
  | cons input inputs ih =>
    cases input with
    -- No vertex is added, and the registry stays.
    | error e => exact @ih (session.drop e) ⟨h.old, h.apart⟩
    | ok message =>
      obtain ⟨hnone, hpassed⟩ := h.receive message
      rw [edges_ok, tiesOf_append, hnone, ih hpassed, List.append_nil]

/-- An entity is passed as soon as it was taken in. -/
theorem Knows.passed_receive {announced : List Announcement} (h : session.Knows announced)
    (message : Message) (hevent : message.event = .entity) :
    (session.receive (.ok message)).session.Passed (session.announcing message) := by
  refine ⟨?_, ?_⟩
  · rw [numbering_receive]
    exact Nat.lt_succ_self _
  · intro agentId node hnode
    -- The message of an entity is no activity, so the registry knows what it knew.
    have hother : ¬ message.isActivityOf agentId = true := by
      rw [Message.isActivityOf_iff, hevent]
      simp
    rw [activityOf?_receive, if_neg hother] at hnode
    exact h.not_announces_next message (h.announces_activity hnode)

end Passed

end Session

/-! ### Attribution -/

/-- An entity that is announced by a call is tied to the activity that is current, at once and for
good. Without one, it is flagged in the answer and never tied. -/
structure AttributedOnArrival (submitted : List Call → List Edge) (answer : Answer)
    (before : List Call) (call : Call) (later : List Call) (entity : Announcement)
    (operation : Operation) (current : Option Announcement) : Prop where
  answered : ∃ outcome, answer.outcome? = some outcome ∧ outcome.vertex = entity.node.id ∧
    outcome.missingCorrelation = current.isNone
  tied : ∀ activity, current = some activity → ∃ edge, entity.TiedBy activity operation edge ∧
    tiesOf entity.node.id (submitted before) = [] ∧
    tiesOf entity.node.id (submitted (before ++ [call])) = [edge] ∧
    tiesOf entity.node.id (submitted (before ++ call :: later)) = [edge]
  never : current = none → tiesOf entity.node.id (submitted (before ++ call :: later)) = []

section Announced

variable {σ : Type} [Sink σ] (retention : Retention) (sink : σ) (before : List Call)

/-- Before an entity is announced, nothing ties it. -/
theorem Recorder.tiesOf_before (message : Message) :
    tiesOf (((Session.start retention).after (before.map Call.input)).nodeFor message).id
      (submittedEdges retention sink before) = [] := by
  rw [submittedEdges_eq]
  refine tiesOf_eq_nil ?_
  intro edge hedge _
  exact ends_edges_ne_next retention (fun _ hmem => Call.wellFormed_of_mem hmem) message hedge

/-- All ties of an entity come with its own message: there is one, to the last activity that its
device announced, if there is any. -/
theorem Recorder.tiesOf_run {call : Call} {header : Header} {entityType : String}
    {operation : Operation} {payload : Payload}
    (hcall : call.input = .ok (.entity header entityType operation payload)) :
    ∃ index, ∀ later, tiesOf (((Session.start retention).after (before.map Call.input)).nodeFor
        (.entity header entityType operation payload)).id
          (submittedEdges retention sink (before ++ call :: later)) =
      ((lastOf (Message.isActivityOf header.agentId)
        (announcementsFrom 0 (before.map Call.input))).map
        Announcement.node).toList.map (causalEdge index operation
          (((Session.start retention).after (before.map Call.input)).nodeFor
            (.entity header entityType operation payload))) := by
  have hwell : ∀ message, .ok message ∈ before.map Call.input → message.WellFormed :=
    fun message hmem => Call.wellFormed_of_mem hmem
  have hknows := knows_after retention hwell
  have hpassed := hknows.passed_receive (.entity header entityType operation payload) rfl
  have hbefore := tiesOf_before retention sink before (.entity header entityType operation payload)
  obtain ⟨index, hown⟩ :=
    ((Session.start retention).after (before.map Call.input)).tiesOf_edgesFor_entity
      (((Session.start retention).after (before.map Call.input)).nodeFor
        (.entity header entityType operation payload)).id header entityType operation payload
  refine ⟨index, fun later => ?_⟩
  -- What came before has no tie, and what comes later neither: the own edges are left.
  rw [submittedEdges_eq] at hbefore
  rw [submittedEdges_append_cons retention sink before later hcall, tiesOf_append, hbefore,
    List.nil_append, tiesOf_append, hown, tiesOf_causalEdge_own, hknows.causeFor?_eq_lastOf,
    ← node_announcing, hpassed.edges, List.append_nil]

end Announced

/-- **Entities are attributed on arrival**, whatever sink there is. An entity is tied to the last
activity that its device announced before it, once and to no other; if there is none, it is flagged
and never tied. And the look at the annotations of the activity that is known of a device never
turns it away. -/
theorem Recorder.attribution_run {σ : Type} [Sink σ] (retention : Retention) (sink : σ) :
    (∀ (before : List Call) (call : Call) (later : List Call) (header : Header)
        (entityType : String) (operation : Operation) (payload : Payload),
      call.input = .ok (.entity header entityType operation payload) →
        AttributedOnArrival (submittedEdges retention sink)
          (((start retention sink).run before).recorder.perform call).result before call later
          ⟨.entity header entityType operation payload,
            (announcementsFrom 0 (before.map Call.input)).length⟩
          operation (lastOf (Message.isActivityOf header.agentId)
            (announcementsFrom 0 (before.map Call.input)))) ∧
      ∀ (calls : List Call) (agentId : String),
        causeFor? ((start retention sink).run calls).recorder.session.registry agentId =
          ((start retention sink).run calls).recorder.session.registry.activityOf? agentId := by
  refine ⟨fun before call later header entityType operation payload hcall => ?_,
    fun calls agentId => ?_⟩
  · have hwell : ∀ message, .ok message ∈ before.map Call.input → message.WellFormed :=
      fun message hmem => Call.wellFormed_of_mem hmem
    have hknows := knows_after retention hwell
    have hentity : Announcement.mk (.entity header entityType operation payload)
          (announcementsFrom 0 (before.map Call.input)).length =
        ((Session.start retention).after (before.map Call.input)).announcing
          (.entity header entityType operation payload) := congrArg _ hknows.vertices.symm
    rw [hentity]
    obtain ⟨index, hties⟩ := tiesOf_run retention sink before hcall
    constructor
    · -- The flag in the answer says that no activity was found.
      have hresult := result_receive ((Session.start retention).after (before.map Call.input))
        (.entity header entityType operation payload)
      have hanswer : (((start retention sink).run before).recorder.perform call).result.outcome? =
          (((Session.start retention).after (before.map Call.input)).receive
            call.input).result.toOption := by
        rw [result_perform, Call.outcome?_answer, session_run]
        rfl
      rw [hcall, hresult] at hanswer
      refine ⟨_, hanswer, rfl, ?_⟩
      change (causeFor? _ header.agentId).isNone = _
      rw [hknows.causeFor?_eq_lastOf, Option.isNone_map]
    · -- The ties of the whole run, and those up to the call, are the one edge of its message.
      intro activity hactivity
      simp only [hactivity, Option.map_some, Option.toList_some, List.map_singleton] at hties
      have hevent := (Message.isActivityOf_iff.1 (mem_of_lastOf hactivity).2).1
      have hown := Call.wellFormed_of_input hcall
      exact ⟨_, Announcement.tiedBy_causalEdge rfl hown hevent index,
        tiesOf_before retention sink before _, hties [], hties later⟩
    · intro hnone
      -- Nothing was found, so the message makes no edge of this sort.
      have hall := hties later
      rw [hnone] at hall
      exact hall
  · rw [session_run]
    exact (knows_after retention fun _ hmem => Call.wellFormed_of_mem hmem).causeFor?_eq agentId

/-- A register that is read after an activity of its device was used by it, whatever
activity comes next. -/
theorem Recorder.attribution_run_read :
    (Call.process "ENTITY|R1|s1|2|Register|READ|\x7b\"index\":1,\"value\":5\x7d").input =
        .ok (.entity ⟨"R1", "s1", "2"⟩ "Register" .read
          ⟨.register, [("index", "1"), ("value", "5")]⟩) ∧
      ∃ edge, edge.relation = .used ∧ edge.sourceEnd = ⟨.activity, "activity:s1:0"⟩ ∧
        tiesOf "entity:R1:s1:1" (submittedEdges .full Document.empty
          [.process "ACTIVITY|ingress|s1|1|PacketProcessor",
            .process "ENTITY|R1|s1|2|Register|READ|\x7b\"index\":1,\"value\":5\x7d",
            .process "ACTIVITY|egress|s1|3|PacketProcessor"]) = [edge] := by
  have hinput :
      (Call.process "ENTITY|R1|s1|2|Register|READ|\x7b\"index\":1,\"value\":5\x7d").input =
        .ok (.entity ⟨"R1", "s1", "2"⟩ "Register" .read
          ⟨.register, [("index", "1"), ("value", "5")]⟩) := by
    decide +kernel
  have hruns :=
    (attribution_run .full Document.empty).1 [.process "ACTIVITY|ingress|s1|1|PacketProcessor"] _
      [.process "ACTIVITY|egress|s1|3|PacketProcessor"] _ _ _ _ hinput
  obtain ⟨edge, htied, -, -, hall⟩ :=
    hruns.tied ⟨.activity ⟨"ingress", "s1", "1"⟩ "PacketProcessor", 0⟩ (by decide)
  exact ⟨hinput, edge, (htied.use rfl).1, (htied.use rfl).2.1, hall⟩

end Lineage
