import Lineage.Proofs.Delivery
import Lineage.Proofs.Origins

/-!
# Association follows the order of announcements

An activity is associated once, and which agent it goes to depends on the order of the messages
alone. If the last agent that its device announced before it is of its type, the activity goes to
that agent at once. Otherwise it waits: the next agent of its type from its device takes it, unless
the device announces another activity first. An activity that was taken, or passed over, is never
associated again (`Recorder.associations_run`).

Seen from an activity that was announced, a session is in one of two states.

* `Session.Waiting`: the activity is the one known of its device, and has not been associated.
* `Session.Settled`: no activity is known under its id that is still to be associated. So it was
  associated, or it is no longer known.

A message leaves a settled activity settled, and adds no association to it
(`Session.Settled.receive`). A waiting activity is taken (`Session.Waiting.receive_agent`), is
passed over (`Session.Waiting.receive_activity`) or goes on waiting
(`Session.Waiting.receive_other`), as the message is. The activity is recognized by its id, which is
not given again.
-/

namespace Lineage

open Lineage.Graph Session Telemetry

/-! ### Who takes an activity -/

/-- Whether a message announces an agent that carries out activities of a type. -/
def Telemetry.Message.pairsWith (activityType : String) : Message → Bool
  | .agent _ agentType => areRecognized activityType agentType
  | _ => false

/-- The agent that an activity finds: the last one of its device, if it is of its type. -/
def agentBefore? (agentId activityType : String) (earlier : List Announcement) :
    Option Announcement :=
  (lastOf (Message.isAgentOf agentId) earlier).filter (·.message.pairsWith activityType)

/-- The agent that an activity waits for: the first one of its type from its device, up to the next
activity of the device. -/
def agentAfter? (agentId activityType : String) (later : List Announcement) : Option Announcement :=
  (later.takeWhile fun a => !a.message.isActivityOf agentId).find? fun a =>
    a.message.isAgentOf agentId && a.message.pairsWith activityType

/-- The associations of an activity, among some edges. -/
def associationsOf (id : String) (edges : List Edge) : List Edge :=
  edges.filter fun edge => edge.relation = .wasAssociatedWith ∧ edge.source = id

/-- Of two rows of edges, the associations of an activity are those of either. -/
theorem associationsOf_append (id : String) (es fs : List Edge) :
    associationsOf id (es ++ fs) = associationsOf id es ++ associationsOf id fs :=
  List.filter_append ..

/-- What is mapped to one thing is one thing. -/
theorem exists_singleton_of_map {α β : Type} {f : α → β} {as : List α} {b : β}
    (h : as.map f = [b]) : ∃ a, as = [a] ∧ f a = b := by
  match as, h with
  | [a], h => exact ⟨a, rfl, by simpa using h⟩

/-- An activity belongs to an agent of its device just if their types make a pair. -/
theorem belongsTo_node {activity agent : Announcement} {header : Header} {activityType : String}
    (hactivity : activity.message = .activity header activityType)
    (hagent : agent.message.isAgentOf activity.agentId = true) :
    belongsTo activity.node agent.node = agent.message.pairsWith activityType := by
  obtain ⟨_, m⟩ := activity
  obtain rfl := hactivity
  obtain ⟨message, n⟩ := agent
  -- Only an agent can be meant, by `hagent`.
  cases message with
  | agent header' agentType =>
    have hwell : (Message.activity header activityType).WellFormed := trivial
    have hwell' : (Message.agent header' agentType).WellFormed := trivial
    have htype : ((Message.activity header activityType).node m).get? Key.activityType =
        some activityType :=
      Message.get?_node hwell m _
    have htype' : ((Message.agent header' agentType).node n).get? Key.agentType = some agentType :=
      Message.get?_node hwell' n _
    have hdevice : header'.agentId = header.agentId := (Message.isAgentOf_iff.1 hagent).2
    simp only [belongsTo, Announcement.node, htype, htype', Message.get?_node_agentId hwell,
      Message.get?_node_agentId hwell', Message.header, hdevice, decide_true, Bool.and_true,
      Message.pairsWith]
  | activity header' activityType' => exact absurd hagent (by simp [Message.isAgentOf])
  | entity header' entityType operation payload => exact absurd hagent (by simp [Message.isAgentOf])

namespace Session

/-! ### The associations that a message leads to -/

section Leaving

variable {session : Session} {id : String}

/-- An entity leads to no association. -/
theorem associationsOf_edgesFor_entity (header : Header) (entityType : String)
    (operation : Operation) (payload : Payload) :
    associationsOf id (session.edgesFor (.entity header entityType operation payload)) = [] := by
  rw [associationsOf, List.filter_eq_nil_iff]
  intro edge hedge hleaves
  exact (relation_edgesFor hedge).1 (of_decide_eq_true hleaves).1 rfl

/-- An activity leads to associations of its own only. -/
theorem associationsOf_edgesFor_activity (header : Header) (activityType : String) :
    associationsOf id (session.edgesFor (.activity header activityType)) =
      if (session.nodeFor (.activity header activityType)).id = id then
        session.edgesFor (.activity header activityType)
      else [] := by
  split
  -- All of its edges start from the vertex of the activity.
  next hid =>
    rw [associationsOf, List.filter_eq_self]
    intro edge hedge
    obtain ⟨agent, -, rfl⟩ := mem_edgesFor_activity.1 hedge
    simp [hid]
  next hid =>
    rw [associationsOf, List.filter_eq_nil_iff]
    intro edge hedge
    obtain ⟨agent, -, rfl⟩ := mem_edgesFor_activity.1 hedge
    simp [hid]

/-- An agent leads to an association of the activity that was waiting for it. -/
theorem associationsOf_edgesFor_agent (header : Header) (agentType : String) :
    associationsOf id (session.edgesFor (.agent header agentType)) =
      ((awaitingAgent? session.registry header.agentId
        (session.nodeFor (.agent header agentType))).filter
        (·.id = id)).toList.map fun activity =>
          associationEdge (session.numbering.edges + 1) activity
            (session.nodeFor (.agent header agentType)) := by
  simp only [edgesFor, associationsOf]
  -- Either nobody waits, or the one edge is that of the activity that does.
  cases awaitingAgent? session.registry header.agentId (session.nodeFor (.agent header agentType))
    with
  | none => rfl
  | some activity => by_cases hid : activity.id = id <;> simp [hid, Option.filter]

end Leaving

/-! ### Settled activities -/

section Phases

variable {session : Session} {activity : Announcement}

/-- Nothing that is known under the id of an activity is still to be associated. -/
structure Settled (session : Session) (activity : Announcement) : Prop where
  old : activity.index < session.numbering.vertices
  closed : ∀ agentId node, session.registry.activityOf? agentId = some node →
    node.id = activity.node.id →
    session.registry.isAssociated activity.node.id = true

/-- An activity that is marked is settled, whatever is known under its id. -/
theorem Settled.of_isAssociated (hold : activity.index < session.numbering.vertices)
    (h : session.registry.isAssociated activity.node.id = true) : session.Settled activity :=
  ⟨hold, fun _ _ _ _ => h⟩

/-- **A settled activity stays settled**, and no message leads to an association of it. -/
theorem Settled.receive (h : session.Settled activity) (message : Message) :
    associationsOf activity.node.id (session.edgesFor message) = [] ∧
      (session.receive (.ok message)).session.Settled activity := by
  -- The activity is recognized by its id, and a new vertex does not have it.
  have hfresh := nodeFor_id_ne h.old message
  refine ⟨?_, old_receive h.old message, ?_⟩
  · cases message with
    | agent header agentType =>
      rw [associationsOf_edgesFor_agent]
      cases hawaiting : (awaitingAgent? session.registry header.agentId
          (session.nodeFor (.agent header agentType))).filter (·.id = activity.node.id) with
      | none => rfl
      | some node =>
        -- Whoever is awaiting an agent has not been associated.
        exfalso
        obtain ⟨hawaiting, hid⟩ := Option.filter_eq_some_iff.1 hawaiting
        obtain ⟨hknown, hfree⟩ := Option.filter_eq_some_iff.1 hawaiting
        have hmarked := h.closed _ node hknown (of_decide_eq_true hid)
        rw [of_decide_eq_true hid, hmarked] at hfree
        exact absurd hfree (by simp)
    | activity header activityType => rw [associationsOf_edgesFor_activity, if_neg hfresh]
    | entity header entityType operation payload => exact associationsOf_edgesFor_entity _ _ _ _
  · intro agentId node hnode hid
    -- The registry knows the new activity, which has another id, or what it knew before.
    rw [activityOf?_receive] at hnode
    split at hnode
    · obtain rfl := Option.some.inj hnode
      exact absurd hid hfresh
    · exact (isAssociated_receive session message _).2 (.inl (h.closed agentId node hnode hid))

/-- No run leads to an association of a settled activity. -/
theorem Settled.edges (h : session.Settled activity) (inputs : List (Except MessageError Message)) :
    associationsOf activity.node.id (session.edges inputs) = [] := by
  induction inputs generalizing session with
  | nil => rfl
  | cons input inputs ih =>
    cases input with
    -- A refusal leaves the registry as it is.
    | error e => exact @ih (session.drop e) ⟨h.old, h.closed⟩
    | ok message =>
      obtain ⟨hnone, hsettled⟩ := h.receive message
      rw [edges_ok, associationsOf_append, hnone, ih hsettled, List.append_nil]

/-! ### Waiting activities -/

/-- An activity is the one known of its device, and has not been associated. -/
structure Waiting (session : Session) (activity : Announcement) : Prop where
  old : activity.index < session.numbering.vertices
  latest : session.registry.activityOf? activity.agentId = some activity.node
  alone : ∀ agentId node, session.registry.activityOf? agentId = some node →
    node.id = activity.node.id →
    agentId = activity.agentId
  unmarked : session.registry.isAssociated activity.node.id = false

/-- A waiting activity that is passed over by the next one of its device is settled. -/
theorem Waiting.receive_activity (h : session.Waiting activity) {message : Message}
    (hnext : message.isActivityOf activity.agentId = true) :
    associationsOf activity.node.id (session.edgesFor message) = [] ∧
      (session.receive (.ok message)).session.Settled activity := by
  have hfresh := nodeFor_id_ne h.old message
  refine ⟨?_, old_receive h.old message, ?_⟩
  · cases message with
    | activity header activityType => rw [associationsOf_edgesFor_activity, if_neg hfresh]
    | agent header agentType => exact absurd hnext (by simp [Message.isActivityOf])
    | entity header entityType operation payload =>
      exact absurd hnext (by simp [Message.isActivityOf])
  · intro agentId node hnode hid
    rw [activityOf?_receive] at hnode
    split at hnode
    · obtain rfl := Option.some.inj hnode
      exact absurd hid hfresh
    next hother =>
      -- What is known of any other device is not the activity.
      obtain rfl := h.alone agentId node hnode hid
      exact absurd hnext hother

/-- A message marks just the activities that it leads to associations of. -/
theorem isAssociated_receive_iff (session : Session) (message : Message) (id : String) :
    (session.receive (.ok message)).session.registry.isAssociated id = true ↔
      session.registry.isAssociated id = true ∨ ∃ edge,
        edge ∈ associationsOf id (session.edgesFor message) := by
  rw [isAssociated_receive]
  simp only [associationsOf, List.mem_filter, decide_eq_true_eq]

section Waiting

variable {header : Header} {activityType : String}

/-- A waiting activity is taken by an agent of its type from its device. -/
theorem Waiting.receive_agent (h : session.Waiting activity)
    (hactivity : activity.message = .activity header activityType) {message : Message}
    (hagent : message.isAgentOf activity.agentId = true)
    (hpairs : message.pairsWith activityType = true) :
    associationsOf activity.node.id (session.edgesFor message) =
        [associationEdge (session.numbering.edges + 1) activity.node (session.nodeFor message)] ∧
      (session.receive (.ok message)).session.Settled activity := by
  have hedge : associationsOf activity.node.id (session.edgesFor message) =
      [associationEdge (session.numbering.edges + 1) activity.node (session.nodeFor message)] := by
    cases message with
    | agent header' agentType =>
      have hdevice : header'.agentId = activity.agentId := (Message.isAgentOf_iff.1 hagent).2
      have hbelongs : belongsTo activity.node (session.nodeFor (.agent header' agentType)) = true :=
        (belongsTo_node hactivity (show (session.announcing
          (.agent header' agentType)).message.isAgentOf _ = true from hagent)).trans hpairs
      -- It is the one that is known of the device, it is free, and the types make a pair.
      have hawaiting : awaitingAgent? session.registry header'.agentId
          (session.nodeFor (.agent header' agentType)) =
          some activity.node := by
        refine Option.filter_eq_some_iff.2 ⟨hdevice ▸ h.latest, ?_⟩
        rw [h.unmarked, hbelongs]
        rfl
      rw [associationsOf_edgesFor_agent, hawaiting]
      simp [Option.filter]
    | activity header' type => exact absurd hagent (by simp [Message.isAgentOf])
    | entity header' entityType operation payload =>
      exact absurd hagent (by simp [Message.isAgentOf])
  refine ⟨hedge, .of_isAssociated (old_receive h.old message) ?_⟩
  exact (isAssociated_receive_iff session message _).2 (.inr ⟨_, hedge ▸ List.mem_cons_self⟩)

/-- A waiting activity goes on waiting, whatever else comes. -/
theorem Waiting.receive_other (h : session.Waiting activity)
    (hactivity : activity.message = .activity header activityType) {message : Message}
    (hnext : message.isActivityOf activity.agentId = false)
    (hagent : (message.isAgentOf activity.agentId && message.pairsWith activityType) = false) :
    associationsOf activity.node.id (session.edgesFor message) = [] ∧
      (session.receive (.ok message)).session.Waiting activity := by
  have hfresh := nodeFor_id_ne h.old message
  have hedge : associationsOf activity.node.id (session.edgesFor message) = [] := by
    cases message with
    | agent header' agentType =>
      rw [associationsOf_edgesFor_agent]
      cases hawaiting : (awaitingAgent? session.registry header'.agentId
          (session.nodeFor (.agent header' agentType))).filter (·.id = activity.node.id) with
      | none => rfl
      | some node =>
        -- It would be the waiting activity, and the agent one of its type.
        exfalso
        obtain ⟨hawaiting, hid⟩ := Option.filter_eq_some_iff.1 hawaiting
        obtain ⟨hknown, hfree⟩ := Option.filter_eq_some_iff.1 hawaiting
        have hdevice : header'.agentId = activity.agentId :=
          h.alone _ node hknown (of_decide_eq_true hid)
        rw [hdevice] at hknown
        obtain rfl := Option.some.inj (hknown.symm.trans h.latest)
        have hsort : (Message.agent header' agentType).isAgentOf activity.agentId = true :=
          decide_eq_true hdevice
        have hbelongs := belongsTo_node hactivity (show
          (session.announcing (.agent header' agentType)).message.isAgentOf activity.agentId =
            true from hsort)
        rw [hsort, Bool.true_and] at hagent
        rw [show belongsTo activity.node (session.nodeFor (.agent header' agentType)) = false from
          hbelongs.trans hagent] at hfree
        exact absurd hfree (by simp)
    | activity header' type => rw [associationsOf_edgesFor_activity, if_neg hfresh]
    | entity header' entityType operation payload => exact associationsOf_edgesFor_entity _ _ _ _
  refine ⟨hedge, old_receive h.old message, ?_, ?_, ?_⟩
  · -- Still the latest of its device, still under no other device, still unmarked.
    rw [activityOf?_receive]
    exact (if_neg (Bool.eq_false_iff.1 hnext)).trans h.latest
  · intro agentId node hnode hid
    rw [activityOf?_receive] at hnode
    split at hnode
    · obtain rfl := Option.some.inj hnode
      exact absurd hid hfresh
    · exact h.alone agentId node hnode hid
  · rw [← Bool.not_eq_true, isAssociated_receive_iff, h.unmarked, hedge]
    simp

/-- **A waiting activity** is associated once, with the agent that it waits for, if that one
comes. -/
theorem Waiting.edges (h : session.Waiting activity)
    (hactivity : activity.message = .activity header activityType)
    (inputs : List (Except MessageError Message)) :
    (associationsOf activity.node.id (session.edges inputs)).map Edge.destination =
      (agentAfter? activity.agentId activityType
        (announcementsFrom session.numbering.vertices inputs)).toList.map (·.node.id) := by
  induction inputs generalizing session with
  | nil => rfl
  | cons input inputs ih =>
    cases input with
    | error e => exact @ih (session.drop e) ⟨h.old, h.latest, h.alone, h.unmarked⟩
    | ok message =>
      rw [edges_ok, associationsOf_append, announcementsFrom]
      cases hnext : message.isActivityOf activity.agentId with
      | true =>
        -- The next activity of the device is there: no agent is waited for any more.
        obtain ⟨hnone, hsettled⟩ := h.receive_activity hnext
        rw [hnone, hsettled.edges]
        simp [agentAfter?, hnext]
      | false =>
        cases hagent : message.isAgentOf activity.agentId && message.pairsWith activityType with
        | true =>
          -- This is the agent: its edge is the first one, and the last.
          obtain ⟨hdevice, hpairs⟩ := Bool.and_eq_true_iff.1 hagent
          obtain ⟨hedge, hsettled⟩ := h.receive_agent hactivity hdevice hpairs
          rw [hedge, hsettled.edges]
          simp only [agentAfter?, hnext, hagent, List.takeWhile_cons, Bool.not_false, if_true,
            List.find?_cons]
          rfl
        | false =>
          -- Anything else is skipped on both sides.
          obtain ⟨hnone, hwaiting⟩ := h.receive_other hactivity hnext hagent
          rw [hnone, List.nil_append, ih hwaiting, numbering_receive]
          simp only [agentAfter?, hnext, hagent, List.takeWhile_cons, Bool.not_false, if_true,
            List.find?_cons]

end Waiting

end Phases

/-! ### The message that announces an activity -/

section Own

variable {session : Session} {earlier : List Announcement} (header : Header) (activityType : String)

/-- An activity is associated at once with the agent that it finds. -/
theorem Knows.destinations_own (h : session.Knows earlier) :
    (associationsOf (session.nodeFor (.activity header activityType)).id
      (session.edgesFor (.activity header activityType))).map Edge.destination =
        (agentBefore? header.agentId activityType earlier).toList.map (·.node.id) := by
  rw [associationsOf_edgesFor_activity, if_pos rfl]
  simp only [Session.edgesFor, agentFor?, agentBefore?, h.agentOf?, List.map_map]
  cases hlast : lastOf (Message.isAgentOf header.agentId) earlier with
  | none => rfl
  | some agent =>
    have hsort := (mem_of_lastOf hlast).2
    have hown : (session.announcing (.activity header activityType)).message =
        .activity header activityType := rfl
    -- The session compares the types on the vertices; the specification does it on the messages.
    have hbelongs : belongsTo (session.announcing (.activity header activityType)).node agent.node =
        agent.message.pairsWith activityType := belongsTo_node hown hsort
    rw [show (session.announcing (.activity header activityType)).node =
      session.nodeFor (.activity header activityType) from rfl] at hbelongs
    simp only [Option.map_some, Option.filter, hbelongs]
    split <;> rfl

end Own

/-- **Just the activities with an association are marked**: those that were, and those that a run
leads to associations of. -/
theorem isAssociated_after (session : Session) (inputs : List (Except MessageError Message))
    (id : String) :
    (session.after inputs).registry.isAssociated id = true ↔
      session.registry.isAssociated id = true ∨ ∃ edge,
        edge ∈ associationsOf id (session.edges inputs) := by
  induction inputs generalizing session with
  | nil => simp [associationsOf]
  | cons input inputs ih =>
    cases input with
    | error e => exact ih (session.drop e)
    | ok message =>
      -- Marked by the first message or by a later one: the edges are split in the same way.
      rw [after_cons, ih, isAssociated_receive_iff, or_assoc, edges_ok, associationsOf_append,
        ← exists_or]
      simp only [List.mem_append]

section Announced

variable (retention : Retention) {before : List (Except MessageError Message)}

/-- Before a vertex is added, there are no associations of it. -/
theorem associationsOf_next (hwell : ∀ message, .ok message ∈ before → message.WellFormed)
    (message : Message) :
    associationsOf (((start retention).after before).nodeFor message).id
      ((start retention).edges before) = [] := by
  rw [associationsOf, List.filter_eq_nil_iff]
  intro edge hedge hleaves
  exact (ends_edges_ne_next retention hwell message hedge).1 (of_decide_eq_true hleaves).2

/-- An activity that finds no agent waits for one. -/
theorem waiting_receive (hwell : ∀ message, .ok message ∈ before → message.WellFormed)
    {header : Header} {activityType : String}
    (hnone : associationsOf (((start retention).after before).nodeFor
      (.activity header activityType)).id
        (((start retention).after before).edgesFor (.activity header activityType)) = []) :
    (((start retention).after before).receive (.ok (.activity header activityType))).session.Waiting
      (((start retention).after before).announcing (.activity header activityType)) := by
  have hknows := knows_after retention hwell
  have hown : (Message.activity header activityType).isActivityOf header.agentId = true := by
    simp [Message.isActivityOf]
  refine ⟨?_, ?_, ?_, ?_⟩
  · rw [numbering_receive]
    exact Nat.lt_succ_self _
  · exact (activityOf?_receive _ _ _).trans (if_pos hown)
  · intro agentId node hnode hid
    rw [activityOf?_receive] at hnode
    split at hnode
    next hdevice => exact (of_decide_eq_true hdevice).symm
    · exact absurd hid (hknows.not_announces_next _ (hknows.announces_activity hnode))
  · -- It was not marked as a vertex to come, and its own message led to no edge.
    rw [← Bool.not_eq_true, node_announcing, isAssociated_receive_iff, hnone,
      hknows.isAssociated_next]
    simp

/-- The agent that an activity awaits takes it, unless it has found one. -/
theorem destinations_later (hwell : ∀ message, .ok message ∈ before → message.WellFormed)
    (header : Header) (activityType : String) (later : List (Except MessageError Message)) :
    (associationsOf (((start retention).after before).nodeFor (.activity header activityType)).id
      ((((start retention).after before).receive
        (.ok (.activity header activityType))).session.edges later)).map
        Edge.destination =
      match agentBefore? header.agentId activityType (announcementsFrom 0 before) with
      | some _ => []
      | none => (agentAfter? header.agentId activityType
          (announcementsFrom ((announcementsFrom 0 before).length + 1) later)).toList.map
            (·.node.id) := by
  have hknows := knows_after retention hwell
  have hown := hknows.destinations_own header activityType
  cases hfound : agentBefore? header.agentId activityType (announcementsFrom 0 before) with
  | some agent =>
    -- The edge to the agent that was found marks the activity.
    rw [hfound] at hown
    obtain ⟨edge, hedge, -⟩ := exists_singleton_of_map hown
    have hsettled : (((start retention).after before).receive
        (.ok (.activity header activityType))).session.Settled
        (((start retention).after before).announcing (.activity header activityType)) := by
      refine .of_isAssociated ?_ ((isAssociated_receive_iff _ _ _).2
        (.inr ⟨edge, hedge ▸ List.mem_cons_self⟩))
      rw [numbering_receive]
      exact Nat.lt_succ_self _
    rw [← node_announcing, hsettled.edges]
    rfl
  | none =>
    rw [hfound] at hown
    -- No edge comes with the activity, so it waits.
    have hwaiting := waiting_receive retention hwell (List.map_eq_nil_iff.1 hown)
    have hedges := hwaiting.edges rfl later
    rw [numbering_receive, hknows.vertices] at hedges
    exact hedges

/-- At the end of a run from the start, just the activities are marked that have an association. -/
theorem isAssociated_start_after (inputs : List (Except MessageError Message)) (id : String) :
    ((start retention).after inputs).registry.isAssociated id = true ↔
      ∃ edge ∈ (start retention).edges inputs,
        edge.relation = .wasAssociatedWith ∧ edge.source = id := by
  have hstart : (start retention).registry.isAssociated id = false := rfl
  rw [isAssociated_after, hstart]
  simp only [Bool.false_eq_true, false_or, associationsOf, List.mem_filter, decide_eq_true_eq]

end Announced

end Session

/-! ### Association in the order of announcements -/

/-- An activity that is announced by a call is associated as the agents come, of which it finds one
or awaits one. -/
structure AssociatedInOrder (submitted : List Call → List Edge) (before : List Call) (call : Call)
    (later : List Call) (activity : Announcement) (found awaited : Option Announcement) : Prop where
  /-- The agent that it finds takes it at once, and no other agent ever does. -/
  atOnce : ∀ agent, found = some agent → ∃ edge, edge.destination = agent.node.id ∧
    associationsOf activity.node.id (submitted before) = [] ∧
    associationsOf activity.node.id (submitted (before ++ [call])) = [edge] ∧
    associationsOf activity.node.id (submitted (before ++ call :: later)) = [edge]
  /-- Otherwise the agent that it awaits takes it, and no other agent ever does. -/
  inTurn : found = none → ∀ agent, awaited = some agent → ∃ edge, edge.destination = agent.node.id ∧
    associationsOf activity.node.id (submitted (before ++ call :: later)) = [edge]
  /-- Otherwise it is never associated. -/
  never : found = none → awaited = none →
    associationsOf activity.node.id (submitted (before ++ call :: later)) = []

/-- The associations that start from a vertex come with its own message and with later ones. -/
theorem Recorder.associationsOf_submittedEdges {σ : Type} [Sink σ] (retention : Retention)
    (sink : σ) (before : List Call) {call : Call} (later : List Call) {message : Message}
    (hcall : call.input = .ok message) :
    associationsOf (((Session.start retention).after (before.map Call.input)).nodeFor message).id
        (submittedEdges retention sink (before ++ call :: later)) =
      associationsOf (((Session.start retention).after (before.map Call.input)).nodeFor message).id
          (((Session.start retention).after (before.map Call.input)).edgesFor message) ++
        associationsOf
          (((Session.start retention).after (before.map Call.input)).nodeFor message).id
          ((((Session.start retention).after (before.map Call.input)).receive
            (.ok message)).session.edges (later.map Call.input)) := by
  have hwell : ∀ earlier, .ok earlier ∈ before.map Call.input → earlier.WellFormed :=
    fun earlier hmem => Call.wellFormed_of_mem hmem
  -- No edge before the message can start from a vertex that is not there yet.
  have hnone := associationsOf_next retention hwell message
  rw [submittedEdges_append_cons retention sink before later hcall, associationsOf_append, hnone,
    List.nil_append, associationsOf_append]

/-- **Association follows the order of announcements**, whatever sink there is. An activity is
associated with the agent that it finds or with the one that it awaits, and with no other; and at
the end of any run just the activities are marked that have an association. -/
theorem Recorder.associations_run {σ : Type} [Sink σ] (retention : Retention) (sink : σ) :
    (∀ (before : List Call) (call : Call) (later : List Call) (header : Header)
      (activityType : String),
      call.input = .ok (.activity header activityType) →
        AssociatedInOrder (submittedEdges retention sink) before call later
          ⟨.activity header activityType, (announcementsFrom 0 (before.map Call.input)).length⟩
          (agentBefore? header.agentId activityType (announcementsFrom 0 (before.map Call.input)))
          (agentAfter? header.agentId activityType (announcementsFrom
            ((announcementsFrom 0 (before.map Call.input)).length + 1) (later.map Call.input)))) ∧
      ∀ (calls : List Call) (id : String),
        ((start retention sink).run calls).recorder.session.registry.isAssociated id = true ↔
          ∃ edge ∈ submittedEdges retention sink calls,
            edge.relation = .wasAssociatedWith ∧ edge.source = id := by
  refine ⟨fun before call later header activityType hcall => ?_, fun calls id => ?_⟩
  · have hwell : ∀ message, .ok message ∈ before.map Call.input → message.WellFormed :=
      fun message hmem => Call.wellFormed_of_mem hmem
    have hknows := knows_after retention hwell
    have hactivity : Announcement.mk (.activity header activityType)
          (announcementsFrom 0 (before.map Call.input)).length =
        ((Session.start retention).after (before.map Call.input)).announcing
          (.activity header activityType) :=
      congrArg _ hknows.vertices.symm
    have hnone := associationsOf_next retention hwell (.activity header activityType)
    have hown := hknows.destinations_own header activityType
    have hlater := destinations_later retention hwell header activityType (later.map Call.input)
    have hnow := associationsOf_submittedEdges retention sink before [] hcall
    have hall := associationsOf_submittedEdges retention sink before later hcall
    rw [hactivity]
    constructor
    · -- The agent is there already: its edge comes with the activity, and no other comes later.
      intro agent hagent
      rw [hagent] at hown hlater
      obtain ⟨edge, hedge, hdestination⟩ := exists_singleton_of_map hown
      refine ⟨edge, hdestination, ?_, ?_, ?_⟩
      · rw [submittedEdges_eq, node_announcing, hnone]
      · rw [node_announcing, hnow, hedge]
        rfl
      · rw [node_announcing, hall, hedge, List.map_eq_nil_iff.1 hlater, List.append_nil]
    · -- No edge comes with the activity, and the only later one is that of the agent awaited.
      intro hfound agent hagent
      rw [hfound] at hown hlater
      simp only [hagent] at hlater
      obtain ⟨edge, hedge, hdestination⟩ := exists_singleton_of_map hlater
      refine ⟨edge, hdestination, ?_⟩
      rw [node_announcing, hall, List.map_eq_nil_iff.1 hown, hedge, List.nil_append]
    · -- Neither the activity nor anything later leads to an edge.
      intro hfound hawaited
      rw [hfound] at hown hlater
      simp only [hawaited] at hlater
      rw [node_announcing, hall, List.map_eq_nil_iff.1 hown, List.map_eq_nil_iff.1 hlater,
        List.append_nil]
  · rw [session_run, submittedEdges_eq]
    exact isAssociated_start_after retention _ id

/-- An activity that comes before its agent awaits it. -/
theorem Recorder.associations_run_awaited :
    (Call.process "ACTIVITY|ingress|s1|1|PacketProcessor").input =
        .ok (.activity ⟨"ingress", "s1", "1"⟩ "PacketProcessor") ∧
      ∃ edge, edge.destination = "agent:s1:1" ∧
        associationsOf "activity:s1:0" (submittedEdges .full Document.empty
          [.process "ACTIVITY|ingress|s1|1|PacketProcessor", .process "AGENT|leaf|s1|2|Switch"]) =
            [edge] := by
  refine ⟨by decide, ?_⟩
  have hruns :=
    (associations_run .full Document.empty).1 [] (.process "ACTIVITY|ingress|s1|1|PacketProcessor")
      [.process "AGENT|leaf|s1|2|Switch"] ⟨"ingress", "s1", "1"⟩ "PacketProcessor" (by decide)
  exact hruns.inTurn (by decide) ⟨.agent ⟨"leaf", "s1", "2"⟩ "Switch", 1⟩ (by decide)

end Lineage
