import Lineage.Proofs.Delivery
import Lineage.Proofs.Origins
import Mathlib.Data.List.Forall2

/-!
# Devices do not interfere

What a session makes of the messages of one device does not depend on other devices. The messages of
a device lead to the same as they do in a run of their own, but for the numbers in the ids
(`Session.isolation_run`).

The two runs are compared message by message. A vertex of the one is *paired* with the vertex of the
same message in the other. The states are `Session.Alike` with respect to the device if what is
known of the device is paired: its agent and its activity, whether the activity has been associated,
and the latest states of its cells.

* A message of another device changes nothing of this (`Session.Alike.foreign`), since agents and
  activities are filed by device, cells name their device, and the id of an activity tells its
  device whatever characters it has.
* A message of the device leads to the same edges in both runs, with paired ends
  (`Session.Alike.edgesFor`), and pairs its vertices (`Session.Alike.receive`).
-/

namespace Lineage

open Lineage.Graph Session Session.CellTable Telemetry

/-! ### Related options -/

section Options

variable {α β γ δ : Type} {R : α → β → Prop} {x : Option α} {y : Option β}

/-- Options that are related stay related if both are filtered alike. -/
theorem rel_filter {p : α → Bool} {q : β → Bool} (h : Option.Rel R x y)
    (hpq : ∀ a b, x = some a → y = some b → R a b → p a = q b) :
    Option.Rel R (x.filter p) (y.filter q) := by
  cases h with
  | none => exact .none
  -- `a` is kept if and only if `b` is.
  | @some a b hab =>
    rw [Option.filter, Option.filter, hpq a b rfl rfl hab]
    split
    · exact .some hab
    · exact .none

/-- Related options make related rows of at most one thing. -/
theorem forall₂_toList_map {S : γ → δ → Prop} {f : α → γ} {g : β → δ} (h : Option.Rel R x y)
    (hfg : ∀ a b, R a b → S (f a) (g b)) : List.Forall₂ S (x.toList.map f) (y.toList.map g) := by
  cases h with
  | none => exact .nil
  | some hab => exact .cons (hfg _ _ hab) .nil

/-- Of related options, both are there or neither is. -/
theorem isSome_eq_of_rel (h : Option.Rel R x y) : x.isSome = y.isSome := by
  cases h <;> rfl

/-- Going on alike with related options leads to related ones. -/
theorem rel_bind {S : γ → δ → Prop} {f : α → Option γ} {g : β → Option δ} (h : Option.Rel R x y)
    (hfg : ∀ a b, R a b → Option.Rel S (f a) (g b)) : Option.Rel S (x.bind f) (y.bind g) := by
  cases h with
  | none => exact .none
  | some hab => exact hfg _ _ hab

/-- What is related stays so in a wider relation. -/
theorem rel_imp {S : α → β → Prop} (h : Option.Rel R x y) (hRS : ∀ a b, R a b → S a b) :
    Option.Rel S x y := by
  cases h with
  | none => exact .none
  | some hab => exact .some (hRS _ _ hab)

end Options

/-! ### Pairs of vertices -/

/-- Two nodes are those of one of the pairs of vertices. -/
def Paired (pairs : List (Vertex × Vertex)) (x y : Node) : Prop :=
  ∃ p ∈ pairs, p.1.toNode = x ∧ p.2.toNode = y

/-- Two edges are the same but for their ids: they have the same relation and annotations, and their
ends are paired. -/
structure SameEdge (pairs : List (Vertex × Vertex)) (e e' : Edge) : Prop where
  relation : e.relation = e'.relation
  annotations : e.annotations = e'.annotations
  source : ∃ p ∈ pairs, p.1.id = e.source ∧ p.2.id = e'.source
  destination : ∃ p ∈ pairs, p.1.id = e.destination ∧ p.2.id = e'.destination

/-- Edges that are the same stay so when pairs are added. -/
theorem SameEdge.append {pairs : List (Vertex × Vertex)} {e e' : Edge} (h : SameEdge pairs e e')
    (more : List (Vertex × Vertex)) : SameEdge (pairs ++ more) e e' := by
  obtain ⟨p, hp, hsource⟩ := h.source
  obtain ⟨q, hq, hdestination⟩ := h.destination
  exact ⟨h.relation, h.annotations, ⟨p, List.mem_append_left _ hp, hsource⟩,
    ⟨q, List.mem_append_left _ hq, hdestination⟩⟩

section Pairs

variable {pairs : List (Vertex × Vertex)} {x y z w : Node}

/-- Nodes that are paired stay so, too. -/
theorem Paired.append (h : Paired pairs x y) (more : List (Vertex × Vertex)) :
    Paired (pairs ++ more) x y := by
  obtain ⟨p, hp, hx, hy⟩ := h
  exact ⟨p, List.mem_append_left _ hp, hx, hy⟩

/-- Their ids are those of the pair. -/
theorem Paired.ids (h : Paired pairs x y) : ∃ p ∈ pairs, p.1.id = x.id ∧ p.2.id = y.id := by
  obtain ⟨p, hp, rfl, rfl⟩ := h
  exact ⟨p, hp, rfl, rfl⟩

/-- What a key says of one of them it says of the other. -/
theorem Paired.get?_eq (h : Paired pairs x y)
    (hpairs : ∀ p ∈ pairs, p.1.annotations = p.2.annotations) (key : String) :
    x.get? key = y.get? key := by
  obtain ⟨p, hp, rfl, rfl⟩ := h
  exact congrArg (Catalog.get? · key) (hpairs p hp)

/-- So they belong to agents that are paired, or neither does. -/
theorem Paired.belongsTo_eq (hx : Paired pairs x y) (hz : Paired pairs z w)
    (hpairs : ∀ p ∈ pairs, p.1.annotations = p.2.annotations) : belongsTo x z = belongsTo y w := by
  simp only [belongsTo, hx.get?_eq hpairs, hz.get?_eq hpairs]

/-- Paired activities and agents are associated by the same edge, whatever its number is. -/
theorem Paired.sameEdge_association (hx : Paired pairs x y) (hz : Paired pairs z w) (m n : Nat) :
    SameEdge pairs (associationEdge m x z) (associationEdge n y w) :=
  ⟨rfl, rfl, hx.ids, hz.ids⟩

/-- An entity goes back to its activity by the same edge. -/
theorem Paired.sameEdge_causal (hx : Paired pairs x y) (hz : Paired pairs z w)
    (hpairs : ∀ p ∈ pairs, p.1.annotations = p.2.annotations) (m n : Nat) (operation : Operation) :
    SameEdge pairs (causalEdge m operation x z) (causalEdge n operation y w) := by
  -- A use starts at the activity, and a generation at the entity; the time is that of the entity in
  -- both.
  have htime := hx.get?_eq hpairs Key.timestamp
  cases operation with
  | read =>
    refine ⟨rfl, ?_, hz.ids, hx.ids⟩
    simp only [causalEdge, htime]
    rfl
  | write =>
    refine ⟨rfl, ?_, hx.ids, hz.ids⟩
    simp only [causalEdge, htime]
    rfl
  | add =>
    refine ⟨rfl, ?_, hx.ids, hz.ids⟩
    simp only [causalEdge, htime]
    rfl

/-- The later state of a change goes back to the earlier by the same edge. -/
theorem Paired.sameEdge_derivation (hx : Paired pairs x y) (hz : Paired pairs z w)
    (hpairs : ∀ p ∈ pairs, p.1.annotations = p.2.annotations) (m n : Nat) (operation : Operation) :
    SameEdge pairs (derivationEdge m operation ⟨x, z⟩) (derivationEdge n operation ⟨y, w⟩) := by
  have hbefore := hx.get?_eq hpairs Key.value
  have hafter := hz.get?_eq hpairs Key.value
  -- The edge starts at the later state.
  refine ⟨rfl, ?_, hz.ids, hx.ids⟩
  simp only [derivationEdge, Change.previousValue, Change.currentValue, hbefore, hafter]
  rfl

/-- The latest states of a cell stay paired if paired entities come. -/
theorem Paired.refreshed {latest latest' : Option Node} (h : Paired pairs x y)
    (hlatest : Option.Rel (Paired pairs) latest latest')
    (hpairs : ∀ p ∈ pairs, p.1.annotations = p.2.annotations) (operation : Operation) :
    Paired pairs (refreshed latest operation x) (refreshed latest' operation y) := by
  cases hlatest with
  | none => exact h
  | some hpair =>
    -- Whether it is a change is asked of the values only.
    simp only [CellTable.refreshed, hpair.get?_eq hpairs, h.get?_eq hpairs]
    split
    · exact h
    · exact hpair

end Pairs

namespace Session

/-! ### States that are alike for a device -/

/-- What two sessions know of a device is paired. -/
structure Alike (agentId : String) (pairs : List (Vertex × Vertex)) (session alone : Session) :
    Prop where
  annotations : ∀ p ∈ pairs, p.1.annotations = p.2.annotations
  agentOf? : Option.Rel (Paired pairs) (session.registry.agentOf? agentId)
    (alone.registry.agentOf? agentId)
  activityOf? : Option.Rel (Paired pairs) (session.registry.activityOf? agentId)
    (alone.registry.activityOf? agentId)
  isAssociated : ∀ x y, session.registry.activityOf? agentId = some x →
    alone.registry.activityOf? agentId = some y →
    session.registry.isAssociated x.id = alone.registry.isAssociated y.id
  latest? : ∀ cell, cell.agentId = agentId →
    Option.Rel (Paired pairs) (session.cells.latest? cell) (alone.cells.latest? cell)

/-- Nothing is known of the device at the start. -/
theorem Alike.initial (agentId : String) (retention : Retention) :
    Alike agentId [] (start retention) (start retention) where
  annotations := fun _ h => absurd h (by simp)
  agentOf? := .none
  activityOf? := .none
  isAssociated := fun _ _ h _ => absurd h (by simp [start, Registry.activityOf?, Registry.empty])
  latest? := fun _ _ => .none

section Alike

variable {agentId : String} {pairs : List (Vertex × Vertex)} {session alone : Session}
  {message : Message} {announced announced' : List Announcement}

/-- An input that is refused changes nothing of it. -/
theorem Alike.drop (h : Alike agentId pairs session alone) (error : MessageError) :
    Alike agentId pairs (session.drop error) alone :=
  ⟨h.annotations, h.agentOf?, h.activityOf?, h.isAssociated, h.latest?⟩

/-- A message is about cells of its own device only. -/
theorem agentId_of_cell? {cell : Cell} (hwell : message.WellFormed)
    (hcell : message.cell? = some cell) : cell.agentId = message.header.agentId :=
  (Announcement.tells_of_cell? (a := ⟨message, 0⟩) hwell hcell).agentId_eq

/-- **A message of another device** changes nothing that is known of the device. -/
theorem Alike.foreign (h : Alike agentId pairs session alone) (hknows : session.Knows announced)
    (hwell : message.WellFormed) (hdevice : message.header.agentId ≠ agentId) :
    Alike agentId pairs (session.receive (.ok message)).session alone := by
  have hagent : (session.receive (.ok message)).session.registry.agentOf? agentId =
      session.registry.agentOf? agentId := by
    rw [agentOf?_receive]
    exact if_neg fun hsort => hdevice (Message.isAgentOf_iff.1 hsort).2
  have hactivity : (session.receive (.ok message)).session.registry.activityOf? agentId =
      session.registry.activityOf? agentId := by
    rw [activityOf?_receive]
    exact if_neg fun hsort => hdevice (Message.isActivityOf_iff.1 hsort).2
  -- The pairs stay the same, so it is left to say that nothing has changed on the side of the first
  -- run.
  refine ⟨h.annotations, ?_, ?_, ?_, ?_⟩
  · rw [hagent]
    exact h.agentOf?
  · rw [hactivity]
    exact h.activityOf?
  · intro x y hx hy
    rw [hactivity] at hx
    rw [← h.isAssociated x y hx hy, Bool.eq_iff_iff, isAssociated_receive]
    refine or_iff_left ?_
    -- The activity that is marked is one of the device of the message.
    rintro ⟨edge, hedge, hrelation, hsource⟩
    have hend := (hknows.edgesFor hwell hedge).1
    rw [Edge.sourceEnd, hrelation, hsource] at hend
    exact hdevice (hend.device_eq (hknows.announces_activity hx))
  · -- A cell names its device, and the message names none of the device's cells.
    intro cell hcell
    rw [cells_receive, latest?_cellsAfter_of_ne hwell]
    · exact h.latest? cell hcell
    · exact fun hnamed => hdevice ((agentId_of_cell? hwell hnamed).symm.trans hcell)

/-! ### Messages of the device -/

/-- The pairs of vertices after one more message. -/
def pairsAfter (pairs : List (Vertex × Vertex)) (session alone : Session) (message : Message) :
    List (Vertex × Vertex) :=
  pairs ++ [(session.vertexFor message, alone.vertexFor message)]

/-- The nodes of the message are paired. -/
theorem paired_nodeFor (pairs : List (Vertex × Vertex)) (session alone : Session)
    (message : Message) :
    Paired (pairsAfter pairs session alone message) (session.nodeFor message)
      (alone.nodeFor message) :=
  ⟨(session.vertexFor message, alone.vertexFor message), by simp [pairsAfter], rfl, rfl⟩

/-- The vertices of one message say the same. -/
theorem Alike.annotations_pairsAfter (h : Alike agentId pairs session alone) (message : Message) :
    ∀ p ∈ pairsAfter pairs session alone message, p.1.annotations = p.2.annotations := by
  intro p hp
  rcases List.mem_append.1 hp with hp | hp
  · exact h.annotations p hp
  · obtain rfl := List.mem_singleton.1 hp
    rfl

/-- What was paired before is paired after it. -/
theorem rel_pairsAfter {x y : Option Node} (h : Option.Rel (Paired pairs) x y)
    (session alone : Session) (message : Message) :
    Option.Rel (Paired (pairsAfter pairs session alone message)) x y :=
  rel_imp h fun _ _ hpair => hpair.append _

/-- An agent meets activities that are paired, or none in either run. -/
theorem Alike.awaitingAgent? (h : Alike agentId pairs session alone) (message : Message) :
    Option.Rel (Paired (pairsAfter pairs session alone message))
      (awaitingAgent? session.registry agentId (session.nodeFor message))
      (awaitingAgent? alone.registry agentId (alone.nodeFor message)) := by
  refine rel_filter (rel_pairsAfter h.activityOf? session alone message) fun x y hx hy hpair => ?_
  rw [h.isAssociated x y hx hy, hpair.belongsTo_eq (paired_nodeFor pairs session alone message)
    (h.annotations_pairsAfter message)]

/-- An activity meets agents that are paired, or none in either run. -/
theorem Alike.agentFor? (h : Alike agentId pairs session alone) (message : Message) :
    Option.Rel (Paired (pairsAfter pairs session alone message))
      (agentFor? session.registry agentId (session.nodeFor message))
      (agentFor? alone.registry agentId (alone.nodeFor message)) := by
  refine rel_filter (rel_pairsAfter h.agentOf? session alone message) fun x y _ _ hpair => ?_
  exact (paired_nodeFor pairs session alone message).belongsTo_eq hpair
    (h.annotations_pairsAfter message)

/-- An entity goes back to activities that are paired, or to none in either run. -/
theorem Alike.causeFor? (h : Alike agentId pairs session alone) (message : Message) :
    Option.Rel (Paired (pairsAfter pairs session alone message))
      (causeFor? session.registry agentId) (causeFor? alone.registry agentId) := by
  refine rel_filter (rel_pairsAfter h.activityOf? session alone message) fun x y _ _ hpair => ?_
  rw [hpair.get?_eq (h.annotations_pairsAfter message)]

/-- The change of a cell is paired, on both sides of it. -/
theorem Alike.changeFor? (h : Alike agentId pairs session alone) (hwell : message.WellFormed)
    (hdevice : message.header.agentId = agentId) :
    Option.Rel (fun c c' => Paired (pairsAfter pairs session alone message) c.previous c'.previous ∧
        Paired (pairsAfter pairs session alone message) c.current c'.current)
      (session.changeFor? message) (alone.changeFor? message) := by
  cases hcell : message.cell? with
  -- The message names no cell, in neither run.
  | none =>
    rw [changeFor?_of_cell?_eq_none hwell hcell, changeFor?_of_cell?_eq_none hwell hcell]
    exact .none
  | some cell =>
    have htells : (session.announcing message).Tells cell := Announcement.tells_of_cell? hwell hcell
    have htells' : (alone.announcing message).Tells cell := Announcement.tells_of_cell? hwell hcell
    have hnew := paired_nodeFor pairs session alone message
    have hlatest := h.latest? cell ((agentId_of_cell? hwell hcell).trans hdevice)
    rw [changeFor?_of_tells htells, changeFor?_of_tells htells',
      show (alone.announcing message).observed.1 = (session.announcing message).observed.1 from rfl,
      hnew.get?_eq (h.annotations_pairsAfter message)]
    -- Whether it is a change is asked of values, and these are the same of both latest states.
    refine rel_bind hlatest fun x y hpair => ?_
    rw [hpair.get?_eq h.annotations]
    split
    · exact .some ⟨hpair.append _, hnew⟩
    · exact .none

/-- **The edges of a message of the device** are the same in both runs, but for their ids. -/
theorem Alike.edgesFor (h : Alike agentId pairs session alone) (hwell : message.WellFormed)
    (hdevice : message.header.agentId = agentId) :
    List.Forall₂ (SameEdge (pairsAfter pairs session alone message)) (session.edgesFor message)
      (alone.edgesFor message) := by
  have hnew := paired_nodeFor pairs session alone message
  have hsame := h.annotations_pairsAfter message
  subst hdevice
  cases message with
  -- The edge starts at the activity that waits, and ends at the new agent.
  | agent header agentType =>
    exact forall₂_toList_map (h.awaitingAgent? _) fun x y hpair =>
      hpair.sameEdge_association hnew _ _
  | activity header activityType =>
    exact forall₂_toList_map (h.agentFor? _) fun x y hpair => hnew.sameEdge_association hpair _ _
  | entity header entityType operation payload =>
    -- The number of the second edge depends on whether there is a first one, but only ids tell
    -- numbers.
    exact List.rel_append
      (forall₂_toList_map (h.changeFor? hwell rfl) fun c c' hpair =>
        hpair.1.sameEdge_derivation hpair.2 hsame _ _ operation)
      (forall₂_toList_map (h.causeFor? _) fun x y hpair =>
        hnew.sameEdge_causal hpair hsame _ _ operation)

/-- A message of the device misses its activity in both runs or in none. -/
theorem Alike.isUncaused_eq (h : Alike agentId pairs session alone)
    (hdevice : message.header.agentId = agentId) :
    session.isUncaused message = alone.isUncaused message := by
  subst hdevice
  cases message with
  | agent header agentType => rfl
  | activity header activityType => rfl
  | entity header entityType operation payload =>
    have hcause := isSome_eq_of_rel (h.causeFor? (.entity header entityType operation payload))
    simp only [isUncaused, ← Option.not_isSome, Message.header] at hcause ⊢
    rw [hcause]

/-- The edges of an agent or an activity start from the activity that is known of the
device after it. -/
theorem source_edgesFor_known {node : Node} {edge : Edge} (hevent : message.event ≠ .entity)
    (hknown : (session.receive (.ok message)).session.registry.activityOf? message.header.agentId =
      some node)
    (hedge : edge ∈ session.edgesFor message) : edge.source = node.id := by
  rw [activityOf?_receive] at hknown
  cases message with
  | agent header agentType =>
    obtain ⟨activity, hawaiting, rfl⟩ := mem_edgesFor_agent.1 hedge
    -- The agent is filed elsewhere, so the activity is the one known before.
    have hactivity := (Option.filter_eq_some_iff.1 hawaiting).1
    obtain rfl := Option.some.inj (hactivity.symm.trans hknown)
    rfl
  | activity header activityType =>
    obtain ⟨agent, -, rfl⟩ := mem_edgesFor_activity.1 hedge
    have hnode : session.nodeFor (.activity header activityType) = node := by
      simpa [Message.isActivityOf, Message.header] using hknown
    exact congrArg Node.id hnode
  | entity header entityType operation payload => exact absurd rfl hevent

/-- The activity that is known of a device is marked by a message of the device that leads to edges,
unless the message is an entity. -/
theorem isAssociated_receive_known {node : Node}
    (hknown : (session.receive (.ok message)).session.registry.activityOf? message.header.agentId =
      some node) :
    (session.receive (.ok message)).session.registry.isAssociated node.id =
      (session.registry.isAssociated node.id ||
        (decide (message.event ≠ .entity) && !(session.edgesFor message).isEmpty)) := by
  rw [Bool.eq_iff_iff, isAssociated_receive, Bool.or_eq_true]
  refine or_congr_right ?_
  simp only [Bool.and_eq_true, decide_eq_true_eq, Bool.not_eq_true', List.isEmpty_eq_false_iff]
  constructor
  · rintro ⟨edge, hedge, hrelation, -⟩
    exact ⟨(relation_edgesFor hedge).1 hrelation, List.ne_nil_of_mem hedge⟩
  · -- An edge of an agent or an activity is an association, and it starts at `node`.
    rintro ⟨hevent, hedges⟩
    obtain ⟨edge, hedge⟩ := List.exists_mem_of_ne_nil _ hedges
    exact ⟨edge, hedge, (relation_edgesFor hedge).2 hevent,
      source_edgesFor_known hevent hknown hedge⟩

/-- **A message of the device** pairs its vertices, and what is known of the device after
it is paired. -/
theorem Alike.receive (h : Alike agentId pairs session alone) (hknows : session.Knows announced)
    (hknows' : alone.Knows announced') (hwell : message.WellFormed)
    (hdevice : message.header.agentId = agentId) :
    Alike agentId (pairsAfter pairs session alone message) (session.receive (.ok message)).session
      (alone.receive (.ok message)).session := by
  have hnew := paired_nodeFor pairs session alone message
  -- Edges come in both runs or in none, and so the activity is marked in both or in none.
  have hedges := h.edgesFor hwell hdevice
  refine ⟨h.annotations_pairsAfter message, ?_, ?_, ?_, ?_⟩
  · rw [agentOf?_receive, agentOf?_receive]
    split
    · -- The message is the device its new agent.
      exact .some hnew
    · exact rel_pairsAfter h.agentOf? session alone message
  · rw [activityOf?_receive, activityOf?_receive]
    split
    · exact .some hnew
    · exact rel_pairsAfter h.activityOf? session alone message
  · intro x y hx hy
    have hold : session.registry.isAssociated x.id = alone.registry.isAssociated y.id := by
      rw [activityOf?_receive] at hx hy
      split at hx
      next hsort =>
        -- A new activity is marked in neither run.
        rw [if_pos hsort] at hy
        rw [← Option.some.inj hx, ← Option.some.inj hy, hknows.isAssociated_next,
          hknows'.isAssociated_next]
      next hsort =>
        rw [if_neg hsort] at hy
        exact h.isAssociated x y hx hy
    subst hdevice
    have hempty : (session.edgesFor message).isEmpty = (alone.edgesFor message).isEmpty := by
      rw [Bool.eq_iff_iff, List.isEmpty_iff, List.isEmpty_iff, ← List.length_eq_zero_iff,
        ← List.length_eq_zero_iff, hedges.length_eq]
    rw [isAssociated_receive_known hx, isAssociated_receive_known hy, hold, hempty]
  · intro cell hcell
    rw [cells_receive, cells_receive]
    by_cases hnamed : message.cell? = some cell
    · have htells : (session.announcing message).Tells cell :=
        Announcement.tells_of_cell? hwell hnamed
      have htells' : (alone.announcing message).Tells cell :=
        Announcement.tells_of_cell? hwell hnamed
      rw [latest?_cellsAfter_of_tells htells, latest?_cellsAfter_of_tells htells']
      exact .some (hnew.refreshed (rel_pairsAfter (h.latest? cell hcell) session alone message)
        (h.annotations_pairsAfter message) _)
    · rw [latest?_cellsAfter_of_ne hwell hnamed, latest?_cellsAfter_of_ne hwell hnamed]
      exact rel_pairsAfter (h.latest? cell hcell) session alone message

end Alike

/-! ### Runs -/

/-- Whether a message of a device was taken in. -/
def Reception.isFrom (agentId : String) (reception : Reception) : Bool :=
  reception.identity.map (·.2) = some agentId

/-- Whether something was read as a message of a device. -/
def isMessageOf (agentId : String) : Except MessageError Message → Bool
  | .ok message => message.header.agentId = agentId
  | .error _ => false

/-- What became of a message in two runs is the same but for ids: its event, whether an activity was
missed, its vertex and its edges. -/
structure SameReception (pairs : List (Vertex × Vertex)) (reception reception' : Reception) :
    Prop where
  outcome : ∃ outcome outcome', reception.result = .ok outcome ∧ reception'.result = .ok outcome' ∧
    outcome.event = outcome'.event ∧ outcome.missingCorrelation = outcome'.missingCorrelation
  vertex : ∃ v v', reception.vertices = [v] ∧ reception'.vertices = [v'] ∧ v.kind = v'.kind ∧
    v.annotations = v'.annotations
  edges : List.Forall₂ (SameEdge pairs) reception.edges reception'.edges

/-- What became of a message stays the same when pairs are added. -/
theorem SameReception.append {pairs : List (Vertex × Vertex)} {reception reception' : Reception}
    (h : SameReception pairs reception reception') (more : List (Vertex × Vertex)) :
    SameReception (pairs ++ more) reception reception' :=
  ⟨h.outcome, h.vertex, h.edges.imp fun _ _ hedge => hedge.append more⟩

section Runs

variable {agentId : String} {pairs : List (Vertex × Vertex)} {session alone : Session}
  {announced announced' : List Announcement}

/-- A message is taken in as one of its own device. -/
theorem isFrom_receive (agentId : String) (session : Session) (message : Message) :
    (session.receive (.ok message)).isFrom agentId = decide (message.header.agentId = agentId) := by
  simp [Reception.isFrom, receive]

/-- What becomes of a message of the device is the same in both runs, but for ids. -/
theorem Alike.sameReception (h : Alike agentId pairs session alone) {message : Message}
    (hwell : message.WellFormed) (hdevice : message.header.agentId = agentId) :
    SameReception (pairsAfter pairs session alone message) (session.receive (.ok message))
      (alone.receive (.ok message)) where
  outcome := ⟨_, _, result_receive session message, result_receive alone message, rfl,
    h.isUncaused_eq hdevice⟩
  vertex := ⟨_, _, vertices_receive session message, vertices_receive alone message, rfl, rfl⟩
  edges := by
    rw [edges_receive, edges_receive]
    exact h.edgesFor hwell hdevice

/-- **The messages of the device**, among any others, lead to the same as alone. -/
theorem Alike.receptions (h : Alike agentId pairs session alone) (hknows : session.Knows announced)
    (hknows' : alone.Knows announced') {inputs : List (Except MessageError Message)}
    (hwell : ∀ message, .ok message ∈ inputs → message.WellFormed) :
    List.Forall₂
      (SameReception (pairs ++
        (((session.receptions inputs).filter (Reception.isFrom agentId)).flatMap
          Reception.vertices).zip
          ((alone.receptions (inputs.filter (isMessageOf agentId))).flatMap Reception.vertices)))
      ((session.receptions inputs).filter (Reception.isFrom agentId))
      (alone.receptions (inputs.filter (isMessageOf agentId))) := by
  induction inputs generalizing pairs session alone announced announced' with
  | nil => exact .nil
  | cons input inputs ih =>
    have hlater : ∀ message, .ok message ∈ inputs → message.WellFormed :=
      fun message hmem => hwell message (List.mem_cons_of_mem _ hmem)
    cases input with
    -- Nothing is made of it, and alone it is left out.
    | error e => exact ih (h.drop e) (hknows.drop e) hknows' hlater
    | ok message =>
      have hown : message.WellFormed := hwell message List.mem_cons_self
      rw [Session.receptions, List.filter_cons, List.filter_cons, isFrom_receive, isMessageOf]
      by_cases hdevice : message.header.agentId = agentId
      · -- Both runs take the message in, and its vertices are a new pair.
        have hrest := ih (h.receive hknows hknows' hown hdevice) (hknows.receive hown)
          (hknows'.receive hown) hlater
        have hsame := h.sameReception hown hdevice
        simp only [hdevice, decide_true, if_true, Session.receptions, List.flatMap_cons,
          vertices_receive, List.singleton_append, List.zip_cons_cons]
        rw [List.append_cons]
        exact .cons (hsame.append _) hrest
      · -- The run of the device alone does not see the message.
        simp only [hdevice, decide_false, Bool.false_eq_true, if_false]
        exact ih (h.foreign hknows hown hdevice) (hknows.receive hown) hknows' hlater

/-- Of the vertices of a run, only those that one device announced are joined by an edge. -/
theorem agentId_eq_of_mem_edges (retention : Retention)
    {inputs : List (Except MessageError Message)}
    (hwell : ∀ message, .ok message ∈ inputs → message.WellFormed) {edge : Edge}
    (hedge : edge ∈ (start retention).edges inputs) {a b : Announcement}
    (ha : a ∈ announcementsFrom 0 inputs) (hb : b ∈ announcementsFrom 0 inputs)
    (hsource : a.node.id = edge.source) (hdestination : b.node.id = edge.destination) :
    a.agentId = b.agentId := by
  obtain ⟨agentId, ⟨a', ha', hdevice, hend⟩, ⟨b', hb', hdevice', hend'⟩⟩ :=
    announces_ends_edges retention hwell hedge
  -- Of all announcements, just the two that the edge joins have its ends for ids.
  have hid : a.node.id = a'.node.id := hsource.trans (congrArg Endpoint.id hend).symm
  have hid' : b.node.id = b'.node.id := hdestination.trans (congrArg Endpoint.id hend').symm
  rw [eq_of_mem_announcementsFrom ha ha' hid, eq_of_mem_announcementsFrom hb hb' hid', hdevice,
    hdevice']

end Runs

/-- **Devices do not interfere.** The messages of a device among any others lead to the same as in a
run of their own: the same event, the same vertex and the same edges but for the ids, with ends at
the vertices of the same messages. And no edge of a run joins vertices that two devices announced,
whatever characters their names and ids have. -/
theorem isolation_run (retention : Retention) (calls : List Call) (agentId : String) :
    let here :=
      ((start retention).receptions (calls.map Call.input)).filter (Reception.isFrom agentId)
    let alone := (start retention).receptions
      ((calls.filter fun call => isMessageOf agentId call.input).map Call.input)
    List.Forall₂ (SameReception ((here.flatMap Reception.vertices).zip
      (alone.flatMap Reception.vertices))) here alone ∧
      ∀ edge ∈ (start retention).edges (calls.map Call.input),
        (∃ deviceId,
          Announces (announcementsFrom 0 (calls.map Call.input)) deviceId edge.sourceEnd ∧
          Announces (announcementsFrom 0 (calls.map Call.input)) deviceId edge.destinationEnd) ∧
        ∀ a ∈ announcementsFrom 0 (calls.map Call.input),
          ∀ b ∈ announcementsFrom 0 (calls.map Call.input),
            a.node.id = edge.source → b.node.id = edge.destination → a.agentId = b.agentId := by
  have hwell : ∀ message, .ok message ∈ calls.map Call.input → message.WellFormed :=
    fun message hmem => Call.wellFormed_of_mem hmem
  intro here alone
  refine ⟨?_, fun edge hedge => ⟨announces_ends_edges retention hwell hedge, ?_⟩⟩
  · have hsame :=
      (Alike.initial agentId retention).receptions (.initial retention) (.initial retention) hwell
    -- Choosing among the calls is choosing among what they are read as.
    rw [List.filter_map] at hsame
    exact hsame
  · intro a ha b hb hsource hdestination
    exact agentId_eq_of_mem_edges retention hwell hedge ha hb hsource hdestination

end Session

end Lineage
