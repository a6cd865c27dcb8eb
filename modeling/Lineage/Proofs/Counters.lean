import Lineage.Proofs.Run

/-!
# What is counted

The counters of a session follow what it hands out. A message that is taken in counts once, its
vertex and each of its edges count under their kinds, and it counts as missing its activity if none
is known; a refused message counts once, and under the kind of its error (`Session.stats_receive`,
`Session.drop`). So at any time the counters tell how many vertices and edges of each kind there are
(`Session.count_vertices_after`, `Session.count_edges_after`), and how many messages have been
refused with each kind of error (`Session.count_dropped_after`).
-/

namespace Lineage

open Lineage.Graph Session Telemetry

/-! ### Counting several things -/

namespace Session.Stats

/-- Counts edges, each under its relation. -/
def countEdges (stats : Stats) (edges : List Edge) : Stats :=
  { stats with
    edges := edges.foldl (fun counters edge => counters.increment edge.relation.label)
      stats.edges }

/-- Counts an entity as missing its activity, if it is. -/
def countMissingIf (stats : Stats) (missing : Bool) : Stats :=
  { stats with missingCorrelations := stats.missingCorrelations + missing.toNat }

variable (stats : Stats) (edges : List Edge)

/-- Edges may be counted part by part. -/
theorem countEdges_append (later : List Edge) :
    stats.countEdges (edges ++ later) = (stats.countEdges edges).countEdges later := by
  simp only [countEdges, List.foldl_append]

/-- Counting edges raises the counters of their relations and leaves the others. -/
theorem count_countEdges (relation : Relation) :
    (stats.countEdges edges).edges.count relation.label =
      stats.edges.count relation.label + edges.countP fun edge => edge.relation = relation := by
  induction edges generalizing stats with
  | nil => rfl
  | cons edge edges ih =>
    -- Relations are counted under their labels, which tell them apart.
    have hlabel : relation.label = edge.relation.label ↔ edge.relation = relation :=
      Relation.label_inj.trans eq_comm
    have hfirst : (stats.countEdges [edge]).edges.count relation.label =
        stats.edges.count relation.label + if edge.relation = relation then 1 else 0 := by
      simp only [countEdges, List.foldl_cons, List.foldl_nil, Catalog.count_increment, hlabel]
    rw [← List.singleton_append, countEdges_append, ih, hfirst, List.singleton_append,
      List.countP_cons]
    simp only [decide_eq_true_eq]
    omega

/-- Every edge counts once in the total, whatever its relation. -/
theorem edgeTotal_countEdges :
    (stats.countEdges edges).edgeTotal = stats.edgeTotal + edges.length := by
  induction edges generalizing stats with
  | nil => rfl
  | cons edge edges ih =>
    have hfirst : (stats.countEdges [edge]).edgeTotal = stats.edgeTotal + 1 :=
      Catalog.total_increment _ _
    rw [← List.singleton_append, countEdges_append, ih, hfirst, List.length_append,
      List.length_singleton, Nat.add_assoc]

end Session.Stats

/-! ### What a step counts -/

namespace Step

variable (step : Step)

/-- A step counts the edge that it adds. -/
theorem stats_addEdge (edge : Nat → Edge) : (step.addEdge edge).session.stats =
    step.session.stats.countEdges [edge (step.session.numbering.edges + 1)] := rfl

/-- An observation counts the derivation that follows from a change. -/
theorem stats_observe (operation : Operation) (entity : Node) :
    (step.observe operation entity).session.stats =
      step.session.stats.countEdges
        ((step.session.cells.observe operation entity).2.change?.toList.map
          (derivationEdge (step.session.numbering.edges + 1) operation)) := by
  -- The step looks at what the table reports, and adds an edge if it is a change.
  rcases hobserve : step.session.cells.observe operation entity with ⟨cells, observation⟩
  cases hchange : observation.change? with
  | none =>
    simp only [observe, hobserve, hchange, Option.toList_none]
    rfl
  | some change =>
    simp only [observe, hobserve, hchange, Option.toList_some]
    rfl

/-- What is shown to the table counts in the same way, and what is not shown counts nothing. -/
theorem stats_see (entityType : String) (operation : Operation) (entity : Node) :
    (step.see entityType operation entity).session.stats = step.session.stats.countEdges
      (((if (EntityKind.ofTag entityType).isStateful then some (operation, entity) else none).bind
        fun observation =>
          (step.session.cells.observe observation.1 observation.2).2.change?).toList.map
        (derivationEdge (step.session.numbering.edges + 1) operation)) := by
  unfold see
  by_cases hstate : (EntityKind.ofTag entityType).isStateful = true
  · rw [if_pos hstate, if_pos hstate, Option.bind_some]
    exact step.stats_observe operation entity
  · rw [if_neg hstate, if_neg hstate, Option.bind_none]
    rfl

end Step

namespace Session

section Handlers

variable (agentId : String) (node : Node) (step : Step)

/-- An agent counts the association with the activity that was awaiting it. -/
theorem stats_onAgent : (onAgent agentId node step).session.stats =
    step.session.stats.countEdges
      ((awaitingAgent? step.session.registry agentId node).toList.map fun activity =>
        associationEdge (step.session.numbering.edges + 1) activity node) := by
  unfold onAgent
  cases awaitingAgent? step.session.registry agentId node <;> rfl

/-- An activity counts the association with the agent that it finds. -/
theorem stats_onActivity : (onActivity agentId node step).session.stats =
    step.session.stats.countEdges
      ((agentFor? step.session.registry agentId node).toList.map fun agent =>
        associationEdge (step.session.numbering.edges + 1) node agent) := by
  unfold onActivity
  cases agentFor? step.session.registry agentId node <;> rfl

/-- The edge to the activity of an entity counts after what the table makes of the entity; without
an activity, the entity counts as missing one. -/
theorem stats_onEntity (entityType : String) (operation : Operation) {derivations : List Edge}
    (hsee : (step.see entityType operation node).session.stats =
      step.session.stats.countEdges derivations)
    (index : Nat) :
    (onEntity agentId entityType operation node step).session.stats =
      (step.session.stats.countEdges
        (derivations ++ (causeFor? step.session.registry agentId).toList.map
          (causalEdge index operation node))).countMissingIf
            (causeFor? step.session.registry agentId).isNone := by
  rw [onEntity_eq, Stats.countEdges_append, ← hsee]
  cases causeFor? step.session.registry agentId with
  | none => rfl
  | some activity =>
    -- Whatever its number is, the edge counts under the relation of the operation.
    rw [Step.stats_addEdge, Option.toList_some, List.map_singleton, Stats.countEdges,
      Stats.countEdges]
    simp only [List.foldl_cons, List.foldl_nil, relation_causalEdge]
    rfl

end Handlers

section Receive

variable (session : Session) (message : Message)

/-- **What a message counts**: itself, its vertex, its edges, and that its activity is
missing, if it is. -/
theorem stats_receive : (session.receive (.ok message)).session.stats =
    (((session.stats.countMessage.countVertex message.event.vertexKind.label).countEdges
      (session.edgesFor message)).countMissingIf (session.isUncaused message)) := by
  cases message with
  | agent header agentType => exact stats_onAgent header.agentId _ _
  | activity header activityType => exact stats_onActivity header.agentId _ _
  | entity header entityType operation payload =>
    exact stats_onEntity header.agentId _ _ entityType operation (Step.stats_see _ _ _ _) _

/-- A message raises the counter of its own kind by one. -/
theorem count_vertices_receive (kind : VertexKind) :
    (session.receive (.ok message)).session.stats.vertices.count kind.label =
      session.stats.vertices.count kind.label +
        if message.event.vertexKind = kind then 1 else 0 := by
  have hlabel : kind.label = message.event.vertexKind.label ↔ message.event.vertexKind = kind :=
    VertexKind.label_inj.trans eq_comm
  rw [stats_receive, ← if_congr hlabel rfl rfl]
  exact Catalog.count_increment _ _ _

/-- It raises that of a relation by its edges of the relation. -/
theorem count_edges_receive (relation : Relation) :
    (session.receive (.ok message)).session.stats.edges.count relation.label =
      session.stats.edges.count relation.label +
        (session.edgesFor message).countP fun edge => edge.relation = relation := by
  rw [stats_receive]
  exact Stats.count_countEdges _ _ relation

/-- It adds one vertex. -/
theorem vertexTotal_receive :
    (session.receive (.ok message)).session.stats.vertexTotal = session.stats.vertexTotal + 1 := by
  rw [stats_receive]
  exact Catalog.total_increment _ _

/-- It adds as many edges as it leads to. -/
theorem edgeTotal_receive : (session.receive (.ok message)).session.stats.edgeTotal =
    session.stats.edgeTotal + (session.edgesFor message).length := by
  rw [stats_receive]
  exact Stats.edgeTotal_countEdges _ _

end Receive

/-- Whether something is refused with an error of some kind. -/
def isRefusedAs (kind : String) : Except MessageError Message → Bool
  | .error error => error.kind = kind
  | .ok _ => false

section Run

variable (session : Session) (inputs : List (Except MessageError Message))

/-- What is taken in counts once, refused or not. -/
theorem messages_receive (input : Except MessageError Message) :
    (session.receive input).session.stats.messages = session.stats.messages + 1 := by
  cases input with
  | error e => rfl
  | ok message =>
    rw [stats_receive]
    rfl

/-- At any time all inputs have been counted. -/
theorem messages_after :
    (session.after inputs).stats.messages = session.stats.messages + inputs.length := by
  induction inputs generalizing session with
  | nil => rfl
  | cons input inputs ih =>
    rw [after_cons, ih, messages_receive, List.length_cons, Nat.add_assoc, Nat.add_comm 1]

/-- At any time the counter of a kind tells how many vertices of the kind have been added. -/
theorem count_vertices_after (kind : VertexKind) :
    (session.after inputs).stats.vertices.count kind.label =
      session.stats.vertices.count kind.label +
        ((announcementsFrom session.numbering.vertices inputs).map Announcement.vertex).countP
          fun v => v.kind = kind := by
  induction inputs generalizing session with
  | nil => rfl
  | cons input inputs ih =>
    cases input with
    -- A refusal adds no vertex.
    | error e => exact ih (session.drop e)
    | ok message =>
      have hkind : (Announcement.mk message session.numbering.vertices).vertex.kind =
          message.event.vertexKind := rfl
      rw [after_cons, ih, count_vertices_receive, numbering_receive, announcementsFrom,
        List.map_cons, List.countP_cons]
      simp only [hkind, decide_eq_true_eq]
      omega

/-- At any time the counter of a relation tells how many edges of the relation have been added. -/
theorem count_edges_after (relation : Relation) :
    (session.after inputs).stats.edges.count relation.label =
      session.stats.edges.count relation.label +
        (session.edges inputs).countP fun edge => edge.relation = relation := by
  induction inputs generalizing session with
  | nil => rfl
  | cons input inputs ih =>
    cases input with
    | error e => exact ih (session.drop e)
    | ok message =>
      rw [after_cons, ih, count_edges_receive, edges_ok, List.countP_append, Nat.add_assoc]

/-- At any time the counter of a kind of error tells how many messages have been refused with
one of the kind. -/
theorem count_dropped_after (kind : String) : (session.after inputs).stats.dropped.count kind =
    session.stats.dropped.count kind + inputs.countP (isRefusedAs kind) := by
  induction inputs generalizing session with
  | nil => rfl
  | cons input inputs ih =>
    rw [after_cons, ih, List.countP_cons]
    cases input with
    | error error =>
      -- The error is counted under its own kind.
      have hdrop : (session.receive (.error error)).session.stats.dropped.count kind =
          session.stats.dropped.count kind + if kind = error.kind then 1 else 0 :=
        Catalog.count_increment _ _ _
      rw [hdrop]
      simp only [isRefusedAs, decide_eq_true_eq, eq_comm (a := kind)]
      omega
    | ok message =>
      rw [stats_receive]
      rfl

end Run

end Session

end Lineage
