import Lineage.Proofs.Ends
import Mathlib.Logic.Relation

/-!
# Provenance has no cycles

Following the edges of a document, whatever their relations, never leads back to where one started
(`Recorder.acyclic_run`).

The order of announcements alone does not show this: an activity uses entities that were announced
after it, while all other edges lead back in time. But nothing starts from an entity that was only
read, and nothing starts from an agent. So announcements can be ranked (`Announcement.rank`), with
those at the bottom, activities above them, and the entities that were written or added on top,
later ones higher. Whatever an edge may join, it leads to a lower rank
(`Announcement.Leads.rank_lt`).
-/

namespace Lineage

open Lineage.Graph Session Telemetry

/-! ### Graphs without cycles -/

namespace Graph.Document

/-- There is an edge from one end to the other, of whatever relation. -/
def Arc (document : Document) (source destination : Endpoint) : Prop :=
  ∃ edge ∈ document.edges, edge.sourceEnd = source ∧ edge.destinationEnd = destination

/-- No way along the edges leads back to where it started. -/
def Acyclic (document : Document) : Prop :=
  ∀ endpoint, ¬ Relation.TransGen document.Arc endpoint endpoint

/-- A document has no cycle if its edges lead down some ranking. -/
theorem acyclic_of_rank {document : Document} (rank : Endpoint → Nat)
    (h : ∀ edge ∈ document.edges, rank edge.destinationEnd < rank edge.sourceEnd) :
    document.Acyclic := by
  have hpath : ∀ source destination, Relation.TransGen document.Arc source destination →
      rank destination < rank source := by
    -- Induction on the way: every arc on it goes down, so the whole way does.
    intro source destination hway
    induction hway with
    | single harc =>
      obtain ⟨edge, hedge, rfl, rfl⟩ := harc
      exact h edge hedge
    | tail _ harc ih =>
      obtain ⟨edge, hedge, rfl, rfl⟩ := harc
      exact (h edge hedge).trans ih
  intro endpoint hcycle
  exact Nat.lt_irrefl _ (hpath endpoint endpoint hcycle)

end Graph.Document

/-! ### The rank of an announcement -/

namespace Announcement

/-- How high an announcement stands. -/
def rank (announcement : Announcement) : Nat :=
  match announcement.message with
  | .agent _ _ => 0
  | .activity _ _ => 1
  | .entity _ _ .read _ => 0
  | .entity _ _ _ _ => announcement.index + 2

variable {a b : Announcement}

/-- Agents are at the bottom: nothing starts from them. -/
theorem rank_of_agent (h : a.vertex.kind = .agent) : a.rank = 0 := by
  obtain ⟨message, index⟩ := a
  cases message with
  | agent header agentType => rfl
  | activity header activityType => exact nomatch h
  | entity header entityType operation payload => exact nomatch h

/-- Activities are above the agents and above what is only read. -/
theorem rank_of_activity (h : a.vertex.kind = .activity) : a.rank = 1 := by
  obtain ⟨message, index⟩ := a
  cases message with
  | agent header agentType => exact nomatch h
  | activity header activityType => rfl
  | entity header entityType operation payload => exact nomatch h

/-- What is only read is at the bottom too, however late it was announced. -/
theorem rank_of_read (h : a.message.operation? = some .read) : a.rank = 0 := by
  obtain ⟨message, index⟩ := a
  cases message with
  | agent header agentType => exact nomatch h
  | activity header activityType => exact nomatch h
  | entity header entityType operation payload =>
    obtain rfl : operation = .read := Option.some.inj h
    rfl

/-- What was written or added is above all activities, and later ones are higher. -/
theorem rank_of_made {operation : Operation} (h : a.message.operation? = some operation)
    (hmade : operation ≠ .read) : a.rank = a.index + 2 := by
  obtain ⟨message, index⟩ := a
  cases message with
  | agent header agentType => exact nomatch h
  | activity header activityType => exact nomatch h
  | entity header entityType operation' payload =>
    obtain rfl : operation' = operation := Option.some.inj h
    cases operation' with
    | read => exact absurd rfl hmade
    | write => rfl
    | add => rfl

/-- No entity is higher than if it had been written, which is all that a derivation asks. -/
theorem rank_le_of_entity (h : a.vertex.kind = .entity) : a.rank ≤ a.index + 2 := by
  obtain ⟨message, index⟩ := a
  cases message with
  | agent header agentType => exact nomatch h
  | activity header activityType => exact nomatch h
  | entity header entityType operation payload =>
    cases operation with
    | read => exact Nat.zero_le _
    | write => exact Nat.le_refl _
    | add => exact Nat.le_refl _

/-- **Edges lead down**, in time or not. -/
theorem Leads.rank_lt (h : a.Leads b) : b.rank < a.rank := by
  cases h with
  | association hsource hdestination =>
    rw [rank_of_agent hdestination, rank_of_activity hsource]
    decide
  | use hsource hdestination =>
    rw [rank_of_read hdestination, rank_of_activity hsource]
    decide
  | generation hsource hmade hdestination =>
    rw [rank_of_activity hdestination, rank_of_made hsource hmade]
    omega
  -- The earlier entity may have been read or made; its index is smaller in either case.
  | derivation hsource hdestination hearlier =>
    have hlower := rank_le_of_entity hdestination
    rw [rank_of_made hsource (by decide)]
    omega

end Announcement

/-! ### The rank of a vertex -/

/-- How high the vertex stands that an end refers to. -/
def rankOf (announced : List Announcement) (endpoint : Endpoint) : Nat :=
  ((announced.find? (·.vertex.endpoint = endpoint)).map Announcement.rank).getD 0

/-- The vertices of a run are told apart by their ends, so each has the rank of its announcement. -/
theorem rankOf_announcementsFrom {inputs : List (Except MessageError Message)} {a : Announcement}
    (ha : a ∈ announcementsFrom 0 inputs) :
    rankOf (announcementsFrom 0 inputs) a.vertex.endpoint = a.rank := by
  have hnodup : ((announcementsFrom 0 inputs).map fun a => a.vertex.endpoint).Nodup := by
    -- The ids differ already, without the kinds.
    refine List.Nodup.of_map Endpoint.id ?_
    rw [List.map_map]
    exact nodup_id_announcements 0 inputs
  rw [rankOf, find?_key_of_mem (fun a : Announcement => a.vertex.endpoint) hnodup ha]
  rfl

/-- The same of the edges of a run: their ends are those of announcements, whose ranks fall. -/
theorem Session.rankOf_lt_of_mem_edges (retention : Retention)
    {inputs : List (Except MessageError Message)}
    (hwell : ∀ message, .ok message ∈ inputs → message.WellFormed) {edge : Edge}
    (hedge : edge ∈ (start retention).edges inputs) :
    rankOf (announcementsFrom 0 inputs) edge.destinationEnd <
      rankOf (announcementsFrom 0 inputs) edge.sourceEnd := by
  obtain ⟨a, ha, b, hb, hjoined⟩ := joins_edges retention hwell hedge
  rw [hjoined.source, hjoined.destination, rankOf_announcementsFrom ha, rankOf_announcementsFrom hb]
  exact hjoined.leads.rank_lt

/-- **Provenance has no cycles.** Behind a fresh recorder, a document that was empty has no
cycle at any time. -/
theorem Recorder.acyclic_run (retention : Retention) (calls : List Call) :
    (∀ n, (documentAt retention calls n).Acyclic) ∧
      ((start retention Document.empty).run calls).recorder.sink.Acyclic := by
  have hwell : ∀ message, .ok message ∈ calls.map Call.input → message.WellFormed :=
    fun message hmem => Call.wellFormed_of_mem hmem
  have hmoment : ∀ n, (documentAt retention calls n).Acyclic := by
    intro n
    refine Document.acyclic_of_rank (rankOf (announcementsFrom 0 (calls.map Call.input))) ?_
    intro edge hedge
    -- The edges so far are among those of the whole run.
    rw [(elements_documentAt retention calls n).2, submitted_eq] at hedge
    have hrun : edge ∈ (Session.start retention).edges (calls.map Call.input) :=
      ((List.take_sublist _ _).filterMap _).subset hedge
    exact rankOf_lt_of_mem_edges retention hwell hrun
  refine ⟨hmoment, ?_⟩
  rw [← documentAt_of_le (Nat.le_refl _)]
  exact hmoment _

end Lineage
