import Lineage.Proofs.Reaction
import Mathlib.Data.List.Nodup

/-!
# Runs of a session

A run takes in inputs one after the other, each of which was read as a message or refused as one.
This module says what a run adds up to, whatever the inputs are:

* `Session.after` is the session at the end, `Session.receptions` what became of each input,
  `Session.submissions` all elements that were submitted, `Session.edges` the edges among them;
* `announcementsFrom` numbers the messages that were not refused, from the number that the session
  gives next. They are the vertices of the run (`Session.vertices_submissions`);
* the edges are numbered in their order, over all relations (`Session.numbered_edges`).

So the ids of the vertices of a run are pairwise different, and so are those of its edges
(`nodup_id_announcements`, `Session.nodup_id_edges`).
-/

namespace Lineage

open Lineage.Graph Session Telemetry

/-! ### Announcements -/

/-- A message that was taken in, with the number of its vertex. -/
structure Announcement where
  message : Message
  index : Nat
deriving DecidableEq

namespace Announcement

def node (announcement : Announcement) : Node :=
  announcement.message.node announcement.index

def vertex (announcement : Announcement) : Vertex :=
  announcement.node.toVertex announcement.message.event.vertexKind

/-- The device that a message comes from. -/
def agentId (announcement : Announcement) : String :=
  announcement.message.header.agentId

/-- Announcements with different numbers have vertices with different ids. -/
theorem index_eq_of_id_eq {a b : Announcement} (h : a.node.id = b.node.id) : a.index = b.index :=
  (Message.vertexId_inj h).2

end Announcement

/-- The messages among some inputs, with the numbers of their vertices, the first of
which is given. -/
def announcementsFrom (index : Nat) : List (Except MessageError Message) → List Announcement
  | [] => []
  | .error _ :: inputs => announcementsFrom index inputs
  | .ok message :: inputs => ⟨message, index⟩ :: announcementsFrom (index + 1) inputs

/-- Later messages are numbered on from the earlier ones. -/
theorem announcementsFrom_append (index : Nat) (before later : List (Except MessageError Message)) :
    announcementsFrom index (before ++ later) =
      announcementsFrom index before ++
        announcementsFrom (index + (announcementsFrom index before).length) later := by
  induction before generalizing index with
  | nil => rfl
  | cons input before ih =>
    cases input with
    | error e => exact ih index
    | ok message =>
      -- One number is taken, so what follows is numbered from the next one.
      simp only [List.cons_append, announcementsFrom, List.length_cons, ih (index + 1)]
      rw [Nat.add_assoc index 1, Nat.add_comm 1]

/-- Numbers are given one after the other. -/
theorem index_of_mem_announcementsFrom {index : Nat} {inputs : List (Except MessageError Message)}
    {a : Announcement} (h : a ∈ announcementsFrom index inputs) :
    index ≤ a.index ∧ a.index < index + (announcementsFrom index inputs).length := by
  induction inputs generalizing index with
  | nil => exact absurd h (by simp [announcementsFrom])
  | cons input inputs ih =>
    cases input with
    | error e => exact ih h
    | ok message =>
      simp only [announcementsFrom, List.length_cons, List.mem_cons] at h ⊢
      rcases h with rfl | h
      · exact ⟨Nat.le_refl index, Nat.lt_add_of_pos_right (Nat.succ_pos _)⟩
      · have hrest := ih h
        omega

/-- What is announced was among the inputs. -/
theorem mem_of_mem_announcementsFrom {index : Nat} {inputs : List (Except MessageError Message)}
    {a : Announcement} (h : a ∈ announcementsFrom index inputs) : .ok a.message ∈ inputs := by
  induction inputs generalizing index with
  | nil => exact absurd h (by simp [announcementsFrom])
  | cons input inputs ih =>
    cases input with
    | error e => exact List.mem_cons_of_mem _ (ih h)
    | ok message =>
      simp only [announcementsFrom, List.mem_cons] at h
      rcases h with rfl | h
      · exact List.mem_cons_self
      · exact List.mem_cons_of_mem _ (ih h)

/-- Numbers increase from announcement to announcement. -/
theorem pairwise_index_announcementsFrom (index : Nat)
    (inputs : List (Except MessageError Message)) :
    (announcementsFrom index inputs).Pairwise fun a b => a.index < b.index := by
  induction inputs generalizing index with
  | nil => exact .nil
  | cons input inputs ih =>
    cases input with
    | error e => exact ih index
    | ok message =>
      refine List.pairwise_cons.2 ⟨fun a ha => ?_, ih (index + 1)⟩
      exact (index_of_mem_announcementsFrom ha).1

/-- **Vertices are told apart by their ids**, whatever names and devices the messages have. -/
theorem nodup_id_announcements (index : Nat) (inputs : List (Except MessageError Message)) :
    ((announcementsFrom index inputs).map fun a => a.node.id).Nodup := by
  -- The number can be read off the id, and numbers increase.
  refine List.pairwise_map.2 ((pairwise_index_announcementsFrom index inputs).imp ?_)
  intro a b hlt hid
  exact Nat.ne_of_lt hlt (Announcement.index_eq_of_id_eq hid)

/-- Of the announcements of a run, only one has a vertex with a given id. -/
theorem eq_of_mem_announcementsFrom {index : Nat} {inputs : List (Except MessageError Message)}
    {a b : Announcement} (ha : a ∈ announcementsFrom index inputs)
    (hb : b ∈ announcementsFrom index inputs) (hid : a.node.id = b.node.id) : a = b :=
  List.inj_on_of_nodup_map (nodup_id_announcements index inputs) ha hb hid

/-! ### Edges with numbers -/

/-- Whether edges are numbered one after the other, from a number on. -/
def NumberedFrom : Nat → List Edge → Prop
  | _, [] => True
  | number, edge :: edges => edge.id = edge.relation.edgeId number ∧ NumberedFrom (number + 1) edges

/-- Edges are numbered part by part, the second part on from the first. -/
theorem numberedFrom_append {number : Nat} {es fs : List Edge} :
    NumberedFrom number (es ++ fs) ↔
      NumberedFrom number es ∧ NumberedFrom (number + es.length) fs := by
  induction es generalizing number with
  | nil => simp [NumberedFrom]
  | cons e es ih =>
    simp only [List.cons_append, NumberedFrom, ih, List.length_cons, and_assoc]
    rw [Nat.add_assoc number 1, Nat.add_comm 1]

/-- An edge that is numbered has a number in the range. -/
theorem NumberedFrom.exists_number {number : Nat} {edges : List Edge}
    (h : NumberedFrom number edges) {edge : Edge} (hmem : edge ∈ edges) :
    ∃ k, number ≤ k ∧ k < number + edges.length ∧ edge.id = edge.relation.edgeId k := by
  induction edges generalizing number with
  | nil => exact absurd hmem (by simp)
  | cons e edges ih =>
    rcases List.mem_cons.1 hmem with rfl | hmem
    · exact ⟨number, Nat.le_refl _, by simp, h.1⟩
    · -- Behind the first the numbers start one later.
      obtain ⟨k, hle, hlt, hid⟩ := ih h.2 hmem
      exact ⟨k, by omega, by simp only [List.length_cons]; omega, hid⟩

/-- Edges that are numbered have different ids, also across relations. -/
theorem NumberedFrom.nodup_id {number : Nat} {edges : List Edge} (h : NumberedFrom number edges) :
    (edges.map Edge.id).Nodup := by
  induction edges generalizing number with
  | nil => exact .nil
  | cons e edges ih =>
    rw [List.map_cons, List.nodup_cons]
    refine ⟨fun hmem => ?_, ih h.2⟩
    -- An edge with the id of the first one would have its number, but later edges have larger
    -- numbers.
    obtain ⟨f, hf, hid⟩ := List.mem_map.1 hmem
    obtain ⟨k, hle, -, hk⟩ := h.2.exists_number hf
    rw [hk, h.1] at hid
    have hnumber := (Relation.edgeId_inj hid).2
    omega

namespace Session

/-! ### The parts of a run -/

/-- The session after some inputs. -/
def after (session : Session) (inputs : List (Except MessageError Message)) : Session :=
  inputs.foldl (fun session input => (session.receive input).session) session

/-- What becomes of some inputs, one after the other. -/
def receptions (session : Session) : List (Except MessageError Message) → List Reception
  | [] => []
  | input :: inputs => session.receive input :: receptions (session.receive input).session inputs

/-- The elements that are submitted for some inputs. -/
def submissions (session : Session) (inputs : List (Except MessageError Message)) : List Element :=
  (session.receptions inputs).flatMap Reception.submissions

/-- The edges that are submitted for some inputs. -/
def edges (session : Session) (inputs : List (Except MessageError Message)) : List Edge :=
  (session.submissions inputs).filterMap Element.edge?

section Parts

variable (session : Session) (input : Except MessageError Message)
  (inputs before later : List (Except MessageError Message))

@[simp] theorem after_nil : session.after [] = session := rfl

@[simp] theorem after_cons :
    session.after (input :: inputs) = (session.receive input).session.after inputs := rfl

/-- A run may be cut into two. -/
theorem after_append : session.after (before ++ later) = (session.after before).after later :=
  List.foldl_append

/-- What becomes of the inputs is then that of the first part and of the second, -/
theorem receptions_append :
    session.receptions (before ++ later) = session.receptions before ++
      (session.after before).receptions later := by
  induction before generalizing session with
  | nil => rfl
  | cons input before ih => simp [receptions, ih]

@[simp] theorem submissions_nil : session.submissions [] = [] := rfl

@[simp] theorem submissions_cons : session.submissions (input :: inputs) =
    (session.receive input).submissions ++ (session.receive input).session.submissions inputs := rfl

/-- and so are the submissions, -/
theorem submissions_append :
    session.submissions (before ++ later) = session.submissions before ++
      (session.after before).submissions later := by
  simp [submissions, receptions_append]

@[simp] theorem edges_nil : session.edges [] = [] := rfl

@[simp] theorem edges_error (error : MessageError) :
    session.edges (.error error :: inputs) = (session.drop error).edges inputs := rfl

@[simp] theorem edges_ok (message : Message) : session.edges (.ok message :: inputs) =
    session.edgesFor message ++ (session.receive (.ok message)).session.edges inputs := by
  rw [edges, submissions_cons, List.filterMap_append, ← edges_receive]
  rfl

/-- and the edges. -/
theorem edges_append :
    session.edges (before ++ later) = session.edges before ++
      (session.after before).edges later := by
  simp [edges, submissions_append]

/-- The vertices of a run are those of the messages that were taken in, in their order. -/
theorem vertices_submissions : (session.submissions inputs).filterMap Element.vertex? =
    (announcementsFrom session.numbering.vertices inputs).map Announcement.vertex := by
  induction inputs generalizing session with
  | nil => rfl
  | cons input inputs ih =>
    cases input with
    | error e => exact ih (session.drop e)
    | ok message =>
      -- The message has one vertex, and edges behind it.
      have hown : (session.receive (.ok message)).submissions.filterMap Element.vertex? =
          [session.vertexFor message] :=
        vertices_receive session message
      rw [submissions_cons, List.filterMap_append, hown, ih, numbering_receive, announcementsFrom,
        List.map_cons]
      rfl

/-- The vertices that a run submits are told apart by their ids. -/
theorem nodup_id_vertices :
    (((session.submissions inputs).filterMap Element.vertex?).map fun v => v.id).Nodup := by
  rw [vertices_submissions, List.map_map]
  exact nodup_id_announcements _ inputs

/-- A run takes one number for each vertex and one for each edge. -/
theorem numbering_after : (session.after inputs).numbering =
    ⟨session.numbering.vertices + (announcementsFrom session.numbering.vertices inputs).length,
      session.numbering.edges + (session.edges inputs).length⟩ := by
  induction inputs generalizing session with
  | nil => rfl
  | cons input inputs ih =>
    cases input with
    | error e => exact ih (session.drop e)
    | ok message =>
      rw [after_cons, ih, numbering_receive, edges_ok, announcementsFrom, List.length_append,
        List.length_cons]
      -- What the message takes comes off both numbers.
      simp only [Numbering.mk.injEq]
      omega

end Parts

/-! ### The numbers of edges -/

/-- The edges that a message leads to are numbered on from the last edge before. -/
theorem numberedFrom_edgesFor (session : Session) (message : Message) :
    NumberedFrom (session.numbering.edges + 1) (session.edgesFor message) := by
  cases message with
  | agent header agentType =>
    simp only [edgesFor]
    cases awaitingAgent? session.registry header.agentId _ <;> simp [NumberedFrom]
  | activity header activityType =>
    simp only [edgesFor]
    cases agentFor? session.registry header.agentId _ <;> simp [NumberedFrom]
  | entity header entityType operation payload =>
    -- The derivation comes first, and the edge to the activity is numbered on from it.
    simp only [edgesFor, numberedFrom_append]
    constructor
    · cases session.changeFor? _ <;> simp [NumberedFrom]
    · cases causeFor? session.registry header.agentId <;> simp [NumberedFrom]

/-- The edges of a run are numbered in their order, over all relations. -/
theorem numbered_edges (session : Session) (inputs : List (Except MessageError Message)) :
    NumberedFrom (session.numbering.edges + 1) (session.edges inputs) := by
  induction inputs generalizing session with
  | nil => trivial
  | cons input inputs ih =>
    cases input with
    | error e => exact ih (session.drop e)
    | ok message =>
      rw [edges_ok, numberedFrom_append]
      refine ⟨numberedFrom_edgesFor session message, ?_⟩
      -- The next message goes on where this one has stopped counting.
      have hrest := ih (session.receive (.ok message)).session
      rw [numbering_receive, Nat.add_right_comm] at hrest
      exact hrest

/-- **Edges are told apart by their ids**, also across relations. -/
theorem nodup_id_edges (session : Session) (inputs : List (Except MessageError Message)) :
    ((session.edges inputs).map Edge.id).Nodup :=
  (numbered_edges session inputs).nodup_id

end Session

end Lineage
