import Lineage.Proofs.Delivery
import Lineage.Proofs.Origins

/-!
# Edges come after their ends

Whatever a session hands to its sink, both vertices that an edge joins are handed over before the
edge (`Recorder.endsFirst_run`). One of them is the vertex of the message that the edge comes of.
The other one was announced by an earlier message: it was kept in the registry or in the table of
cells since then, maybe for long, and what is kept there is the vertex as it was announced
(`Session.Knows`).

What a message may join is said once, by `Announcement.Leads` and `Session.Knows.joins_edgesFor`;
that edges come after their ends is read off it, and so is that they make no cycle.

A document that is given the elements of a run goes through the states `Recorder.documentAt`, one
for each number of elements. Since the ids of a run are different, it holds in each of them just
what it was given, so no edge in it is ever without its ends.
-/

namespace Lineage

open Lineage.Graph Session Session.CellTable Telemetry

/-! ### What an edge may join -/

/-- From which announcements edges may lead to which. An entity that was only read leads nowhere,
and a derivation goes back to an earlier entity. -/
inductive Announcement.Leads (a b : Announcement) : Prop
  | association (hsource : a.vertex.kind = .activity) (hdestination : b.vertex.kind = .agent)
  | use (hsource : a.vertex.kind = .activity) (hdestination : b.message.operation? = some .read)
  | generation {operation : Operation} (hsource : a.message.operation? = some operation)
      (hmade : operation ≠ .read) (hdestination : b.vertex.kind = .activity)
  | derivation (hsource : a.message.operation? = some .write)
      (hdestination : b.vertex.kind = .entity) (hearlier : b.index < a.index)

/-- An edge joins two announcements: it leads from the vertex of the one to that of the other. -/
structure Announcement.Joined (edge : Edge) (a b : Announcement) : Prop where
  source : edge.sourceEnd = a.vertex.endpoint
  destination : edge.destinationEnd = b.vertex.endpoint
  leads : a.Leads b

namespace Session

section Knows

variable {session : Session} {announced : List Announcement}

/-- Only a write changes a cell. -/
theorem operation_of_changeFor? {message : Message} (hwell : message.WellFormed) {change : Change}
    (hchange : session.changeFor? message = some change) : message.operation? = some .write := by
  obtain ⟨cell, latest, htells, hlatest, -⟩ := exists_of_changeFor? hwell hchange
  rw [changeFor?_of_tells htells, hlatest, Option.bind_some] at hchange
  split at hchange
  next hwrite =>
    have hobserved : message.operation?.getD .read = .write := hwrite.1
    -- What stands in for a missing operation is a read.
    cases hoperation : message.operation? with
    | none => exact absurd (hoperation ▸ hobserved) (by decide)
    | some operation => exact congrArg some (by rwa [hoperation] at hobserved)
  next => exact absurd hchange (by simp)

/-- **What a message joins.** An edge of a message joins its vertex with one that was
announced before. -/
theorem Knows.joins_edgesFor (h : session.Knows announced) {message : Message}
    (hwell : message.WellFormed) {edge : Edge} (hedge : edge ∈ session.edgesFor message) :
    ∃ a ∈ announced,
        Announcement.Joined edge (session.announcing message) a ∨
          Announcement.Joined edge a (session.announcing message) := by
  cases message with
  | agent header agentType =>
    obtain ⟨activity, hawaiting, rfl⟩ := mem_edgesFor_agent.1 hedge
    -- The activity was known of the device, so it was announced.
    have hknown := (Option.filter_eq_some_iff.1 hawaiting).1
    obtain ⟨a, ha, -, hend⟩ := h.announces_activity hknown
    have hkind : a.vertex.kind = .activity := congrArg Endpoint.kind hend
    exact ⟨a, ha, .inr ⟨hend.symm, rfl, .association hkind rfl⟩⟩
  | activity header activityType =>
    obtain ⟨agent, hagent, rfl⟩ := mem_edgesFor_activity.1 hedge
    have hknown := (Option.filter_eq_some_iff.1 hagent).1
    obtain ⟨a, ha, -, hend⟩ := h.announces_agent hknown
    have hkind : a.vertex.kind = .agent := congrArg Endpoint.kind hend
    exact ⟨a, ha, .inl ⟨rfl, hend.symm, .association rfl hkind⟩⟩
  | entity header entityType operation payload =>
    rcases mem_edgesFor_entity.1 hedge with ⟨change, hchange, rfl⟩ | ⟨activity, hcause, rfl⟩
    · -- The state before was announced, so its number is smaller than that of the message.
      have hwrite := operation_of_changeFor? hwell hchange
      obtain ⟨cell, latest, -, hlatest, rfl⟩ := exists_of_changeFor? hwell hchange
      obtain ⟨a, ha, -, hend⟩ := h.announces_state hlatest
      have hkind : a.vertex.kind = .entity := congrArg Endpoint.kind hend
      exact ⟨a, ha, .inl ⟨rfl, hend.symm, .derivation hwrite hkind (h.old a ha)⟩⟩
    · have hknown := (Option.filter_eq_some_iff.1 hcause).1
      obtain ⟨a, ha, -, hend⟩ := h.announces_activity hknown
      have hkind : a.vertex.kind = .activity := congrArg Endpoint.kind hend
      -- A use starts at the activity, and a generation at the entity.
      cases operation with
      | read => exact ⟨a, ha, .inr ⟨hend.symm, rfl, .use hkind rfl⟩⟩
      | write => exact ⟨a, ha, .inl ⟨rfl, hend.symm, .generation rfl (by decide) hkind⟩⟩
      | add => exact ⟨a, ha, .inl ⟨rfl, hend.symm, .generation rfl (by decide) hkind⟩⟩

end Knows

/-- The edges of a run join announcements of the run. -/
theorem joins_edges (retention : Retention) {inputs : List (Except MessageError Message)}
    (hwell : ∀ message, .ok message ∈ inputs → message.WellFormed) {edge : Edge}
    (hedge : edge ∈ (start retention).edges inputs) :
    ∃ a ∈ announcementsFrom 0 inputs, ∃ b ∈ announcementsFrom 0 inputs,
      Announcement.Joined edge a b := by
  induction inputs using List.reverseRecOn with
  | nil => exact absurd hedge (by simp)
  | append_singleton inputs input ih =>
    have hbefore : ∀ message, .ok message ∈ inputs → message.WellFormed :=
      fun message hmem => hwell message (List.mem_append_left _ hmem)
    have hknows := knows_after retention hbefore
    rw [edges_append, List.mem_append] at hedge
    rw [announcementsFrom_append, Nat.zero_add]
    rcases hedge with hedge | hedge
    · -- An edge of an earlier message.
      obtain ⟨a, ha, b, hb, hjoined⟩ := ih hbefore hedge
      exact ⟨a, List.mem_append_left _ ha, b, List.mem_append_left _ hb, hjoined⟩
    · cases input with
      | error e => exact absurd hedge (by simp)
      | ok message =>
        rw [edges_ok, edges_nil, List.append_nil] at hedge
        have hown := hwell message (by simp)
        have hnew : ((start retention).after inputs).announcing message ∈
            announcementsFrom 0 inputs ++
            announcementsFrom (announcementsFrom 0 inputs).length [.ok message] := by
          rw [← hknows.vertices]
          exact List.mem_append_right _ List.mem_cons_self
        obtain ⟨a, ha, hjoined | hjoined⟩ := hknows.joins_edgesFor hown hedge
        · exact ⟨_, hnew, a, List.mem_append_left _ ha, hjoined⟩
        · exact ⟨a, List.mem_append_left _ ha, _, hnew, hjoined⟩

end Session

/-! ### Ends among elements -/

/-- An edge finds its ends among some elements: there is a vertex for each, of its kind
and with its id. -/
structure Graph.Edge.FindsEnds (edge : Edge) (elements : List Element) : Prop where
  source : ∃ v, .vertex v ∈ elements ∧ v.endpoint = edge.sourceEnd
  destination : ∃ v, .vertex v ∈ elements ∧ v.endpoint = edge.destinationEnd

/-- Every edge comes after its ends. -/
def EndsFirst (elements : List Element) : Prop :=
  ∀ front edge back, elements = front ++ .edge edge :: back → edge.FindsEnds front

section EndsFirst

variable {before later : List Element}

/-- Nothing comes too early where there is no edge. -/
theorem endsFirst_nil : EndsFirst [] := by
  intro front edge back h
  exact absurd h (by simp)

/-- What comes first decides about itself, and later edges may find their ends in it. -/
theorem EndsFirst.append (h : EndsFirst before)
    (hlater : ∀ front edge back, later = front ++ .edge edge :: back →
      edge.FindsEnds (before ++ front)) :
    EndsFirst (before ++ later) := by
  intro front edge back heq
  rcases List.append_eq_append_iff.1 heq with ⟨more, rfl, hmore⟩ | ⟨more, rfl, hmore⟩
  · -- The edge is among the later ones.
    exact hlater more edge back hmore
  · -- The edge is in what comes first, unless that ends right before it.
    cases more with
    | nil =>
      rw [List.nil_append] at hmore
      have hfront := hlater [] edge back hmore.symm
      rwa [List.append_nil, List.append_nil] at hfront
    | cons element more =>
      obtain ⟨rfl, rfl⟩ := List.cons.inj hmore
      exact h front edge more rfl

/-- What comes first of such a row is such a row. -/
theorem EndsFirst.take (h : EndsFirst before) (n : Nat) : EndsFirst (before.take n) := by
  intro front edge back heq
  have hsplit := List.take_append_drop n before
  rw [heq, List.append_assoc, List.cons_append] at hsplit
  exact h front edge _ hsplit.symm

end EndsFirst

namespace Session

/-- What is announced in a run is submitted as a vertex. -/
theorem vertex_mem_submissions (retention : Retention) {inputs : List (Except MessageError Message)}
    {a : Announcement} (ha : a ∈ announcementsFrom 0 inputs) :
    .vertex a.vertex ∈ (start retention).submissions inputs := by
  have hvertices : ((start retention).submissions inputs).filterMap Element.vertex? =
      (announcementsFrom 0 inputs).map Announcement.vertex := vertices_submissions _ _
  have hmem : a.vertex ∈ ((start retention).submissions inputs).filterMap Element.vertex? := by
    rw [hvertices]
    exact List.mem_map.2 ⟨a, ha, rfl⟩
  -- Of the elements only a vertex gives one.
  obtain ⟨element, helement, hvertex⟩ := List.mem_filterMap.1 hmem
  cases element with
  | vertex v =>
    obtain rfl := Option.some.inj hvertex
    exact helement
  | edge e => exact nomatch hvertex

/-- An edge has a vertex at one end, and at the other one that is among earlier elements. -/
def FromEarlier (earlier : List Element) (own : Vertex) (edge : Edge) : Prop :=
  ∃ other, .vertex other ∈ earlier ∧
    (edge.sourceEnd = own.endpoint ∧ edge.destinationEnd = other.endpoint ∨
      edge.sourceEnd = other.endpoint ∧ edge.destinationEnd = own.endpoint)

/-- Such an edge finds both ends where the vertex and the earlier elements are. -/
theorem FromEarlier.findsEnds {earlier elements : List Element} {own : Vertex} {edge : Edge}
    (h : FromEarlier earlier own edge) (hown : .vertex own ∈ elements)
    (hearlier : ∀ e ∈ earlier, e ∈ elements) : edge.FindsEnds elements := by
  obtain ⟨other, hother, ⟨hsource, hdestination⟩ | ⟨hsource, hdestination⟩⟩ := h
  · exact ⟨⟨own, hown, hsource.symm⟩, ⟨other, hearlier _ hother, hdestination.symm⟩⟩
  · exact ⟨⟨other, hearlier _ hother, hsource.symm⟩, ⟨own, hown, hdestination.symm⟩⟩

/-- **The edges of a message** are between its vertex and earlier ones. -/
theorem fromEarlier_edgesFor (retention : Retention) {inputs : List (Except MessageError Message)}
    (hinputs : ∀ message, .ok message ∈ inputs → message.WellFormed) {message : Message}
    (hwell : message.WellFormed) {edge : Edge}
    (hedge : edge ∈ ((start retention).after inputs).edgesFor message) :
    FromEarlier ((start retention).submissions inputs)
      (((start retention).after inputs).vertexFor message) edge := by
  obtain ⟨a, ha, hjoined | hjoined⟩ := (knows_after retention hinputs).joins_edgesFor hwell hedge
  · exact ⟨a.vertex, vertex_mem_submissions retention ha,
      .inl ⟨hjoined.source, hjoined.destination⟩⟩
  · exact ⟨a.vertex, vertex_mem_submissions retention ha,
      .inr ⟨hjoined.source, hjoined.destination⟩⟩

/-- In a run every edge comes after its ends. -/
theorem endsFirst_submissions (retention : Retention) {inputs : List (Except MessageError Message)}
    (hwell : ∀ message, .ok message ∈ inputs → message.WellFormed) :
    EndsFirst ((start retention).submissions inputs) := by
  induction inputs using List.reverseRecOn with
  | nil => exact endsFirst_nil
  | append_singleton inputs input ih =>
    have hbefore : ∀ message, .ok message ∈ inputs → message.WellFormed :=
      fun message hmem => hwell message (List.mem_append_left _ hmem)
    rw [submissions_append]
    refine (ih hbefore).append ?_
    intro front edge back heq
    cases input with
    | error e => exact absurd heq (by simp [receive, Reception.submissions])
    | ok message =>
      rw [submissions_cons, submissions_nil, List.append_nil, submissions_receive] at heq
      -- The vertex of the message comes first, so it is in front of each of the edges.
      cases front with
      | nil => exact absurd (List.cons.inj heq).1 (by simp)
      | cons element front =>
        obtain ⟨rfl, hedges⟩ := List.cons.inj heq
        have hedge : edge ∈ ((start retention).after inputs).edgesFor message := by
          have hmem : .edge edge ∈ (((start retention).after inputs).edgesFor message).map
              Element.edge := by
            rw [hedges]
            exact List.mem_append_right _ List.mem_cons_self
          obtain ⟨e, he, heq⟩ := List.mem_map.1 hmem
          exact Element.edge.inj heq ▸ he
        have hfrom := fromEarlier_edgesFor retention hbefore (hwell message (by simp)) hedge
        exact hfrom.findsEnds (by simp) fun e he => List.mem_append_left _ he

end Session

/-! ### What a sink is given -/

/-- All elements that a fresh recorder submits in a run, whatever the sink makes of them. -/
def Recorder.submitted {σ : Type} [Sink σ] (retention : Retention) (sink : σ) (calls : List Call) :
    List Element :=
  ((start retention (Tape.blank sink)).run calls).recorder.sink.taken

/-- What a recorder submits are the submissions of the run of its session. -/
theorem Recorder.submitted_eq {σ : Type} [Sink σ] (retention : Retention) (sink : σ)
    (calls : List Call) :
    submitted retention sink calls =
      (Session.start retention).submissions (calls.map Call.input) := by
  rw [submitted, sink_run, Tape.taken_submitAll]
  rfl

/-- The document behind a fresh recorder after the first elements of a run. -/
def Recorder.documentAt (retention : Retention) (calls : List Call) (n : Nat) : Document :=
  (Sink.submitAll Document.empty ((submitted retention Document.empty calls).take n)).1

/-- In the end the document behind the recorder is what it is after all elements. -/
theorem Recorder.documentAt_of_le {retention : Retention} {calls : List Call} {n : Nat}
    (h : (submitted retention Document.empty calls).length ≤ n) :
    documentAt retention calls n = ((start retention Document.empty).run calls).recorder.sink := by
  rw [documentAt, List.take_of_length_le h, submitted_eq, sink_run]
  rfl

/-- At any time the document holds just what it was given. -/
theorem Recorder.elements_documentAt (retention : Retention) (calls : List Call) (n : Nat) :
    (documentAt retention calls n).vertices =
        ((submitted retention Document.empty calls).take n).filterMap Element.vertex? ∧
      (documentAt retention calls n).edges =
        ((submitted retention Document.empty calls).take n).filterMap Element.edge? := by
  have hpart : ((submitted retention Document.empty calls).take n).Sublist
      ((Session.start retention).submissions (calls.map Call.input)) := by
    rw [← submitted_eq retention Document.empty]
    exact List.take_sublist n _
  -- The ids of a part of the run are different, as those of the whole run are.
  refine Document.submitAll_of_nodup Document.empty _ ?_ ?_
  · exact (nodup_id_vertices (Session.start retention) (calls.map Call.input)).sublist
      ((hpart.filterMap _).map _)
  · exact (nodup_id_edges (Session.start retention) (calls.map Call.input)).sublist
      ((hpart.filterMap _).map _)

/-- Every edge of a document has both its ends in it. -/
def Graph.Document.Resolves (document : Document) : Prop :=
  ∀ edge ∈ document.edges, ∃ source destination,
    document.vertex? edge.sourceEnd = some source ∧
      document.vertex? edge.destinationEnd = some destination

/-- A vertex that was given to a document is found in it by its end. -/
theorem Graph.Document.exists_vertex?_of_mem {document : Document} {elements : List Element}
    {endpoint : Endpoint} (hvertices : document.vertices = elements.filterMap Element.vertex?)
    (h : ∃ v, .vertex v ∈ elements ∧ v.endpoint = endpoint) :
    ∃ v, document.vertex? endpoint = some v := by
  obtain ⟨v, hv, rfl⟩ := h
  have hmem : v ∈ document.vertices := by
    rw [hvertices]
    exact List.mem_filterMap.2 ⟨.vertex v, hv, rfl⟩
  -- No two vertices have one end, so this one is found.
  exact ⟨v, find?_key_of_mem Vertex.endpoint document.nodup_vertices hmem⟩

/-- **At any time every edge of the document has both its ends in it.** -/
theorem Recorder.resolves_documentAt (retention : Retention) (calls : List Call) (n : Nat) :
    (documentAt retention calls n).Resolves := by
  have hwell : ∀ message, .ok message ∈ calls.map Call.input → message.WellFormed :=
    fun message hmem => Call.wellFormed_of_mem hmem
  have hfirst : EndsFirst (submitted retention Document.empty calls) := by
    rw [submitted_eq]
    exact endsFirst_submissions retention hwell
  obtain ⟨hvertices, hedges⟩ := elements_documentAt retention calls n
  intro edge hedge
  rw [hedges, List.mem_filterMap] at hedge
  obtain ⟨element, helement, hedge⟩ := hedge
  cases element with
  | vertex v => exact nomatch hedge
  | edge e =>
    obtain rfl := Option.some.inj hedge
    -- Of what the document was given, its ends are in front of the edge.
    obtain ⟨front, back, hsplit⟩ := List.append_of_mem helement
    have hends := hfirst.take n front e back hsplit
    have hfront : ∀ v, .vertex v ∈ front →
        .vertex v ∈ (submitted retention Document.empty calls).take n := by
      intro v hv
      rw [hsplit]
      exact List.mem_append_left _ hv
    obtain ⟨source, hsource⟩ := Document.exists_vertex?_of_mem hvertices
      (hends.source.imp fun v hv => ⟨hfront v hv.1, hv.2⟩)
    obtain ⟨destination, hdestination⟩ := Document.exists_vertex?_of_mem hvertices
      (hends.destination.imp fun v hv => ⟨hfront v hv.1, hv.2⟩)
    exact ⟨source, destination, hsource, hdestination⟩

/-- A call submits the vertex of its message and then edges to and from earlier vertices, or nothing
if it is refused. -/
inductive SubmitsOwn (submitted : List Call → List Element) (before : List Call) (call : Call) :
    Prop
  | refused (error : MessageError) (hinput : call.input = .error error)
      (hsame : submitted (before ++ [call]) = submitted before)
  | taken (message : Message) (edges : List Edge) (hinput : call.input = .ok message)
      (hmore : submitted (before ++ [call]) = submitted before ++ .vertex (Announcement.mk message
        (announcementsFrom 0 (before.map Call.input)).length).vertex :: edges.map .edge)
      (hearlier : ∀ edge ∈ edges, Session.FromEarlier (submitted before) (Announcement.mk message
        (announcementsFrom 0 (before.map Call.input)).length).vertex edge)

/-- **Edges come after their ends**, whatever sink there is. Every edge is submitted after the two
vertices that it joins, of the kinds that go with its relation. One of them is the vertex of the
message that the edge comes of, and the other one comes of an earlier message. So at no time does an
edge in a document behind a fresh recorder miss an end. -/
theorem Recorder.endsFirst_run {σ : Type} [Sink σ] (retention : Retention) (sink : σ) :
    (∀ calls, EndsFirst (submitted retention sink calls)) ∧
      (∀ before call, SubmitsOwn (submitted retention sink) before call) ∧
      (∀ calls n, (documentAt retention calls n).Resolves) ∧
      ∀ calls, ((start retention Document.empty).run calls).recorder.sink.Resolves := by
  refine ⟨fun calls => ?_, fun before call => ?_, resolves_documentAt retention, fun calls => ?_⟩
  · rw [submitted_eq]
    exact endsFirst_submissions retention fun message hmem => Call.wellFormed_of_mem hmem
  · have hbefore : ∀ message, .ok message ∈ before.map Call.input → message.WellFormed :=
      fun message hmem => Call.wellFormed_of_mem hmem
    have hknows := knows_after retention hbefore
    have hmore : submitted retention sink (before ++ [call]) = submitted retention sink before ++
        (((Session.start retention).after (before.map Call.input)).receive
          call.input).submissions := by
      rw [submitted_eq, submitted_eq, List.map_append, submissions_append, List.map_singleton,
        submissions_cons, submissions_nil, List.append_nil]
    -- What the call adds is read off the session that is before it.
    cases hinput : call.input with
    | error error =>
      rw [hinput] at hmore
      exact .refused error hinput (hmore.trans (List.append_nil _))
    | ok message =>
      rw [hinput, submissions_receive] at hmore
      have hvertex : ((Session.start retention).after (before.map Call.input)).vertexFor message =
          (Announcement.mk message (announcementsFrom 0
            (before.map Call.input)).length).vertex := by
        rw [← hknows.vertices]
        rfl
      refine .taken message _ hinput (hvertex ▸ hmore) fun edge hedge => ?_
      rw [← hvertex, submitted_eq]
      exact fromEarlier_edgesFor retention hbefore (Call.wellFormed_of_input hinput) hedge
  · rw [← documentAt_of_le (Nat.le_refl _)]
    exact resolves_documentAt retention calls _

end Lineage
