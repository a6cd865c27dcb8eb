import Lineage.Proofs.Run
import Lineage.Session.Recorder

/-!
# Runs of a recorder

A recorder is called with lines and bytes (`Call`), and answers each call in the way that was asked
for. A run of calls is the run of its session on what the calls were read as, and the sink is given
the submissions of that run, in their order, whatever it makes of them:

* `Recorder.session_run`: the session takes no notice of the sink;
* `Recorder.sink_run`: the sink is given the submissions of the session;
* `Recorder.result_perform`: the answer to a call is that of the session.

A `Tape` is a sink behind which everything that is handed over is written down before the sink
proper sees it. So what a tape has taken at the end of a run is what was submitted, refused elements
included (`Tape.taken_submitAll`).

A document that is given elements with different ids keeps all of them
(`Graph.Document.submitAll_of_nodup`), and the ids of a run are different. So a document behind a
recorder holds just the vertices and the edges of the run (`Recorder.document_run`).
-/

namespace Lineage

open Lineage.Graph Session Telemetry

/-! ### Calls -/

/-- A call on a recorder. -/
inductive Call
  | dispatch (line : String)
  | process (line : String)
  | processBytes (raw : List UInt8)
deriving DecidableEq, Repr

/-- The answer to a call. -/
inductive Answer
  /-- What a line that was dispatched led to, or why it was refused. -/
  | dispatched (result : Except MessageError Outcome)
  /-- What a line that was processed led to, unless it was refused. -/
  | processed (outcome : Option Outcome)

/-- The outcome that is answered, if there is one. -/
def Answer.outcome? : Answer → Option Outcome
  | .dispatched result => result.toOption
  | .processed outcome => outcome

namespace Call

/-- What a call is read as. -/
def input : Call → Except MessageError Message
  | dispatch line => Message.decode line
  | process line => Message.decode line
  | processBytes raw => Message.decodeBytes raw

/-- The answer to a call, given the outcome of its message or why it is refused. -/
def answer (result : Except MessageError Outcome) : Call → Answer
  | dispatch _ => .dispatched result
  | process _ => .processed result.toOption
  | processBytes _ => .processed result.toOption

/-- Whether a call brings a message. -/
def isTaken (call : Call) : Bool :=
  call.input.isOk

/-- A call is taken if it is read as a message. -/
theorem isTaken_iff {call : Call} : call.isTaken = true ↔ ∃ message, call.input = .ok message := by
  rw [isTaken]
  cases call.input <;> simp [Except.isOk, Except.toBool]

/-- It is not taken if it is read as an error. -/
theorem isTaken_eq_false_iff {call : Call} :
    call.isTaken = false ↔ ∃ error, call.input = .error error := by
  rw [isTaken]
  cases call.input <;> simp [Except.isOk, Except.toBool]

/-- However an answer is put, its outcome is that of the message. -/
theorem outcome?_answer (call : Call) (result : Except MessageError Outcome) :
    (call.answer result).outcome? = result.toOption := by
  cases call <;> rfl

/-- What a call is read as is well formed. -/
theorem wellFormed_of_input {call : Call} {message : Message} (h : call.input = .ok message) :
    message.WellFormed := by
  cases call with
  | dispatch line => exact Message.wellFormed_of_decode h
  | process line => exact Message.wellFormed_of_decode h
  | processBytes raw => exact Message.wellFormed_of_decodeBytes h

/-- The same of a row of calls. -/
theorem wellFormed_of_mem {calls : List Call} {message : Message}
    (h : .ok message ∈ calls.map Call.input) : message.WellFormed := by
  obtain ⟨call, -, hinput⟩ := List.mem_map.1 h
  exact wellFormed_of_input hinput

end Call

namespace Recorder

variable {σ : Type} [Sink σ]

/-- Answers a call. -/
def perform (recorder : Recorder σ) : Call → Delivery σ Answer
  | .dispatch line =>
    let delivery := recorder.dispatch line
    ⟨delivery.recorder, .dispatched delivery.result, delivery.journal⟩
  | .process line =>
    let delivery := recorder.process line
    ⟨delivery.recorder, .processed delivery.result, delivery.journal⟩
  | .processBytes raw =>
    let delivery := recorder.processBytes raw
    ⟨delivery.recorder, .processed delivery.result, delivery.journal⟩

/-- Answers calls, one after the other. -/
def run (recorder : Recorder σ) : List Call → Delivery σ (List Answer)
  | [] => ⟨recorder, [], []⟩
  | call :: calls =>
    let delivery := recorder.perform call
    let run := delivery.recorder.run calls
    ⟨run.recorder, delivery.result :: run.result, delivery.journal ++ run.journal⟩

end Recorder

/-! ### Submitting elements in order -/

section Submitting

variable {σ : Type} [Sink σ]

/-- Elements may be submitted part by part. -/
theorem Graph.Sink.submitAll_append (sink : σ) (before later : List Element) :
    (Sink.submitAll sink (before ++ later)).1 =
      (Sink.submitAll (Sink.submitAll sink before).1 later).1 := by
  induction before generalizing sink with
  | nil => rfl
  | cons element before ih => exact ih (Sink.submit sink element).1

/-- Carrying out effects gives the sink the elements among them. -/
theorem Effect.performAll_fst (sink : σ) (effects : List Effect) :
    (Effect.performAll sink effects).1 =
      (Sink.submitAll sink (effects.filterMap Effect.element?)).1 := by
  induction effects generalizing sink with
  | nil => rfl
  | cons effect effects ih =>
    cases effect with
    | submit element => exact ih (Sink.submit sink element).1
    -- What is told does not reach the sink.
    | tell event => exact ih sink

end Submitting

/-! ### The run of the session behind a recorder -/

namespace Recorder

section Processing

variable {σ : Type} [Sink σ] (spans : List Span) (recorder : Recorder σ)
  (decoded : Except MessageError Message)

/-- Processing a message does to the session what receiving it does, in whatever spans. -/
theorem session_processIn :
    (recorder.processIn spans decoded).recorder.session =
      (recorder.session.receive decoded).session := by
  unfold processIn
  cases decoded <;> rfl

/-- The sink is given the submissions of the message. -/
theorem sink_processIn : (recorder.processIn spans decoded).recorder.sink =
    (Sink.submitAll recorder.sink (recorder.session.receive decoded).submissions).1 := by
  unfold processIn
  cases decoded with
  -- A refused message is told of, but nothing is submitted.
  | error error => rfl
  | ok message => exact Effect.performAll_fst recorder.sink _

/-- The answer is the outcome of the message, without the reason if it is refused. -/
theorem result_processIn :
    (recorder.processIn spans decoded).result =
      (recorder.session.receive decoded).result.toOption := by
  unfold processIn
  cases decoded <;> rfl

end Processing

variable {σ : Type} [Sink σ] (recorder : Recorder σ) (call : Call) (calls : List Call)

/-- **A call does to the session what its input does**, and the sink has no part in it. -/
theorem session_perform :
    (recorder.perform call).recorder.session = (recorder.session.receive call.input).session := by
  cases call with
  | dispatch line => rfl
  | process line => exact session_processIn [] recorder _
  | processBytes raw => exact session_processIn [] recorder _

/-- **A call gives the sink the submissions of its input.** -/
theorem sink_perform : (recorder.perform call).recorder.sink =
    (Sink.submitAll recorder.sink (recorder.session.receive call.input).submissions).1 := by
  cases call with
  | dispatch line => exact Effect.performAll_fst recorder.sink _
  | process line => exact sink_processIn [] recorder _
  | processBytes raw => exact sink_processIn [] recorder _

/-- **A call answers with what its input leads to**, put as it was asked for. -/
theorem result_perform :
    (recorder.perform call).result = call.answer (recorder.session.receive call.input).result := by
  cases call with
  | dispatch line => rfl
  | process line => exact congrArg Answer.processed (result_processIn [] recorder _)
  | processBytes raw => exact congrArg Answer.processed (result_processIn [] recorder _)

/-- The last call of a run is made on the recorder that the others have left. -/
theorem recorder_run_concat :
    (recorder.run (calls ++ [call])).recorder =
      ((recorder.run calls).recorder.perform call).recorder := by
  induction calls generalizing recorder with
  | nil => rfl
  | cons first calls ih => exact ih (recorder.perform first).recorder

/-- So are any later calls. -/
theorem recorder_run_append (later : List Call) :
    (recorder.run (calls ++ later)).recorder =
      ((recorder.run calls).recorder.run later).recorder := by
  induction calls generalizing recorder with
  | nil => rfl
  | cons first calls ih => exact ih (recorder.perform first).recorder

/-- **The session behind a recorder** runs on what the calls are read as. -/
theorem session_run :
    (recorder.run calls).recorder.session = recorder.session.after (calls.map Call.input) := by
  induction calls generalizing recorder with
  | nil => rfl
  | cons call calls ih =>
    simp only [run, ih, session_perform]
    rfl

/-- **The sink behind a recorder** is given the submissions of that run, in their order. -/
theorem sink_run : (recorder.run calls).recorder.sink =
    (Sink.submitAll recorder.sink (recorder.session.submissions (calls.map Call.input))).1 := by
  induction calls generalizing recorder with
  | nil => rfl
  | cons call calls ih =>
    -- What the first call submits goes in before what the others do.
    simp only [run, ih, session_perform, sink_perform, List.map_cons, submissions_cons,
      Sink.submitAll_append]

end Recorder

/-! ### Tapes -/

/-- A sink with a record of all that was handed to it. -/
structure Tape (σ : Type) where
  sink : σ
  /-- What was handed to it, refused or not. -/
  taken : List Element

namespace Tape

variable {σ : Type} [Sink σ]

def blank (sink : σ) : Tape σ := ⟨sink, []⟩

instance : Sink (Tape σ) where
  submit tape element :=
    let (sink, error) := Sink.submit tape.sink element
    (⟨sink, tape.taken ++ [element]⟩, error)
  flush tape :=
    let (sink, error) := Sink.flush tape.sink
    (⟨sink, tape.taken⟩, error)

/-- A tape takes all that is submitted, whatever the sink answers. -/
theorem taken_submitAll (tape : Tape σ) (elements : List Element) :
    (Sink.submitAll tape elements).1.taken = tape.taken ++ elements := by
  induction elements generalizing tape with
  | nil => exact (List.append_nil _).symm
  | cons element elements ih =>
    have htaken : (Sink.submit tape element).1.taken = tape.taken ++ [element] := rfl
    rw [Sink.submitAll]
    simp only [ih, htaken, List.append_assoc, List.singleton_append]

end Tape

/-- The edges that a fresh recorder submits in a run, whatever the sink makes of them. -/
def Recorder.submittedEdges {σ : Type} [Sink σ] (retention : Retention) (sink : σ)
    (calls : List Call) : List Edge :=
  ((start retention (Tape.blank sink)).run calls).recorder.sink.taken.filterMap Element.edge?

/-- What a recorder submits are the edges of the run of its session. -/
theorem Recorder.submittedEdges_eq {σ : Type} [Sink σ] (retention : Retention) (sink : σ)
    (calls : List Call) :
    submittedEdges retention sink calls =
      (Session.start retention).edges (calls.map Call.input) := by
  rw [submittedEdges, sink_run, Tape.taken_submitAll]
  rfl

/-- A run submits the edges of the calls before one, then those of its message, and then those of
the calls behind. -/
theorem Recorder.submittedEdges_append_cons {σ : Type} [Sink σ] (retention : Retention) (sink : σ)
    (before : List Call) {call : Call} (later : List Call) {message : Message}
    (hcall : call.input = .ok message) :
    submittedEdges retention sink (before ++ call :: later) =
      (Session.start retention).edges (before.map Call.input) ++
        (((Session.start retention).after (before.map Call.input)).edgesFor message ++
          (((Session.start retention).after (before.map Call.input)).receive
            (.ok message)).session.edges (later.map Call.input)) := by
  rw [submittedEdges_eq, List.map_append, edges_append, List.map_cons, hcall, edges_ok]

/-! ### Documents -/

namespace Graph.Document

/-- Vertices are told apart by their endpoints if their ids are different. -/
theorem endpoint_notMem {v : Vertex} {vertices : List Vertex}
    (h : v.id ∉ vertices.map fun w => w.id) : v.endpoint ∉ vertices.map Vertex.endpoint := by
  intro hmem
  obtain ⟨w, hw, hendpoint⟩ := List.mem_map.1 hmem
  exact h (List.mem_map.2 ⟨w, hw, congrArg Endpoint.id hendpoint⟩)

/-- Edges are told apart by their keys if their ids are different. -/
theorem key_notMem {e : Edge} {edges : List Edge} (h : e.id ∉ edges.map Edge.id) :
    e.key ∉ edges.map Edge.key := by
  intro hmem
  obtain ⟨f, hf, hkey⟩ := List.mem_map.1 hmem
  exact h (List.mem_map.2 ⟨f, hf, congrArg Prod.snd hkey⟩)

/-- A document looks for the id of a vertex, whatever its kind. -/
theorem containsVertex_iff {document : Document} {id : String} :
    document.containsVertex id = true ↔ id ∈ document.vertices.map fun v => v.id := by
  simp [containsVertex]

/-- So it does for that of an edge, whatever its relation. -/
theorem containsEdge_iff {document : Document} {id : String} :
    document.containsEdge id = true ↔ id ∈ document.edges.map Edge.id := by
  simp [containsEdge]

/-- A vertex with an id of its own goes to the end. -/
theorem submit_vertex_of_notMem {document : Document} {v : Vertex}
    (h : v.id ∉ document.vertices.map fun w => w.id) :
    (document.submit (.vertex v)).1.vertices = document.vertices ++ [v] ∧
      (document.submit (.vertex v)).1.edges = document.edges := by
  -- An element is refused for its id alone, of whatever kind the other one is.
  have hfree : document.containsVertex v.id = false :=
    Bool.eq_false_iff.2 (mt containsVertex_iff.1 h)
  simp only [submit, holdsId, hfree, put, putVertex, putByKey_of_notMem _ (endpoint_notMem h)]
  exact ⟨rfl, rfl⟩

/-- An edge with an id of its own goes to the end. -/
theorem submit_edge_of_notMem {document : Document} {e : Edge}
    (h : e.id ∉ document.edges.map Edge.id) :
    (document.submit (.edge e)).1.edges = document.edges ++ [e] ∧
      (document.submit (.edge e)).1.vertices = document.vertices := by
  have hfree : document.containsEdge e.id = false := Bool.eq_false_iff.2 (mt containsEdge_iff.1 h)
  simp only [submit, holdsId, hfree, put, putEdge, putByKey_of_notMem _ (key_notMem h)]
  exact ⟨rfl, rfl⟩

/-- **A document keeps elements with different ids**, all of them and in their order. -/
theorem submitAll_of_nodup (document : Document) (elements : List Element)
    (hvertices :
      ((document.vertices ++ elements.filterMap Element.vertex?).map fun v => v.id).Nodup)
    (hedges : ((document.edges ++ elements.filterMap Element.edge?).map Edge.id).Nodup) :
    (Sink.submitAll document elements).1.vertices =
        document.vertices ++ elements.filterMap Element.vertex? ∧
      (Sink.submitAll document elements).1.edges =
        document.edges ++ elements.filterMap Element.edge? := by
  induction elements generalizing document with
  | nil => exact ⟨(List.append_nil _).symm, (List.append_nil _).symm⟩
  | cons element elements ih =>
    cases element with
    | vertex v =>
      simp only [List.filterMap_cons, Element.vertex?, Element.edge?] at hvertices hedges ⊢
      rw [List.append_cons] at hvertices ⊢
      -- The id of the first element is none of those that the document has.
      have hnew : v.id ∉ document.vertices.map fun w => w.id := by
        have hfront := (List.nodup_append.1 (List.map_append ▸ hvertices)).1
        rw [List.map_append, List.nodup_append] at hfront
        exact fun hmem => hfront.2.2 _ hmem _ (by simp) rfl
      -- So it is kept at the end, and the rest goes on with the document that has it.
      obtain ⟨hv, he⟩ := submit_vertex_of_notMem hnew
      have hrest := ih (document.submit (.vertex v)).1
      rw [hv, he] at hrest
      exact hrest hvertices hedges
    | edge e =>
      simp only [List.filterMap_cons, Element.vertex?, Element.edge?] at hvertices hedges ⊢
      rw [List.append_cons] at hedges ⊢
      have hnew : e.id ∉ document.edges.map Edge.id := by
        have hfront := (List.nodup_append.1 (List.map_append ▸ hedges)).1
        rw [List.map_append, List.nodup_append] at hfront
        exact fun hmem => hfront.2.2 _ hmem _ (by simp) rfl
      obtain ⟨he, hv⟩ := submit_edge_of_notMem hnew
      have hrest := ih (document.submit (.edge e)).1
      rw [hv, he] at hrest
      exact hrest hvertices hedges

end Graph.Document

/-- **The document of a run.** Behind a fresh recorder, a document that was empty holds the vertices
of the messages that were taken in and the edges of the run, each in its order. -/
theorem Recorder.document_run (retention : Retention) (calls : List Call) :
    ((Recorder.start retention Document.empty).run calls).recorder.sink.vertices =
        (announcementsFrom 0 (calls.map Call.input)).map Announcement.vertex ∧
      ((Recorder.start retention Document.empty).run calls).recorder.sink.edges =
        (Session.start retention).edges (calls.map Call.input) := by
  have hvertices : ((Session.start retention).submissions (calls.map Call.input)).filterMap
      Element.vertex? =
      (announcementsFrom 0 (calls.map Call.input)).map Announcement.vertex :=
      vertices_submissions _ _
  -- The document was empty, so it is left to say that the ids of the run are different.
  rw [sink_run, ← hvertices]
  exact Document.submitAll_of_nodup Document.empty _ (nodup_id_vertices _ _) (nodup_id_edges _ _)

/-- The vertex of an announcement of a run is found in its document. -/
theorem Recorder.vertex?_document_run (retention : Retention) (calls : List Call) {a : Announcement}
    (ha : a ∈ announcementsFrom 0 (calls.map Call.input)) :
    ((Recorder.start retention Document.empty).run calls).recorder.sink.vertex? a.vertex.endpoint =
      some a.vertex := by
  refine find?_key_of_mem Vertex.endpoint (Document.nodup_vertices _) ?_
  rw [(Recorder.document_run retention calls).1]
  exact List.mem_map.2 ⟨a, ha, rfl⟩

end Lineage
