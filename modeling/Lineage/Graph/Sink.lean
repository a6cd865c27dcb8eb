import Lineage.Graph.Form

/-!
# Sinks

A sink takes the elements of a graph one after the other, and refuses some of them. Whoever submits
an element goes on whatever the answer was; a sink may answer as it likes, since nothing but its own
state depends on the answer.

Three sinks are given here. A document keeps the first element with each id and refuses all later
ones, of whatever kind they are. A file of records appends a line for every element and refuses
none; what it appends waits for a flush. An outage refuses everything.
-/

namespace Lineage.Graph

/-- Why a sink refuses an element or a flush. -/
inductive SinkError
  | storage (reason : String)
  | io (reason : String)
  /-- The record of an element cannot be written as JSON. -/
  | json (reason : String)
  /-- An element with the id is there already. -/
  | duplicate (label id : String)
deriving DecidableEq, Repr

def SinkError.message : SinkError → String
  | storage reason => s!"provenance storage error: {reason}"
  | io reason => s!"provenance sink I/O error: {reason}"
  | json reason => s!"provenance serialization error: {reason}"
  | duplicate label id => s!"duplicate provenance {label} id: {id}"

/-- The error of an element whose id is taken. -/
def Element.duplicate (element : Element) : SinkError :=
  .duplicate element.label element.id

/-- Where elements go. -/
class Sink (σ : Type) where
  /-- Takes an element in, or refuses it. -/
  submit : σ → Element → σ × Option SinkError
  flush : σ → σ × Option SinkError

namespace Sink

variable {σ : Type} [Sink σ]

/-- Submits elements in their order, and tells which of them were refused. -/
def submitAll (sink : σ) : List Element → σ × List (Element × SinkError)
  | [] => (sink, [])
  | element :: elements =>
    let (sink, error) := submit sink element
    -- A refusal stops nothing: the elements behind it are submitted all the same.
    let (sink, refused) := submitAll sink elements
    (sink, (error.map fun error => (element, error)).toList ++ refused)

end Sink

/-! ### Documents -/

namespace Document

/-- Whether an element of the same sort, vertex or edge, has the id of this one. -/
def holdsId (document : Document) : Element → Bool
  | .vertex v => document.containsVertex v.id
  | .edge e => document.containsEdge e.id

def put (document : Document) : Element → Document
  | .vertex v => document.putVertex v
  | .edge e => document.putEdge e

/-- Takes an element in, unless its id is taken. -/
def submit (document : Document) (element : Element) : Document × Option SinkError :=
  -- The ids are compared whatever the kinds are, so an id is taken for all of them.
  if document.holdsId element then (document, some element.duplicate)
  else (document.put element, none)

instance : Sink Document where
  submit := submit
  flush document := (document, none)

end Document

/-! ### Files of records -/

/-- A file that records are appended to. What is appended waits in a buffer, and it is certain to be
in the file only when the buffer has been flushed. -/
structure RecordFile where
  /-- What the file holds. -/
  written : String
  /-- What waits to be written behind that. -/
  pending : String
deriving DecidableEq, Inhabited

namespace RecordFile

/-- A file as it is when it has been opened: nothing waits. -/
def opened (text : String) : RecordFile := ⟨text, ""⟩

def empty : RecordFile := opened ""

/-- Appends the line of an element. -/
def append (file : RecordFile) (element : Element) : RecordFile :=
  { file with pending := file.pending ++ element.record.line }

/-- Writes what waits. -/
def flush (file : RecordFile) : RecordFile :=
  opened (file.written ++ file.pending)

instance : Sink RecordFile where
  submit file element := (file.append element, none)
  flush file := (file.flush, none)

end RecordFile

/-! ### Outages -/

/-- A sink behind which everything fails. -/
structure Outage where
  error : SinkError
deriving DecidableEq

instance : Sink Outage where
  submit outage _ := (outage, some outage.error)
  flush outage := (outage, some outage.error)

/-! ### Any of these -/

/-- A sink of one of the sorts above. -/
inductive Store
  | memory (document : Document)
  | file (file : RecordFile)
  | outage (outage : Outage)

namespace Store

/-- Takes an element in, or refuses it. -/
def submit : Store → Element → Store × Option SinkError
  | memory document, element => (Sink.submit document element).map memory id
  | file records, element => (Sink.submit records element).map file id
  | outage out, element => (Sink.submit out element).map outage id

/-- Makes what was taken in durable. -/
def flush : Store → Store × Option SinkError
  | memory document => (Sink.flush document).map memory id
  | file records => (Sink.flush records).map file id
  | outage out => (Sink.flush out).map outage id

instance : Sink Store where
  submit := submit
  flush := flush

end Store

end Lineage.Graph
