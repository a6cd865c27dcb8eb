import Lineage.Json.Printer

/-!
# Statistics

What a session has counted: the messages, the vertices and edges by kind, the refused messages by
the kind of the error, and the entities for which no activity was known. A counter that was never
raised does not occur.

The counters have no upper limit. Counters of 64 bits show the same numbers in any run of fewer than
`2 ^ 63` calls, since no counter and no total is raised more than twice in a call
(`Recorder.atMost_run`).
-/

namespace Lineage.Session

open Lineage.Json

/-- The counters of a session. -/
structure Stats where
  messages : Nat
  /-- The vertices, by the name of their kind. -/
  vertices : Catalog Nat
  /-- The edges, by the name of their relation. -/
  edges : Catalog Nat
  /-- The messages that were refused, by the kind of the error. -/
  dropped : Catalog Nat
  /-- The entities for which no activity was known. -/
  missingCorrelations : Nat
deriving DecidableEq

namespace Stats

def start : Stats := ⟨0, .empty, .empty, .empty, 0⟩

instance : Inhabited Stats := ⟨start⟩

def countMessage (stats : Stats) : Stats :=
  { stats with messages := stats.messages + 1 }

def countVertex (stats : Stats) (label : String) : Stats :=
  { stats with vertices := stats.vertices.increment label }

def countEdge (stats : Stats) (label : String) : Stats :=
  { stats with edges := stats.edges.increment label }

def countDrop (stats : Stats) (kind : String) : Stats :=
  { stats with dropped := stats.dropped.increment kind }

/-- Counts an entity for which no activity was known. -/
def countMissing (stats : Stats) : Stats :=
  { stats with missingCorrelations := stats.missingCorrelations + 1 }

def vertexTotal (stats : Stats) : Nat :=
  stats.vertices.total

def edgeTotal (stats : Stats) : Nat :=
  stats.edges.total

def droppedTotal (stats : Stats) : Nat :=
  stats.dropped.total

/-- The written form of the counters. -/
def toJson (stats : Stats) : Value :=
  .object [("messages", .ofNat stats.messages), ("vertices", .ofCounters stats.vertices),
    ("edges", .ofCounters stats.edges), ("dropped", .ofCounters stats.dropped),
    ("missing_correlations", .ofNat stats.missingCorrelations)]

end Stats

end Lineage.Session
