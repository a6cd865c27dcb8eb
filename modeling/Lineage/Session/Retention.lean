import Lineage.Text.Blank
import Lineage.Text.Split

/-!
# Retention

How much of the history of a cell is kept: all of it, or the latest entity only. Either is enough to
tell a change from a repetition, so the choice shows in the histories and nowhere else.
-/

namespace Lineage.Session

/-- How much of the history of a cell is kept. -/
inductive Retention
  | full
  | latestOnly
deriving DecidableEq, Repr

namespace Retention

instance : Inhabited Retention := ⟨full⟩

def name : Retention → String
  | full => "full"
  | latestOnly => "latest"

def label : Retention → String
  | full => "full"
  | latestOnly => "latest_only"

def all : List Retention := [full, latestOnly]

/-- A text as it is compared with the names: without blanks around it, and in lower case. -/
def normalized (text : String) : String :=
  Text.lowerAscii (Text.trimmed text)

/-- The retention that a text names, in either way. -/
def ofText? (text : String) : Option Retention :=
  -- Both ways of writing one differ for the latest only.
  all.find? fun retention => normalized text = retention.name ∨ normalized text = retention.label

end Retention

end Lineage.Session
