import Lineage.CommandLine.Plan
import Lineage.Graph.Sink
import Lineage.SystemError

/-!
# Failures

Why a run comes to nothing, and what is told of it: what failed, and below that what caused it, the
nearest cause first.
-/

namespace Lineage.CommandLine

open Lineage.Graph

/-- A failure as it is told. -/
structure Report where
  message : String
  /-- The causes, each the cause of the one before. -/
  causes : List String
deriving DecidableEq, Repr

namespace Report

/-- The text with its lines after the first one moved in. -/
def indented (margin text : String) : String :=
  String.ofList (text.toList.flatMap fun c => if c = '\n' then '\n' :: margin.toList else [c])

def onlyCause (cause : String) : String :=
  "\n    " ++ indented "    " cause

/-- One of several causes, numbered from zero. -/
def numberedCause (index : Nat) (cause : String) : String :=
  let digits := toString index
  let margin := String.ofList (List.replicate (5 - digits.length) ' ')
  "\n" ++ margin ++ digits ++ ": " ++ indented "       " cause

/-- The causes, the first one having the given number. -/
def numberedCauses (index : Nat) : List String → String
  | [] => ""
  | cause :: causes => numberedCause index cause ++ numberedCauses (index + 1) causes

def text (report : Report) : String :=
  "Error: " ++ report.message ++
    (match report.causes with
    | [] => ""
    | [cause] => "\n\nCaused by:" ++ onlyCause cause
    | causes => "\n\nCaused by:" ++ numberedCauses 0 causes) ++ "\n"

end Report

/-- Why a run comes to nothing. -/
inductive Failure
  /-- The environment holds a setting that cannot be read. -/
  | badEnvironment (error : SettingsError)
  | badUsage (error : UsageError)
  /-- The arguments do not make a plan. -/
  | badArguments (error : SettingsError)
  /-- The file of records cannot be opened. -/
  | outputNotOpened (path : String) (error : SystemError)
  | inputNotOpened (path : String) (error : SystemError)
  | notConnected (address : String) (error : SystemError)
  | feedFailed (reason : String)
deriving DecidableEq, Repr

namespace Failure

/-- What is told of a failure. -/
def report : Failure → Report
  | badEnvironment error => ⟨"Failed to load configuration", [error.message]⟩
  | badUsage error => ⟨error.message, []⟩
  | badArguments error => ⟨"Failed to parse arguments", [error.message]⟩
  | outputNotOpened path error =>
    ⟨s!"Failed to open sink file {path}", [(SinkError.io error.message).message, error.message]⟩
  | inputNotOpened path error => ⟨s!"Failed to open input {path}", [error.message]⟩
  | notConnected address error => ⟨s!"Failed to connect to {address}", [error.message]⟩
  | feedFailed reason => ⟨s!"Message source failed: {reason}", []⟩

/-- The exit code of a failure: two for a command line that cannot be read, one for all else. To ask
for help is no failure in the end. -/
def exitCode : Failure → Nat
  | badUsage .helpAsked => 0
  | badUsage _ => 2
  | _ => 1

end Failure

end Lineage.CommandLine
