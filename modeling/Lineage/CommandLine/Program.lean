import Lineage.CommandLine.EnvFile
import Lineage.CommandLine.Failure
import Lineage.Feed.Lines
import Lineage.Session.Intake

/-!
# The program

Consumes one feed and prints how it went. In their order

* the settings are read from the environment, which a file of variables may add to,
* the arguments are read and made into a plan with the settings,
* the file of records is opened, and then the feed,
* the feed is consumed, the records go to their file, and the summary is printed.

The first of these that fails ends the run with a report; a feed that fails in the end is reported
after the summary. What a run needs from its surroundings is a `Host`, so that the same program runs
on an operating system and on a description of one. A host gives all that there is to read of a feed
at once.
-/

namespace Lineage.CommandLine

open Lineage.Graph Session

/-- What a run needs from its surroundings. -/
structure Host (m : Type → Type) where
  lookup : String → m (Option String)
  variableFile : m (Option (List UInt8))
  /-- What comes of reading the standard input. -/
  standardInput : m (List Feed.Read)
  /-- What comes of reading a file, if it can be opened. -/
  readFile : String → m (Except SystemError (List Feed.Read))
  /-- Opens a file to append to, and makes it if there is none. -/
  openOutput : String → m (Except SystemError Unit)
  /-- Appends to a file that was opened. -/
  append : String → String → m Unit
  /-- What comes of reading from a queue, if it can be connected to. -/
  connect : Queue → m (Except SystemError (List Feed.Read))

/-- What a run leaves. -/
structure Exit where
  code : Nat
  output : String
  errors : String
deriving DecidableEq, Repr

/-- The end of a run that printed something, and may have failed after that. -/
def Exit.after (output : String) : Option Failure → Exit
  | none => ⟨0, output, ""⟩
  | some failure => ⟨failure.exitCode, output, failure.report.text⟩

/-- The end of a run that comes to nothing. The help is printed like what a run has found. -/
def Exit.ofFailure : Failure → Exit
  -- Asking for help is no failure, though it ends the run as one does.
  | .badUsage .helpAsked => ⟨0, helpText, ""⟩
  | failure => .after "" failure

/-- What the environment and the command line make of a run. -/
def configure (lookup : String → Option String) (line : List String) : Except Failure Plan :=
  match Settings.ofEnvironment lookup with
  -- The environment comes first: no argument makes up for a variable that cannot be read.
  | .error error => .error (.badEnvironment error)
  | .ok settings =>
    match Arguments.read line with
    | .error error => .error (.badUsage error)
    | .ok arguments => (arguments.plan settings).mapError .badArguments

/-- What is printed of a summary. -/
def printed (summary : Summary) : String :=
  summary.toJson.pretty ++ "\n"

/-- How a run fails whose feed stopped for a reason. -/
def failureOf : Feed.StopReason → Option Failure
  | .failure reason => some (.feedFailed reason)
  | _ => none

/-- Consumes a feed into an empty sink; nothing asks it to stop. -/
def consumeInto {σ : Type} [Sink σ] (plan : Plan) (sink : σ) (feed : Feed) : Summary × σ :=
  let (summary, intake) := (Recorder.start plan.settings.history sink).consume false feed
  (summary, intake.recorder.sink)

namespace Host

variable {m : Type → Type} [Monad m]

/-- The variables that a run may look up. -/
def environment (host : Host m) : m (Catalog String) := do
  let bytes ← host.variableFile
  let assignments := (bytes.map EnvFile.read).getD []
  -- A variable of the file may mention others, which are looked up as well.
  let names := Settings.variableNames ++ assignments.flatMap EnvFile.Assignment.names
  let values ← names.mapM fun name => do
    let value ← host.lookup name
    pure (value.map fun value => (name, value))
  pure (EnvFile.Assignment.applyAll (Catalog.ofList (values.filterMap id)) assignments)

/-- Opens the file of records, if there is one. -/
def openTarget (host : Host m) : Target → m (Except Failure Unit)
  | .memory => pure (.ok ())
  | .file path => do
    let opened ← host.openOutput path
    pure (opened.mapError (.outputNotOpened path))

def openSource (host : Host m) (plan : Plan) : m (Except Failure Feed) :=
  match plan.source with
  | .standardInput => do
    let reads ← host.standardInput
    pure (.ok (Feed.ofReads "stdin" reads))
  | .file path => do
    let opened ← host.readFile path
    pure ((opened.map (Feed.ofReads path)).mapError (.inputNotOpened path))
  | .queue => do
    let queue := plan.settings.queue
    let opened ← host.connect queue
    pure ((opened.map (Feed.ofReads queue.label)).mapError (.notConnected queue.address))

/-- Consumes a feed, and appends its records to their file. -/
def execute (host : Host m) (plan : Plan) (feed : Feed) : m Exit :=
  match plan.target with
  | .memory =>
    let (summary, _) := consumeInto plan Document.empty feed
    pure (Exit.after (printed summary) (failureOf summary.stop))
  | .file path => do
    let (summary, file) := consumeInto plan RecordFile.empty feed
    -- What still waits in the buffer of the sink is not written.
    host.append path file.written
    pure (Exit.after (printed summary) (failureOf summary.stop))

/-- Runs the program with a command line. -/
def run (host : Host m) (line : List String) : m Exit := do
  let environment ← host.environment
  match configure environment.get? line with
  | .error failure => pure (Exit.ofFailure failure)
  | .ok plan =>
    -- The file is made even if the feed cannot be opened.
    match ← host.openTarget plan.target with
    | .error failure => pure (Exit.ofFailure failure)
    | .ok _ =>
      match ← host.openSource plan with
      | .error failure => pure (Exit.ofFailure failure)
      | .ok feed => host.execute plan feed

end Host

end Lineage.CommandLine
