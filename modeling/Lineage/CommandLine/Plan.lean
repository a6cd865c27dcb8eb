import Lineage.CommandLine.Arguments

/-!
# Plans

What a run is going to do, out of the settings of the environment and the arguments: an argument
takes the place of the setting that it is about, and the arguments alone say where messages come
from and where the graph goes.
-/

namespace Lineage.CommandLine

open Session

/-- Where messages come from. -/
inductive Source
  | standardInput
  | file (path : String)
  | queue
deriving DecidableEq, Repr

/-- Where the graph goes. -/
inductive Target
  | memory
  /-- To the end of a file of records. -/
  | file (path : String)
deriving DecidableEq, Repr

/-- What a run is going to do. -/
structure Plan where
  settings : Settings
  source : Source
  target : Target
deriving DecidableEq, Repr

namespace Arguments

/-- The settings with those that the arguments are about replaced. -/
def override (arguments : Arguments) (settings : Settings) : Settings :=
  ⟨⟨arguments.queueHost.getD settings.queue.host, arguments.queuePort.getD settings.queue.port,
      arguments.queueName.getD settings.queue.queueName⟩,
    arguments.history.getD settings.history⟩

/-- Where messages come from. A single dash names the standard input. -/
def source (arguments : Arguments) : Source :=
  if arguments.tcp then .queue
  else
    match arguments.input with
    | some path => if path = "-" then .standardInput else .file path
    | none => .standardInput

def target (arguments : Arguments) : Except SettingsError Target :=
  match arguments.sink, arguments.output with
  | .memory, _ => .ok .memory
  | .jsonl, some path => .ok (.file path)
  | .jsonl, none => .error .noOutput

/-- What a run is going to do. -/
def plan (arguments : Arguments) (settings : Settings) : Except SettingsError Plan :=
  arguments.target.map fun target => ⟨arguments.override settings, arguments.source, target⟩

end Arguments

end Lineage.CommandLine
