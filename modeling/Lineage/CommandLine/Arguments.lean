import Lineage.Settings

/-!
# Arguments

What may be asked for on the command line. Every option has a name of its own and may occur once. A
value follows its option as the next argument, unless that starts with a dash and is more than the
dash, or it is joined to the option by an equals sign, and then it may be anything. There are no
other arguments; two dashes alone may close the line.

The line is read in two steps: first into options and their values as texts (`readOptions`), then
each value as what it has to be (`Arguments.ofOptions`). A line that asks for help is read up to
there, and what stands before has to be right.
-/

namespace Lineage.CommandLine

open Session

/-- The options. -/
inductive Flag
  | input
  | tcp
  | sink
  | output
  | stateHistory
  | queueHost
  | queuePort
  | queueName
  | help
deriving DecidableEq, Repr

namespace Flag

/-- The name of an option, without its dashes. -/
def name : Flag → String
  | input => "input"
  | tcp => "tcp"
  | sink => "sink"
  | output => "output"
  | stateHistory => "state-history"
  | queueHost => "queue-host"
  | queuePort => "queue-port"
  | queueName => "queue-name"
  | help => "help"

/-- The options in the order in which the help tells them. -/
def all : List Flag :=
  [input, tcp, sink, output, stateHistory, queueHost, queuePort, queueName, help]

def ofName? (name : String) : Option Flag :=
  all.find? (·.name = name)

/-- What the help calls the value of an option. An option has a value if there is a name for it. -/
def valueName? : Flag → Option String
  | input | output => some "PATH"
  | sink => some "SINK"
  | stateHistory => some "RETENTION"
  | queueHost => some "QUEUE_HOST"
  | queuePort => some "QUEUE_PORT"
  | queueName => some "QUEUE_NAME"
  | tcp | help => none

/-- Whether an option has a value. -/
def takesValue (flag : Flag) : Bool :=
  flag.valueName?.isSome

/-- What the help says of an option. -/
def about : Flag → String
  | input => "Telemetry input file, `-` for stdin (the default)"
  | tcp => "Read newline-delimited telemetry from the queue endpoint"
  | sink => "Provenance sink [default: memory] [possible values: memory, jsonl]"
  | output => "Output file (required for the jsonl sink)"
  | stateHistory => "State history retention: full or latest"
  | queueHost => "Queue host (overrides P4PROV_QUEUE_HOST)"
  | queuePort => "Queue port (overrides P4PROV_QUEUE_PORT)"
  | queueName => "Queue name (overrides P4PROV_QUEUE_NAME)"
  | help => "Print help"

/-- How the help writes an option. Help alone has a short name. -/
def usage (flag : Flag) : String :=
  let dashes := if flag = help then "  -h, --" else "      --"
  let value :=
    match flag.valueName? with
    | some name => s!" <{name}>"
    | none => ""
  dashes ++ flag.name ++ value

end Flag

/-- How wide the help writes its column of options. -/
def usageWidth : Nat := 35

/-- The help. -/
def helpText : String :=
  "Translate P4 device telemetry into a provenance graph\n\n" ++
    "Usage: p4prov [OPTIONS]\n\nOptions:\n" ++
    String.join (Flag.all.map fun flag =>
      flag.usage.pushn ' ' (usageWidth - flag.usage.length) ++ flag.about ++ "\n")

/-- Why a command line is not carried out. -/
inductive UsageError
  /-- It asks for the help. -/
  | helpAsked
  /-- An argument is neither an option nor the value of one. -/
  | unexpected (argument : String)
  | noValue (flag : Flag)
  /-- An option that has no value was given one. -/
  | surplusValue (flag : Flag)
  | repeated (flag : Flag)
  | conflict (flag other : Flag)
  /-- The value of an option is not one for it. -/
  | badValue (flag : Flag) (value : String)
deriving DecidableEq, Repr

def UsageError.message : UsageError → String
  | helpAsked => helpText
  | unexpected argument => s!"unexpected argument '{argument}'"
  | noValue flag => s!"--{flag.name} needs a value"
  | surplusValue flag => s!"--{flag.name} takes no value"
  | repeated flag => s!"--{flag.name} is given more than once"
  | conflict flag other => s!"--{flag.name} cannot be used with --{other.name}"
  | badValue flag value => s!"invalid value '{value}' for --{flag.name}"

/-! ### Options -/

/-- An option with its value; one that has none is given the empty text. -/
abbrev Options := List (Flag × String)

/-- Whether an argument may be the value of the option before it. -/
def isValue (argument : String) : Bool :=
  argument = "-" || !argument.startsWith "-"

/-- The name and the joined value of an argument that starts with two dashes. -/
def splitArgument (argument : List Char) : String × Option String :=
  let name := String.ofList (argument.takeWhile (· != '='))
  match argument.dropWhile (· != '=') with
  | [] => (name, none)
  | _ :: value => (name, some (String.ofList value))

/-- The option that an argument names, with the value joined to it. Of the options that have one
letter for a name only help is there, and the letters behind it are not looked at. -/
def readFlag (argument : String) : Except UsageError (Flag × Option String) :=
  match argument.toList with
  | '-' :: '-' :: rest =>
    let (name, value) := splitArgument rest
    match Flag.ofName? name with
    | some flag => .ok (flag, value)
    | none => .error (.unexpected argument)
  | '-' :: 'h' :: _ => .ok (.help, none)
  | _ => .error (.unexpected argument)

/-- The options of a command line, up to the one that asks for help. -/
def readOptions : List String → Except UsageError Options
  | [] => .ok []
  -- Two dashes end the options, and there is nothing that could follow them.
  | ["--"] => .ok []
  | argument :: rest =>
    match readFlag argument with
    | .error error => .error error
    | .ok (flag, some value) =>
      if flag.takesValue then (readOptions rest).map ((flag, value) :: ·)
      else .error (.surplusValue flag)
    | .ok (flag, none) =>
      if flag.takesValue then
        match rest with
        | value :: rest =>
          if isValue value then (readOptions rest).map ((flag, value) :: ·)
          else .error (.noValue flag)
        | [] => .error (.noValue flag)
      -- What stands behind is not read any more, be it right or not.
      else if flag = .help then .ok [(flag, "")]
      else (readOptions rest).map ((flag, "") :: ·)

/-- The first option that occurs again. -/
def repeated? : Options → Option Flag
  | [] => none
  -- The values do not matter, not even if they are the same.
  | (flag, _) :: rest => if (rest.lookup flag).isSome then some flag else repeated? rest

/-! ### Values -/

/-- What may become of the graph. -/
inductive SinkChoice
  | memory
  /-- Its records are appended to a file. -/
  | jsonl
deriving DecidableEq, Repr

/-- What the command line asks for. -/
structure Arguments where
  input : Option String
  /-- Whether messages are read from the queue. -/
  tcp : Bool
  sink : SinkChoice
  output : Option String
  history : Option Retention
  queueHost : Option String
  queuePort : Option UInt16
  queueName : Option String
deriving DecidableEq, Repr

/-- The value of an option, read as what it has to be. -/
def valueOf {α : Type} (options : Options) (flag : Flag) (read? : String → Option α) :
    Except UsageError (Option α) :=
  match options.lookup flag with
  | none => .ok none
  | some value =>
    match read? value with
    | some a => .ok (some a)
    | none => .error (.badValue flag value)

/-- A path is any text but the empty one. -/
def readPath? (value : String) : Option String :=
  if value = "" then none else some value

/-- The port that the value of an option writes. It is read as an integer first, so that zero may
have a minus sign. -/
def readPortOption? : List Char → Option UInt16
  | '-' :: digits => if readDigits? digits = some 0 then some 0 else none
  | text => readPort? text

/-- The names of what may become of the graph. -/
def SinkChoice.ofName? (name : String) : Option SinkChoice :=
  if name = "memory" then some .memory else if name = "jsonl" then some .jsonl else none

namespace Arguments

/-- The arguments that some options make. -/
def ofOptions (options : Options) : Except UsageError Arguments := do
  -- The values are read in the order of the options, and the first that is wrong is told.
  let input ← valueOf options .input readPath?
  let sink ← valueOf options .sink SinkChoice.ofName?
  let output ← valueOf options .output readPath?
  let history ← valueOf options .stateHistory Retention.ofText?
  let queueHost ← valueOf options .queueHost some
  let queuePort ← valueOf options .queuePort fun value => readPortOption? value.toList
  let queueName ← valueOf options .queueName some
  let tcp := (options.lookup .tcp).isSome
  pure ⟨input, tcp, sink.getD .memory, output, history, queueHost, queuePort, queueName⟩

/-- The arguments of a command line. Help is given before it is asked whether the options go
together, but not if one of them cannot be read. -/
def read (line : List String) : Except UsageError Arguments :=
  match readOptions line with
  | .error error => .error error
  | .ok options =>
    match repeated? options with
    | some flag => .error (.repeated flag)
    | none =>
      match ofOptions options with
      | .error error => .error error
      | .ok arguments =>
        if (options.lookup .help).isSome then .error .helpAsked
        else if arguments.tcp && arguments.input.isSome then .error (.conflict .tcp .input)
        else .ok arguments

end Arguments

end Lineage.CommandLine
