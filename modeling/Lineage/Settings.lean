import Lineage.Json.Printer
import Lineage.Json.Shape
import Lineage.Session.Retention

/-!
# Settings

Which queue a feed comes from and how much history is kept. Every setting has a default; environment
variables replace defaults, and a variable that cannot be read is an error, the port before the
retention (`Settings.ofEnvironment`).
-/

namespace Lineage

open Session Lineage.Json

/-! ### The queue -/

/-- Where telemetry comes from. -/
structure Queue where
  host : String
  port : UInt16
  queueName : String
deriving DecidableEq, Repr

namespace Queue

/-- The queue that is meant if nothing is said. -/
def standard : Queue := ⟨"127.0.0.1", 5672, "p4_events"⟩

instance : Inhabited Queue := ⟨standard⟩

def address (queue : Queue) : String :=
  queue.host ++ ":" ++ toString queue.port.toNat

/-- What the feed from the queue is called. -/
def label (queue : Queue) : String :=
  "tcp://" ++ queue.address ++ "/" ++ queue.queueName

end Queue

def portLimit : Nat := 65535

/-- The number that some decimal digits write; there has to be one at least. -/
def readDigits? (text : List Char) : Option Nat :=
  if text.isEmpty || !text.all isDigit then none else some (Number.digitsValue text)

/-- The port that a text writes: decimal digits, with a plus sign before them at most. -/
def readPort? (text : List Char) : Option UInt16 :=
  let digits :=
    -- A plus sign is dropped, so that two of them are not digits.
    match text with
    | '+' :: rest => rest
    | text => text
  match readDigits? digits with
  | some n => if n ≤ portLimit then some (UInt16.ofNat n) else none
  | none => none

/-! ### Settings -/

/-- All settings. -/
structure Settings where
  queue : Queue
  history : Retention
deriving DecidableEq, Repr

/-- Why settings are refused. -/
inductive SettingsError
  | badPort (text : String)
  /-- No retention has the text for a name, which is kept as it was compared. -/
  | unknownRetention (text : String)
  /-- Records are to go to a file, but it is not said to which. -/
  | noOutput
deriving DecidableEq, Repr

namespace Settings

/-- The settings that hold if nothing is said. -/
def standard : Settings := ⟨.standard, .full⟩

instance : Inhabited Settings := ⟨standard⟩

/-- The variable that names the host. -/
def hostVariable : String := "P4PROV_QUEUE_HOST"

/-- The variable that names the port. -/
def portVariable : String := "P4PROV_QUEUE_PORT"

/-- The variable that names the queue. -/
def nameVariable : String := "P4PROV_QUEUE_NAME"

/-- The variable that names the retention. -/
def historyVariable : String := "P4PROV_STATE_HISTORY"

def variableNames : List String := [hostVariable, portVariable, nameVariable, historyVariable]

end Settings

def SettingsError.message : SettingsError → String
  | badPort text =>
    s!"Configuration error: {Settings.portVariable} must be a port number, got '{text}'"
  | unknownRetention text =>
    s!"Configuration error: unknown state history retention '{text}' "
      ++ "(expected 'full' or 'latest')"
  | noOutput => "Invalid argument: --output is required for the jsonl sink"

/-- The retention that a text names. -/
def Session.Retention.ofText (text : String) : Except SettingsError Retention :=
  match Retention.ofText? text with
  | some retention => .ok retention
  | none => .error (.unknownRetention (Retention.normalized text))

namespace Settings

/-- The port that a variable names, blanks around it aside. -/
def portOfText (text : String) : Except SettingsError UInt16 :=
  match readPort? (Text.trim text.toList) with
  | some port => .ok port
  | none => .error (.badPort text)

/-- The value of a variable, or the default if it is not set. -/
def orStandard {α : Type} (setting : Option String) (standard : α)
    (read : String → Except SettingsError α) : Except SettingsError α :=
  match setting with
  -- A variable that is set but empty is read like any other.
  | some text => read text
  | none => .ok standard

def ofEnvironment (lookup : String → Option String) : Except SettingsError Settings := do
  let host ← orStandard (lookup hostVariable) standard.queue.host .ok
  let port ← orStandard (lookup portVariable) standard.queue.port portOfText
  let queueName ← orStandard (lookup nameVariable) standard.queue.queueName .ok
  let history ← orStandard (lookup historyVariable) standard.history Retention.ofText
  pure ⟨⟨host, port, queueName⟩, history⟩

end Settings

/-! ### Written forms -/

/-- The written form of a retention. -/
def Session.Retention.toJson (retention : Retention) : Value :=
  .text retention.label

/-- The written form of a queue. -/
def Queue.toJson (queue : Queue) : Value :=
  .object [("host", .text queue.host), ("port", .ofNat queue.port.toNat),
    ("queue_name", .text queue.queueName)]

def Settings.toJson (settings : Settings) : Value :=
  .object [("queue", settings.queue.toJson), ("history", settings.history.toJson)]

def Session.Retention.reader : Reader Retention :=
  readChoice (Retention.all.map fun retention =>
    ⟨retention.label, some retention, fun input => (readNull input).map fun _ => retention⟩)

def readPort : Reader UInt16 := fun input =>
  (readNatUpTo portLimit input).map UInt16.ofNat

def Queue.reader : Reader Queue := fun input => do
  let starts ← readRecord [.of "host" readString, .of "port" readPort,
    .of "queue_name" readString] input
  let host ← starts.get "host" readString
  let port ← starts.get "port" readPort
  let queueName ← starts.get "queue_name" readString
  pure ⟨host, port, queueName⟩

def Settings.reader : Reader Settings := fun input => do
  let starts ← readRecord [.of "queue" Queue.reader, .of "history" Retention.reader] input
  let queue ← starts.get "queue" Queue.reader
  let history ← starts.get "history" Retention.reader
  pure ⟨queue, history⟩

end Lineage
