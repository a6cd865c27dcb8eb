import Lineage.CommandLine.Program
import Std.Async.DNS
import Std.Async.TCP

/-!
# The command

Runs the program on the operating system. A feed is read to its end before any of it is consumed, so
the program prints the same as one that consumes each message as it comes, but only when the feed is
over: the messages of a queue that stays open are never processed. An interrupt ends the program at
once and is no request to stop; what a session does that is asked to stop is told by
`Session.Recorder.consume` and is not reached from here.
-/

namespace Lineage.Main

open CommandLine Std.Async Std.Net

/-- The most bytes that are read at a time. -/
def chunkSize : Nat := 65536

/-- The number of an error. Some parts of the system count their errors below zero. -/
def errorCode (code : UInt32) : Nat :=
  code.toInt32.toInt.natAbs

/-- The error of the operating system behind an error. -/
def systemError (error : IO.Error) : SystemError :=
  match error with
  | .alreadyExists _ code text | .otherError code text | .resourceBusy code text
  | .resourceVanished code text | .unsupportedOperation code text | .hardwareFault code text
  | .unsatisfiedConstraints code text | .illegalOperation code text | .protocolError code text
  | .timeExpired code text | .interrupted _ code text | .noFileOrDirectory _ code text
  | .invalidArgument _ code text | .permissionDenied _ code text | .resourceExhausted _ code text
  | .inappropriateType _ code text | .noSuchThing _ code text =>
    ⟨errorCode code, text.capitalize⟩
  | .unexpectedEof => ⟨0, "Unexpected end of file"⟩
  | .userError text => ⟨0, text⟩

def attempt {α : Type} (action : IO α) : IO (Except SystemError α) := do
  try
    return .ok (← action)
  catch error =>
    return .error (systemError error)

/-- Reads until there is nothing more or reading fails. Does not return while the other side keeps a
connection open. -/
partial def readAll (read : IO (Option ByteArray)) (reads : Array Feed.Read) :
    IO (List Feed.Read) := do
  match ← attempt read with
  | .ok (some chunk) => readAll read (reads.push (.bytes chunk.toList))
  | .ok none => return reads.toList
  | .error error => return (reads.push (.failed error.message)).toList

def someChunk (chunk : ByteArray) : Option ByteArray :=
  if chunk.isEmpty then none else some chunk

/-- Reads from a stream until it ends. -/
def readStream (stream : IO.FS.Stream) : IO (List Feed.Read) :=
  readAll (someChunk <$> stream.read chunkSize.toUSize) #[]

def socketAddress (address : IPAddr) (port : UInt16) : SocketAddress :=
  match address with
  | .v4 address => .v4 ⟨address, port⟩
  | .v6 address => .v6 ⟨address, port⟩

/-- Connects to the first of some addresses that answers. -/
def connectFirst (port : UInt16) : List IPAddr → IO TCP.Socket.Client
  | [] => throw (.userError "failed to lookup address information")
  | address :: addresses => do
    let client ← TCP.Socket.Client.mk
    try
      (client.connect (socketAddress address port)).block
      return client
    catch error =>
      -- The last address tells why there is no connection.
      if addresses.isEmpty then throw error else connectFirst port addresses

def connect (queue : Queue) : IO TCP.Socket.Client := do
  let addresses ← (DNS.getAddrInfo queue.host (toString queue.port)).block
  connectFirst queue.port addresses.toList

/-- The file of variables of a directory, or else of the nearest one above it that has one. -/
def findVariableFile (directory : String) : (levels : Nat) → IO (Option (List UInt8))
  | 0 => return none
  | levels + 1 => do
    match ← attempt (IO.FS.readBinFile (directory ++ ".env")) with
    | .ok bytes => return some bytes.toList
    | .error _ => findVariableFile (directory ++ "../") levels

/-- The operating system as a host. -/
def system : Host IO where
  lookup name := IO.getEnv name
  variableFile := do
    let directory ← IO.currentDir
    findVariableFile "" (directory.toString.splitOn "/").length
  standardInput := do readStream (← IO.getStdin)
  readFile path := do
    match ← attempt (IO.FS.Handle.mk path .read) with
    | .ok handle => return .ok (← readStream (.ofHandle handle))
    | .error error => return .error error
  openOutput path := do
    match ← attempt (IO.FS.Handle.mk path .append) with
    | .ok _ => return .ok ()
    | .error error => return .error error
  append path text := do
    -- The records are opened once more, since what opened them first has let go of them.
    let handle ← IO.FS.Handle.mk path .append
    handle.putStr text
    handle.flush
  connect queue := do
    match ← attempt (connect queue) with
    | .ok client => return .ok (← readAll ((client.recv? chunkSize.toUInt64).block) #[])
    | .error error => return .error error

/-- Runs the program with a command line, and prints what it leaves. -/
def run (line : List String) : IO UInt32 := do
  let exit ← system.run line
  IO.print exit.output
  IO.eprint exit.errors
  return exit.code.toUInt32

end Lineage.Main

def main (arguments : List String) : IO UInt32 :=
  Lineage.Main.run arguments
