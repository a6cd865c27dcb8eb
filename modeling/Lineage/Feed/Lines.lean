import Lineage.Feed.Arrival

/-!
# Lines

A feed of lines comes out of a row of reads, each of which brings some bytes or fails. Messages
are the lines of the bytes that the reads bring one after the other; where one read ends and
the next begins does not matter. A line ends with a line feed, and one carriage return before
that does not belong to it. Lines of ASCII blanks only are passed over. A last line without
line feed counts as well.

A failed read stands between the lines that were complete before it and those completed after it;
the bytes of a line that it interrupts are kept. A read that brings no byte is the end of the input
as far as it is known: it ends the line that is open, or else the fetch.
-/

namespace Lineage.Feed

/-- What comes of reading. -/
inductive Read
  | bytes (chunk : List UInt8)
  | failed (reason : String)
deriving DecidableEq, Repr

/-- The byte that ends a line. -/
def lineFeed : UInt8 := 10

/-- The byte that may stand before the end of a line. -/
def carriageReturn : UInt8 := 13

/-- The bytes that make no message: blanks of ASCII. -/
def isBlankByte (b : UInt8) : Bool :=
  b == 32 || b == 9 || b == 10 || b == 12 || b == 13

/-- The line without a carriage return at its end. -/
def withoutReturn (line : List UInt8) : List UInt8 :=
  if line.getLast? = some carriageReturn then line.dropLast else line

/-- The message that a line makes, if it is not blank. -/
def message? (line : List UInt8) : Option Arrival :=
  let content := withoutReturn line
  if content.all isBlankByte then none else some (.message content)

/-- The lines that some bytes complete, given the bytes of the open line, the last one first. -/
def completed : (pending : List UInt8) → (bytes : List UInt8) → List (List UInt8)
  | _, [] => []
  | pending, b :: bytes =>
    if b = lineFeed then pending.reverse :: completed [] bytes else completed (b :: pending) bytes

/-- The open line after some bytes, its last byte first. -/
def pendingAfter : (pending : List UInt8) → (bytes : List UInt8) → List UInt8
  | pending, [] => pending
  | pending, b :: bytes =>
    if b = lineFeed then pendingAfter [] bytes else pendingAfter (b :: pending) bytes

/-- What arrives while the reads go on. -/
def arrivalsFrom : (pending : List UInt8) → List Read → List Arrival
  | pending, [] => (message? pending.reverse).toList
  | pending, .failed reason :: reads => .failed reason :: arrivalsFrom pending reads
  -- With no line open, the known end of the input ends the fetch that meets it.
  | [], .bytes [] :: reads => .ended :: arrivalsFrom [] reads
  -- With a line open it ends the line, and the fetch only if that makes a message.
  | pending, .bytes [] :: reads => (message? pending.reverse).toList ++ arrivalsFrom [] reads
  | pending, .bytes chunk :: reads =>
    (completed pending chunk).filterMap message? ++ arrivalsFrom (pendingAfter pending chunk) reads

/-- The feed of the lines that some reads bring. -/
def ofReads (label : String) (reads : List Read) : Feed :=
  ⟨label, arrivalsFrom [] reads⟩

end Lineage.Feed
