/-!
# Errors of the operating system

An error that the operating system answers with: its number and what the number stands for.
-/

namespace Lineage

/-- An error of the operating system. -/
structure SystemError where
  code : Nat
  description : String
deriving DecidableEq, Repr

namespace SystemError

def message (error : SystemError) : String :=
  s!"{error.description} (os error {error.code})"

/-- There is nothing under a path. -/
def notFound : SystemError := ⟨2, "No such file or directory"⟩

/-- A path leads through something that is no directory. -/
def notDirectory : SystemError := ⟨20, "Not a directory"⟩

/-- A directory is not a file. -/
def isDirectory : SystemError := ⟨21, "Is a directory"⟩

/-- A name is longer than names may be. -/
def nameTooLong : SystemError := ⟨36, "File name too long"⟩

/-- No way leads to a host. -/
def networkUnreachable : SystemError := ⟨101, "Network is unreachable"⟩

end SystemError

end Lineage
