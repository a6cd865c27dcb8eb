import Lineage.CommandLine.Program

/-!
# Described surroundings

Surroundings for a run that are given as a value: a tree of files, an environment, an input, and no
network. The program can be run there (`Surroundings.host`), and what it does to the files can be
looked at afterwards.

Paths are looked up from the root of the tree, which is where the run takes place. A name that
stands for nothing may only be the last of a path, and a file may not stand before another name.
-/

namespace Lineage.CommandLine

/-- A tree of files and directories. Paths are lists of names; the empty path is the root. -/
structure FileTree where
  files : List (List String × List UInt8)
  /-- The directories, apart from the root and those that hold something. -/
  directories : List (List String)

/-- What a path leads to. -/
inductive Place
  | directory
  | file (path : List String) (content : List UInt8)
  /-- A place in a directory where nothing is. -/
  | vacant (path : List String)

namespace FileTree

def nameLimit : Nat := 255

/-- Whether a path is one of a directory. -/
def isDirectory (tree : FileTree) (path : List String) : Bool :=
  path.isEmpty || tree.directories.any (path.isPrefixOf ·)
    || tree.files.any fun file => path.isPrefixOf file.1 && path.length < file.1.length

/-- What a path holds, if it is one of a file. -/
def content? (tree : FileTree) (path : List String) : Option (List UInt8) :=
  tree.files.lookup path

def follow (tree : FileTree) (directory : List String) : List String → Except SystemError Place
  | [] => .ok .directory
  -- A step up from the root would leave the tree.
  | ".." :: names =>
    if directory.isEmpty then .error .notFound else follow tree directory.dropLast names
  | name :: names =>
    if nameLimit < name.utf8ByteSize then .error .nameTooLong
    else
      let path := directory ++ [name]
      -- A file may only be the last of a path.
      if tree.isDirectory path then follow tree path names
      else
        match tree.content? path, names with
        | some content, [] => .ok (.file path content)
        | some _, _ => .error .notDirectory
        | none, [] => .ok (.vacant path)
        | none, _ => .error .notFound

/-- The names of a path; a dot and a doubled slash mean nothing. -/
def namesOf (path : String) : List String :=
  (path.splitOn "/").filter fun name => name ≠ "" ∧ name ≠ "."

/-- Whether a path can only be one of a directory. -/
def wantsDirectory (path : String) : Bool :=
  path.endsWith "/" || path.endsWith "/."

/-- What a path leads to. Nothing is known outside of the tree. -/
def find (tree : FileTree) (path : String) : Except SystemError Place :=
  if path.startsWith "/" then .error .notFound else tree.follow [] (namesOf path)

/-- What comes of reading a file, if it can be opened. A directory can be opened, but not read. -/
def read (tree : FileTree) (path : String) : Except SystemError (List Feed.Read) :=
  match tree.find path with
  | .error error => .error error
  | .ok .directory => .ok [.failed SystemError.isDirectory.message]
  | .ok (.vacant _) => .error .notFound
  | .ok (.file _ content) =>
    if wantsDirectory path then .error .notDirectory else .ok [.bytes content]

/-- Puts a file in, or appends to the one that is there. -/
def extend (tree : FileTree) (path : List String) (added : List UInt8) : FileTree :=
  { tree with files := putByKey (·.1) (path, (tree.content? path).getD [] ++ added) tree.files }

/-- Appends to a file, making it if there is none. -/
def append (tree : FileTree) (path : String) (added : List UInt8) : Except SystemError FileTree :=
  match tree.find path with
  | .error error => .error error
  | .ok .directory => .error .isDirectory
  | .ok (.vacant names) =>
    if wantsDirectory path then .error .isDirectory else .ok (tree.extend names added)
  | .ok (.file names _) =>
    if wantsDirectory path then .error .notDirectory else .ok (tree.extend names added)

end FileTree

/-- All that a run finds around itself. -/
structure Surroundings where
  tree : FileTree
  environment : Catalog String
  input : List UInt8

namespace Surroundings

/-- The name of the file of variables. -/
def variableFile : String := ".env"

def host : Host (StateM Surroundings) where
  lookup name := do
    let surroundings ← get
    pure (surroundings.environment.get? name)
  variableFile := do
    let surroundings ← get
    -- The run takes place in the root, which has no directory above it.
    pure (surroundings.tree.content? [variableFile])
  standardInput := do
    let surroundings ← get
    pure [.bytes surroundings.input]
  readFile path := do
    let surroundings ← get
    pure (surroundings.tree.read path)
  openOutput path := do
    let surroundings ← get
    -- Opening a file to append to makes it, and adds nothing.
    match surroundings.tree.append path [] with
    | .error error => pure (.error error)
    | .ok tree =>
      set { surroundings with tree }
      pure (.ok ())
  append path text := do
    let surroundings ← get
    match surroundings.tree.append path (Text.Utf8.encode text) with
    | .error _ => pure ()
    | .ok tree => set { surroundings with tree }
  connect _ := pure (.error .networkUnreachable)

/-- Runs the program with a command line. -/
def run (surroundings : Surroundings) (line : List String) : Exit × Surroundings :=
  (Host.run host line).run surroundings

end Surroundings

end Lineage.CommandLine
