import Hotswap.Source

/-!
# Trees of files

A file tree holds files and directories in memory. Paths are followed name by name as a system
follows them: each step needs a directory to start from, a dot stays there and two dots go up. What
is outside the tree holds directories without anything in them.
-/

namespace Hotswap

/-- Files and directories in memory, by the names on the way to them. -/
structure FileTree where
  /-- The contents of the files. -/
  files : Table (List String) ByteArray := ∅
  /-- The directories, the root apart. -/
  directories : List (List String) := []

namespace FileTree

/-- Where a path has led. -/
inductive Place where
  /-- Inside the tree, with the names on the way. -/
  | inside (names : List String)
  /-- Outside the tree. -/
  | outside
  deriving DecidableEq

/-- Whether there is a directory at a place. -/
def isDirectory (t : FileTree) : Place → Bool
  | .inside names => names.isEmpty || t.directories.contains names
  | .outside => true

/-- The fault of a step from a place that is not a directory. -/
def stepFault (t : FileTree) : Place → FileFault
  | .inside names => if t.files.contains names then .notADirectory else .missing
  | .outside => .missing

/-- The most bytes that a name can have. -/
def longestName : Nat := 255

/-- The number of bytes that a path does not reach. -/
def pathLimit : Nat := 4096

/-- One step from a directory. -/
def step : Place → String → Except FileFault Place
  | place, "" | place, "." => .ok place
  | .inside [], ".." | .outside, ".." => .ok .outside
  | .inside names, ".." => .ok (.inside names.dropLast)
  | place, name =>
    if name.utf8ByteSize > longestName then .error .nameTooLong
    else match place with
      | .inside names => .ok (.inside (names ++ [name]))
      | .outside => .error .missing

/-- Follows the pieces of a path. -/
def follow (t : FileTree) : Place → List String → Except FileFault Place
  | place, [] => .ok place
  | place, piece :: rest =>
    if t.isDirectory place then do
      let place ← step place piece
      t.follow place rest
    else .error (t.stepFault place)

/-- The place that a path leads to. -/
def locate (t : FileTree) (path : String) : Except FileFault Place :=
  if path.toList.contains '\x00' then .error .zeroCharacter
  else if path.isEmpty then .error .missing
  else if path.utf8ByteSize ≥ pathLimit then .error .nameTooLong
  else t.follow (if path.toList.head? = some '/' then .outside else .inside []) (Path.pieces path)

/-- Reads the file at a path. -/
def read (t : FileTree) (path : String) : Except FileFault ByteArray := do
  match ← t.locate path with
  | .outside => .error .isDirectory
  | .inside names =>
    if t.isDirectory (.inside names) then .error .isDirectory
    else match t.files.get? names with
      | some bytes => .ok bytes
      | none => .error .missing

/-- Writes the file at a path. -/
def write (t : FileTree) (path : String) (bytes : ByteArray) : Except FileFault FileTree := do
  match ← t.locate path with
  | .outside => .error .isDirectory
  | .inside names =>
    if t.isDirectory (.inside names) then .error .isDirectory
    else .ok { t with files := t.files.insert names bytes }

/-- Makes the directories on the way to a file. -/
def makeParents (t : FileTree) (path : String) : FileTree :=
  let names := (Path.pieces path).filter fun piece => piece != "" && piece != "."
  let parents := (List.range (names.length - 1)).map fun n => names.take (n + 1)
  { t with directories := (parents ++ t.directories).eraseDups }

/-- Reading and writing the files of a tree. -/
def access : FileAccess (StateM FileTree) where
  read path := return (← get).read path
  write path bytes := do
    match (← get).write path bytes with
    | .ok t => do
      set t
      return .ok ()
    | .error fault => return .error fault

end FileTree

end Hotswap
