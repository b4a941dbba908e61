import TwoPass.Command.FileAccess

/-! # File trees

A tree of directories and files in memory. Names are followed the usual way: from
the root or the working directory, through directories that exist. -/

namespace TwoPass

abbrev Path := List (List UInt8)

inductive Entry where
  | directory
  | file (content : List UInt8)
  deriving DecidableEq, Repr

structure FileTree where
  entries : List (Path × Entry) := []
  workingDirectory : Path := []

namespace FileTree

/-- What is at a path. The root is always there. -/
def entry? (tree : FileTree) : Path → Option Entry
  | [] => some .directory
  | path => tree.entries.lookup path

def insert (tree : FileTree) (path : Path) (entry : Entry) : FileTree :=
  if tree.entries.any (·.1 == path) then
    { tree with
      entries := tree.entries.map fun old => if old.1 == path then (path, entry) else old }
  else
    { tree with entries := tree.entries ++ [(path, entry)] }

/-- Make a directory and all those above it. -/
def makeDirectory (tree : FileTree) (path : Path) : FileTree :=
  (List.range path.length).foldl (fun tree count => tree.insert (path.take (count + 1)) .directory)
    tree

def currentName : List UInt8 := [0x2E]

def parentName : List UInt8 := [0x2E, 0x2E]

def walk (tree : FileTree) (directory : Path) : List (List UInt8) → Except FileError Path
  | [] => .ok directory
  | component :: rest =>
    if component.isEmpty ∨ component = currentName then
      tree.walk directory rest
    else if component = parentName then
      tree.walk directory.dropLast rest
    else
      match tree.entry? (directory ++ [component]) with
      | some .directory => tree.walk (directory ++ [component]) rest
      | some (.file _) => .error .notDirectory
      | none => .error .notFound

inductive Place where
  /-- A directory, by the form of the name. -/
  | directory
  /-- A path that may or may not hold an entry, named with slashes at the end or
  without. -/
  | path (path : Path) (slashes : Bool)

/-- Follow a file name up to its last component. -/
def locate (tree : FileTree) (name : FileName) : Except FileError Place := do
  let components := name.components
  let start := if components.head? = some [] then [] else tree.workingDirectory
  let named := (components.reverse.dropWhile (·.isEmpty)).reverse
  match named.getLast? with
  | none => return .directory
  | some last =>
    let directory ← tree.walk start named.dropLast
    if last = currentName ∨ last = parentName then
      return .directory
    else
      return .path (directory ++ [last]) (named.length < components.length)

def read (tree : FileTree) (name : FileName) : Except FileError (List UInt8) := do
  match ← tree.locate name with
  | .directory => .error .isDirectory
  | .path path slashes =>
    match tree.entry? path with
    | none => .error .notFound
    | some .directory => .error .isDirectory
    | some (.file content) => if slashes then .error .notDirectory else return content

/-- Replace the content of a file. A name with slashes at the end is never one for
a new file. -/
def write (tree : FileTree) (name : FileName) (content : List UInt8) :
    Except FileError FileTree := do
  match ← tree.locate name with
  | .directory => .error .isDirectory
  | .path path slashes =>
    if slashes ∨ tree.entry? path = some .directory then
      .error .isDirectory
    else
      return tree.insert path (.file content)

def access : FileAccess (StateM FileTree) where
  read name := fun tree => (tree.read name, tree)
  write name content := fun tree =>
    match tree.write name content with
    | .ok changed => (.ok (), changed)
    | .error error => (.error error, tree)

/-- The files below the working directory that are new or have another content
than in `earlier`, by their paths from there. -/
def changes (tree earlier : FileTree) : List (Path × List UInt8) :=
  tree.entries.filterMap fun (path, entry) => do
    let relative ← tree.workingDirectory.isPrefixOf? path
    match entry with
    | .directory => none
    | .file content =>
      if earlier.entry? path = some entry then none else some (relative, content)

end FileTree

end TwoPass
