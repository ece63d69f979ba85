import RowStore.Step
import RowStore.Disk.Contents
import RowStore.Disk.Path

/-!
A disk: a tree of directories and files. A file is known by a number of its own, so that whoever
has opened it keeps it when its entry is removed or replaced. A disk may refuse to write bytes, and
then writes none of them; it still creates, opens, truncates, moves and removes files.
-/

namespace RowStore

/-- Where an entry stands: the names that lead to it from the root. -/
abbrev Location := List String

/-- An entry of a directory. -/
inductive Node where
  | directory
  | file (number : Nat)
  deriving DecidableEq, Repr

/-- Why the disk does not do what it is asked. -/
inductive DiskFault where
  | missing
  | isDirectory
  | notDirectory
  | badName
  | badPath
  | writesRefused
  | shortRead
  deriving DecidableEq, Repr

/-- The entries below the root and the contents of each file by its number. Writes are numbered as
well, and those that `refuses` names fail. -/
structure Disk where
  nodes : Std.TreeMap Location Node
  files : Array Contents
  refuses : Nat → Bool
  writes : Nat

namespace Disk

/-- A disk without entries that takes all writes. -/
def empty : Disk := ⟨{}, #[], fun _ => false, 0⟩

/-- A disk of which all writes fail from now on, or none. -/
def withRefusal (disk : Disk) (refused : Bool) : Disk := { disk with refuses := fun _ => refused }

/-- The entry at a location. The root is always there. -/
def node? (disk : Disk) (location : Location) : Option Node :=
  if location.isEmpty then some .directory else disk.nodes[location]?

/-- The contents of a file. -/
def contents (disk : Disk) (file : Nat) : Contents := disk.files.getD file .empty

/-- The location that a name leads to. The root is above itself. -/
def next (location : Location) (name : String) : Location :=
  if name == ".." then location.dropLast else location ++ [name]

/-- The entry that a name leads to. -/
def child (disk : Disk) (location : Location) (name : String) : Except DiskFault Node :=
  match disk.node? (next location name) with
  | some node => .ok node
  | none => .error (if Path.isEntryName name then .missing else .badName)

/-- The directory that names lead to from a directory. -/
def directoryAt (disk : Disk) (location : Location) : List String → Except DiskFault Location
  | [] => .ok location
  | name :: rest => do
    match ← disk.child location name with
    | .directory => disk.directoryAt (next location name) rest
    | .file _ => throw .notDirectory

/-- A path that leads somewhere. -/
def checkPath (path : String) : Except DiskFault Unit :=
  if Path.isUsable path then .ok () else .error .badPath

/-- The entry at a path, and where it stands. -/
def find (disk : Disk) (path : String) : Except DiskFault (Location × Node) := do
  checkPath path
  let names := Path.names path
  let parent ← disk.directoryAt [] names.dropLast
  match names.getLast? with
  | none => return (parent, .directory)
  | some name =>
    match ← disk.child parent name with
    | .file number =>
      if Path.endsInDirectory path then throw .notDirectory
      return (next parent name, .file number)
    | .directory => return (next parent name, .directory)

/-- The entry at a path. -/
def nodeAt (disk : Disk) (path : String) : Except DiskFault Node := do
  return (← disk.find path).2

/-- Whether there is an entry at a path. -/
def hasEntry (disk : Disk) (path : String) : Bool := (disk.find path).isOk

/-- The number of the file at a path. -/
def fileAt (disk : Disk) (path : String) : Except DiskFault Nat := do
  match ← disk.nodeAt path with
  | .file number => return number
  | .directory => throw .isDirectory

/-- Puts an entry at a location. -/
def setNode (disk : Disk) (location : Location) (node : Node) : Disk :=
  { disk with nodes := disk.nodes.insert location node }

/-- Removes the entry at a location. -/
def eraseNode (disk : Disk) (location : Location) : Disk :=
  { disk with nodes := disk.nodes.erase location }

/-- Whether a location lies below another one. -/
def isBelow (location other : Location) : Bool :=
  other.length < location.length && other.isPrefixOf location

/-- Removes all that lies below a location. -/
def eraseBelow (disk : Disk) (location : Location) : Disk :=
  { disk with nodes := disk.nodes.filter fun other _ => !isBelow other location }

/-- Tries to write a number of bytes: whether they are refused, and the disk after the attempt. Nothing
is refused where there is nothing to write. -/
def attempt (disk : Disk) (count : Nat) : Bool × Disk :=
  if count = 0 then (false, disk)
  else (disk.refuses disk.writes, { disk with writes := disk.writes + 1 })

/-- Changes the contents of a file. -/
def modifyContents (disk : Disk) (file : Nat) (change : Contents → Contents) : Disk :=
  { disk with files := disk.files.modify file change }

/-- A new file with the given contents at a location, and its number. -/
def addFile (disk : Disk) (location : Location) (contents : Contents) : Nat × Disk :=
  (disk.files.size,
    { disk with
      nodes := disk.nodes.insert location (.file disk.files.size)
      files := disk.files.push contents })

end Disk

end RowStore
