import RowStore.Disk.Basic
import RowStore.Text.Utf8

/-!
What is done with files by their paths. A file is created together with the directories on the way
to it.
-/

namespace RowStore.Disk

/-- The directory that names lead to, each directory created where there is none. -/
def makeDirectories (location : Location) : List String → Step Disk DiskFault Location
  | [] => pure location
  | name :: rest => do
    let disk ← get
    match disk.child location name with
    | .ok .directory => makeDirectories (next location name) rest
    | .ok (.file _) => throw .notDirectory
    | .error .missing => do
      set (disk.setNode (next location name) .directory)
      makeDirectories (next location name) rest
    | .error fault => throw fault

/-- Makes the directories before the last name of a path, and says where they lead. -/
def makeParent (path : String) : Step Disk DiskFault Location := do
  Step.ofExcept (checkPath (Path.parent path))
  makeDirectories [] (Path.names path).dropLast

/-- The entry that the end of a path names in a directory, and where it stands or could stand. There
is none yet if the name is free. A path that can only end in a directory names no file. -/
def target (disk : Disk) (parent : Location) (path : String) :
    Except DiskFault (Location × Option Node) := do
  checkPath path
  match (Path.names path).getLast? with
  | none => throw .isDirectory
  | some name =>
    if Path.endsInDirectory path then throw .isDirectory
    match disk.child parent name with
    | .ok node => return (next parent name, some node)
    | .error .missing => return (next parent name, none)
    | .error fault => throw fault

/-- Opens the file at a path, or creates it, and answers its number. A truncated file loses its
bytes. -/
def openFile (path : String) (truncate : Bool) : Step Disk DiskFault Nat := do
  let parent ← makeParent path
  let disk ← get
  match ← Step.ofExcept (disk.target parent path) with
  | (_, some .directory) => throw .isDirectory
  | (_, some (.file number)) =>
    if truncate then set (disk.modifyContents number fun _ => .empty)
    return number
  | (location, none) =>
    let (number, disk) := disk.addFile location .empty
    set disk
    return number

/-- Tries to write a number of bytes into an open file, and changes the file if they are taken. -/
def attemptWrite (file count : Nat) (change : Contents → Contents) : Step Disk DiskFault Unit :=
  ExceptT.mk fun disk =>
    match disk.attempt count with
    | (true, disk) => (.error .writesRefused, disk)
    | (false, disk) => (.ok (), disk.modifyContents file change)

/-- Writes bytes into an open file. -/
def writeBytes (file start : Nat) (bytes : List UInt8) : Step Disk DiskFault Unit :=
  attemptWrite file bytes.length (·.write start bytes)

/-- Writes a block of an open file. -/
def writeBlock (file number : Nat) (block : Block) : Step Disk DiskFault Unit :=
  attemptWrite file blockSize (·.writeBlock number block)

/-- The bytes of the file at a path. -/
def readFile (disk : Disk) (path : String) : Except DiskFault (List UInt8) := do
  return (disk.contents (← disk.fileAt path)).toBytes

/-- The text of the file at a path, if it is one. -/
def readText? (disk : Disk) (path : String) : Option String :=
  match disk.readFile path with
  | .ok bytes => Text.Utf8.decode? bytes
  | .error _ => none

/-- Gives the file at a path new contents. -/
def writeFile (path : String) (bytes : List UInt8) : Step Disk DiskFault Unit := do
  let file ← openFile path true
  writeBytes file 0 bytes

/-- A name like those of the files that bytes are first written to. -/
def temporaryName : String := ".tmp000000"

/-- Puts a new file in the place of the one at a path. Its bytes are written to a file beside that
one before it takes the place, so where they are refused the old file stays. -/
def replaceFile (path : String) (bytes : List UInt8) : Step Disk DiskFault Unit := do
  let parent ← makeParent path
  Step.ofExcept (checkPath (Path.join (Path.parent path) temporaryName))
  let (refused, disk) := (← get).attempt bytes.length
  set disk
  if refused then throw .writesRefused
  match ← Step.ofExcept (disk.target parent path) with
  | (_, some .directory) => throw .isDirectory
  | (location, _) => set (disk.addFile location (.ofBytes bytes)).2

/-- Removes the file at a path. -/
def removeFile (path : String) : Step Disk DiskFault Unit := do
  let disk ← get
  match ← Step.ofExcept (disk.find path) with
  | (_, .directory) => throw .isDirectory
  | (location, .file _) => set (disk.eraseNode location)

/-- Removes the file at a path, or the directory with all it holds. A directory is emptied first; it
stays if the path then ends in dots. -/
def remove (path : String) : Step Disk DiskFault Unit := do
  let disk ← get
  match ← Step.ofExcept (disk.find path) with
  | (location, .file _) => set (disk.eraseNode location)
  | (location, .directory) =>
    let emptied := disk.eraseBelow location
    set emptied
    if emptied.hasEntry path then
      match Path.lastSegment? path with
      | none | some "." | some ".." => throw .badName
      | some _ => set (emptied.eraseNode location)

/-- Writes bytes over those of the file at a path. -/
def patchFile (path : String) (start : Nat) (bytes : List UInt8) : Step Disk DiskFault Unit := do
  let file ← Step.ofExcept ((← get).fileAt path)
  writeBytes file start bytes

/-- Cuts the file at a path, or extends it with zeros. -/
def resizeFile (path : String) (size : Nat) : Step Disk DiskFault Unit := do
  let disk ← get
  let file ← Step.ofExcept (disk.fileAt path)
  attemptWrite file (size - (disk.contents file).size) (·.resize size)

/-- Makes a directory, and those on the way to it. A dot at the end of the path asks for a directory
that is there. -/
def makeDirectory (path : String) : Step Disk DiskFault Unit := do
  Step.ofExcept (checkPath path)
  if Path.lastSegment? path == some "." then
    let _ ← makeDirectories [] (Path.names path).dropLast
    match ← Step.ofExcept ((← get).nodeAt path) with
    | .directory => return
    | .file _ => throw .notDirectory
  else
    let _ ← makeDirectories [] (Path.names path)

/-- An entry as it is listed: a file with its size, a directory with a slash behind its name. -/
def listed (disk : Disk) (location : Location) : Node → String × Nat
  | .directory => ("/".intercalate location ++ "/", 0)
  | .file number => ("/".intercalate location, (disk.contents number).size)

/-- All entries below a location by their paths from there, in the order of the characters of those
paths, which is that of their bytes. -/
def entriesBelow (disk : Disk) (location : Location) : List (String × Nat) :=
  let below := disk.nodes.toList.filter fun (other, _) => isBelow other location
  (below.map fun (other, node) => disk.listed (other.drop location.length) node).mergeSort
    fun left right => (compare left.1 right.1).isLE

/-- All entries below the directory at a path. -/
def entries (disk : Disk) (path : String) : List (String × Nat) :=
  match disk.find path with
  | .ok (location, .directory) => disk.entriesBelow location
  | _ => []

end RowStore.Disk
