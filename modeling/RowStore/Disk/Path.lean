import RowStore.Text.Blank

/-!
Paths as they are written: names separated by slashes. Empty names and single dots lead nowhere,
and two dots lead back to the directory above. A path that is too long or holds a NUL character
leads nowhere at all, whatever its names are.
-/

namespace RowStore.Path

/-- The stretches of a path between its slashes. -/
def segments (path : String) : List String :=
  (Text.pieces (· == '/') path.toList).map String.ofList

/-- The names on a path, `..` among them. -/
def names (path : String) : List String :=
  (segments path).filter fun name => name != "" && name != "."

/-- What a path ends in, slashes aside. -/
def lastSegment? (path : String) : Option String := ((segments path).filter (· != "")).getLast?

/-- Whether the end of a path can only be a directory. -/
def endsInDirectory (path : String) : Bool :=
  match (segments path).getLast? with
  | some name => name == "" || name == "." || name == ".."
  | none => true

/-- A path taken from a directory. A path that starts with a slash is taken as it is. -/
def join (directory path : String) : String :=
  if path.startsWith "/" then path
  else if directory.isEmpty || directory.endsWith "/" then directory ++ path
  else directory ++ "/" ++ path

/-- The characters of a path, the last one first, from its last name on: the slashes and single dots
behind that name are left out. -/
def fromLastName : List Char → List Char
  | '/' :: rest => fromLastName rest
  | '.' :: '/' :: rest => fromLastName rest
  | chars => chars

/-- A path without the slashes and single dots behind its last name. -/
def trimmed (path : String) : String := String.ofList (fromLastName path.toList.reverse).reverse

/-- The part of a path that comes before its last name, trimmed as well. -/
def parent (path : String) : String :=
  String.ofList
    (fromLastName ((fromLastName path.toList.reverse).dropWhile (· != '/'))).reverse

/-- A path as it is seen from a directory that it starts with; another one is left as it is. -/
def seenFrom (directory path : String) : String :=
  if path.startsWith (directory ++ "/") then
    trimmed (String.ofList (path.toList.drop (directory.length + 1)))
  else path

/-- The bytes that a path may take up. -/
def maxSize : Nat := 4095

/-- Whether a path leads anywhere. -/
def isUsable (path : String) : Bool := path.utf8ByteSize ≤ maxSize && !path.toList.contains '\x00'

/-- Whether a directory can have an entry of the name. -/
def isEntryName (name : String) : Bool := name.utf8ByteSize ≤ 255

end RowStore.Path
