import RowStore.Disk.Files
import RowStore.Json.Basic

/-!
Where a database keeps its files. Settings are written as a JSON object, or as an array of up to
three elements in the order of the fields; what is not given has its default.
-/

namespace RowStore

/-- The data directory, if there is one, the name of the catalog file in it and the extension of
the table files. -/
structure Settings where
  dataDirectory : Option String
  catalogFile : String
  dataFileExtension : String
  deriving DecidableEq, Repr

/-- Why settings cannot be read. -/
inductive SettingsError where
  | disk (fault : DiskFault)
  | notText
  | malformed
  deriving DecidableEq, Repr

namespace Settings

def default : Settings := ⟨some "./data", "catalog.meta", "dat"⟩

/-- The default names under a directory. -/
def inDirectory (directory : String) : Settings := { default with dataDirectory := some directory }

/-- The settings of a database without files. -/
def inMemory : Settings := { default with dataDirectory := none }

/-- The path of the catalog file. -/
def catalogPath? (settings : Settings) : Option String :=
  settings.dataDirectory.map (Path.join · settings.catalogFile)

/-- A string. -/
def readText? : Json → Option String
  | .string written => (Json.spell written).map String.ofList
  | _ => none

/-- A string or nothing. -/
def readDirectory? : Json → Option (Option String)
  | .null => some none
  | json => (readText? json).map some

/-- The fields in order, by name, each with what it reads. -/
def fieldNames : List String := ["data_dir", "catalog_file", "data_file_extension"]

/-- The settings with the field at a position read from a value. -/
def readField? (settings : Settings) (field : Nat) (value : Json) : Option Settings :=
  match field with
  | 0 => (readDirectory? value).map fun directory => { settings with dataDirectory := directory }
  | 1 => (readText? value).map fun file => { settings with catalogFile := file }
  | 2 => (readText? value).map fun extension => { settings with dataFileExtension := extension }
  | _ => none

/-- Reads the elements of an array into the fields from a position on. -/
def readElements? (settings : Settings) (field : Nat) : List Json → Option Settings
  | [] => some settings
  | value :: rest => do readElements? (← settings.readField? field value) (field + 1) rest

/-- Reads the members of an object. A field is given once at most, and members of other names are
passed over. -/
def readMembers? (settings : Settings) (given : List Nat) :
    List (List Char × Json) → Option Settings
  | [] => some settings
  | (key, value) :: rest => do
    let name := String.ofList (← Json.spell key)
    match fieldNames.idxOf? name with
    | none => readMembers? settings given rest
    | some field =>
      if given.contains field then none
      else readMembers? (← settings.readField? field value) (field :: given) rest

/-- The settings that a JSON text writes. -/
def parse? (text : String) : Option Settings := do
  match ← Json.parse? text with
  | .array elements => readElements? default 0 elements
  | .object members => readMembers? default [] members
  | _ => none

/-- The settings that a JSON text writes, which must write some. -/
def read (text : String) : Except SettingsError Settings :=
  match parse? text with
  | some settings => .ok settings
  | none => .error .malformed

/-- The settings in the file at a path. -/
def load (disk : Disk) (path : String) : Except SettingsError Settings := do
  let bytes ← (disk.readFile path).mapError .disk
  match Text.Utf8.decode? bytes with
  | some text => read text
  | none => throw .notText

/-- The settings as a JSON object. -/
def render (settings : Settings) : String :=
  let directory :=
    match settings.dataDirectory with
    | some directory => Json.quote directory
    | none => "null"
  let values := [directory, Json.quote settings.catalogFile, Json.quote settings.dataFileExtension]
  "\x7b" ++ ",".intercalate ((fieldNames.map Json.quote).zipWith (· ++ ":" ++ ·) values) ++ "\x7d"

end Settings

end RowStore
