import RowStore.Schema.Basic

/-!
Which column a name denotes. The first column of that very name comes first, then the column that
the name denotes under the schema's own name, and last the only column whose name ends in a dot
and the name.
-/

namespace RowStore

/-- Why a name denotes no column. -/
inductive LookupError where
  | unknown (name : String)
  | ambiguous (name : String)
  deriving DecidableEq, Repr

def LookupError.message : LookupError → String
  | unknown name => s!"unknown column: {name}"
  | ambiguous name => s!"ambiguous column reference: {name}"

namespace Schema

/-- The first column of a name. -/
def named? (schema : Schema) (name : String) : Option Nat :=
  schema.columns.findIdx? fun column => Text.sameName column.name name

/-- What follows the schema's own name in a qualified name. -/
def unqualified? (schema : Schema) (name : String) : Option String :=
  match Text.splitAtDot name with
  | some (qualifier, column) => if Text.sameName qualifier schema.table then some column else none
  | none => none

/-- The columns whose qualified names end in a name. -/
def endingIn (schema : Schema) (name : String) : List Nat :=
  (schema.columns.zipIdx.filter fun (column, _) => Text.endsInName column.name name).map (·.2)

/-- The position of the column that a name denotes. -/
def resolve (schema : Schema) (name : String) : Except LookupError Nat :=
  match schema.named? name with
  | some index => .ok index
  | none =>
    match (schema.unqualified? name).bind schema.named? with
    | some index => .ok index
    | none =>
      match schema.endingIn name with
      | [] => .error (.unknown name)
      | [index] => .ok index
      | _ => .error (.ambiguous name)

end Schema

end RowStore
