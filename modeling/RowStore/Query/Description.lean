import RowStore.Query.Tree
import RowStore.Text.Quoted

/-!
Queries spelled out node by node, as messages about a query show them.
-/

namespace RowStore.Description

/-- A node with its parts in order. -/
def call (name : String) (parts : List String) : String :=
  name ++ "(" ++ ", ".intercalate parts ++ ")"

/-- A node with its parts by name. -/
def record (name : String) (parts : List (String × String)) : String :=
  name ++ " \x7b " ++ ", ".intercalate (parts.map fun (part, value) => part ++ ": " ++ value) ++ " \x7d"

/-- A part that may be missing. -/
def optional (value : Option String) : String :=
  match value with
  | some value => call "Some" [value]
  | none => "None"

def name? (name : Option String) : String := optional (name.map Text.quote)

def truth (value : Bool) : String := if value then "true" else "false"

def operator : Operator → String
  | .eq => "Eq"
  | .ne => "Ne"
  | .lt => "Lt"
  | .le => "Lte"
  | .gt => "Gt"
  | .ge => "Gte"

def joinKind : JoinKind → String
  | .inner => "Inner"
  | .comma => "Comma"
  | .left => "Left"
  | .right => "Right"
  | .full => "Full"

def literal : Literal → String
  | .number written => call "Number" [Text.quote written]
  | .string content => call "String" [Text.quote content]
  | .boolean value => call "Boolean" [truth value]
  | .null => "Null"

mutual

def expr : Expr → String
  | .literal value => call "Literal" [literal value]
  | .column table name => record "Column" [("table", name? table), ("name", Text.quote name)]
  | .and left right => call "And" [expr left, expr right]
  | .or left right => call "Or" [expr left, expr right]
  | .not operand => call "Not" [expr operand]
  | .compare op left right =>
    record "Compare" [("op", operator op), ("left", expr left), ("right", expr right)]
  | .isNull operand negated =>
    record "IsNull" [("expr", expr operand), ("negated", truth negated)]
  | .inSelect operand query =>
    record "InSubquery" [("expr", expr operand), ("subquery", select query)]

def condition? : Option Expr → String
  | some condition => optional (some (expr condition))
  | none => optional none

def item : SelectItem → String
  | .all => "Wildcard"
  | .expr value => call "Expr" [expr value]

def items : List SelectItem → List String
  | [] => []
  | first :: rest => item first :: items rest

def select : Select → String
  | ⟨list, origin, condition⟩ =>
    record "Select" [("projection", "[" ++ ", ".intercalate (items list) ++ "]"),
      ("from", source origin), ("filter", condition? condition)]

def source : Source → String
  | .table name label => record "Table" [("name", Text.quote name), ("alias", name? label)]
  | .select query label => record "Subquery" [("query", select query), ("alias", name? label)]
  | .join kind left right condition =>
    record "Join" [("left", source left), ("right", source right), ("kind", joinKind kind),
      ("on", condition? condition)]

end

end RowStore.Description
