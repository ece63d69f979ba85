/-!
Names of tables and columns. Two names are the same when they agree up to the case of the letters
`a` to `z`; every other character is compared as it stands. A dot inside a name separates what
qualifies it from the name itself.
-/

namespace RowStore.Text

/-- A name with the letters `a` to `z` in upper case: the form under which names are compared. -/
def fold (name : String) : String := name.map Char.toUpper

/-- Whether two names differ at most in the case of their letters. -/
def sameName (left right : String) : Bool := fold left == fold right

/-- The text before and after the first dot. -/
def splitAtDot (name : String) : Option (String × String) :=
  match name.toList.span (· != '.') with
  | (_, []) => none
  | (before, _ :: after) => some (String.ofList before, String.ofList after)

/-- A name under a qualifier, `qualifier.name`. -/
def qualify (qualifier name : String) : String := qualifier ++ "." ++ name

/-- Whether `full` ends in a dot and then `name`, up to the case of letters. -/
def endsInName (full name : String) : Bool :=
  ('.' :: (fold name).toList).isSuffixOf (fold full).toList

end RowStore.Text
