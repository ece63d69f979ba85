import RowStore.Number.Numeral

/-!
JSON texts. A string is kept as it is written, and spelled out only where its text is needed: what
an escape stands for matters to nobody who passes the string over.
-/

namespace RowStore

/-- A JSON value. Numbers are checked but not kept. -/
inductive Json where
  | null
  | bool (truth : Bool)
  | number
  | string (written : List Char)
  | array (elements : List Json)
  | object (members : List (List Char × Json))

namespace Json

def isSpace (c : Char) : Bool := c == ' ' || c == '\n' || c == '\t' || c == '\r'

def skipSpace (chars : List Char) : List Char := chars.dropWhile isSpace

/-- The value of a hexadecimal digit. -/
def hexDigit? (c : Char) : Option Nat :=
  if c.isDigit then some (c.toNat - '0'.toNat)
  else if 'a' ≤ c ∧ c ≤ 'f' then some (c.toNat - 'a'.toNat + 10)
  else if 'A' ≤ c ∧ c ≤ 'F' then some (c.toNat - 'A'.toNat + 10)
  else none

/-- The number of four hexadecimal digits. -/
def hexUnit? (a b c d : Char) : Option Nat := do
  return (((← hexDigit? a) * 16 + (← hexDigit? b)) * 16 + (← hexDigit? c)) * 16 + (← hexDigit? d)

/-- What an escape of one letter stands for. -/
def escaped? : Char → Option Char
  | '\x22' => some '\x22'
  | '\\' => some '\\'
  | '/' => some '/'
  | 'b' => some '\x08'
  | 'f' => some '\x0c'
  | 'n' => some '\n'
  | 'r' => some '\r'
  | 't' => some '\t'
  | _ => none

/-- The written characters of a string up to its closing quote, and what follows it. -/
def readString : List Char → Option (List Char × List Char)
  | [] => none
  | '\x22' :: rest => some ([], rest)
  | '\\' :: 'u' :: a :: b :: c :: d :: rest => do
    let _ ← hexUnit? a b c d
    let (written, rest) ← readString rest
    return ('\\' :: 'u' :: a :: b :: c :: d :: written, rest)
  | '\\' :: letter :: rest => do
    let _ ← escaped? letter
    let (written, rest) ← readString rest
    return ('\\' :: letter :: written, rest)
  | char :: rest =>
    if char.toNat < 0x20 || char == '\\' then none
    else (readString rest).map fun (written, rest) => (char :: written, rest)

/-- The text that the characters of a string spell. An escape above the first 65536 characters is
written as a pair of halves, and no half stands alone. -/
def spell : List Char → Option (List Char)
  | [] => some []
  | '\\' :: 'u' :: a :: b :: c :: d :: '\\' :: 'u' :: e :: f :: g :: h :: rest => do
    let first ← hexUnit? a b c d
    let second ← hexUnit? e f g h
    if 0xD800 ≤ first && first < 0xDC00 then
      if 0xDC00 ≤ second && second < 0xE000 then
        return Char.ofNat (0x10000 + (first - 0xD800) * 0x400 + (second - 0xDC00)) :: (← spell rest)
      else none
    else if 0xDC00 ≤ first && first < 0xE000 then none
    else return Char.ofNat first :: (← spell ('\\' :: 'u' :: e :: f :: g :: h :: rest))
  | '\\' :: 'u' :: a :: b :: c :: d :: rest => do
    let unit ← hexUnit? a b c d
    if 0xD800 ≤ unit && unit < 0xE000 then none else return Char.ofNat unit :: (← spell rest)
  | '\\' :: letter :: rest => do return (← escaped? letter) :: (← spell rest)
  | char :: rest => do return char :: (← spell rest)

/-- What follows the digits of a number's whole part: one zero, or digits that start with none. -/
def skipWhole? (chars : List Char) : Option (List Char) :=
  match chars with
  | '0' :: rest => if (rest.head?.map Char.isDigit).getD false then none else some rest
  | first :: rest => if first.isDigit then some (rest.dropWhile Char.isDigit) else none
  | [] => none

/-- What follows one or more digits. -/
def skipDigits? : List Char → Option (List Char)
  | first :: rest => if first.isDigit then some (rest.dropWhile Char.isDigit) else none
  | [] => none

/-- What follows a number. -/
def skipNumber? (chars : List Char) : Option (List Char) := do
  let rest ← skipWhole? (match chars with | '-' :: rest => rest | _ => chars)
  let rest ← match rest with | '.' :: digits => skipDigits? digits | _ => some rest
  match rest with
  | mark :: digits =>
    if mark == 'e' || mark == 'E' then skipDigits? (Number.takeSign digits).2 else return rest
  | [] => return rest

/-- What follows a word. -/
def skipWord? (word : String) (chars : List Char) : Option (List Char) :=
  if word.toList.isPrefixOf chars then some (chars.drop word.length) else none

mutual

/-- Reads a value and what follows it, with at most `depth` levels and members in all. -/
def readValue : (depth : Nat) → List Char → Option (Json × List Char)
  | 0, _ => none
  | depth + 1, chars =>
    match skipSpace chars with
    | '\x22' :: rest => (readString rest).map fun (written, rest) => (string written, rest)
    | '[' :: rest =>
      match skipSpace rest with
      | ']' :: rest => some (array [], rest)
      | _ => (readElements depth rest).map fun (elements, rest) => (array elements, rest)
    | '{' :: rest =>
      match skipSpace rest with
      | '}' :: rest => some (object [], rest)
      | _ => (readMembers depth rest).map fun (members, rest) => (object members, rest)
    | 'n' :: rest => (skipWord? "ull" rest).map (null, ·)
    | 't' :: rest => (skipWord? "rue" rest).map (bool true, ·)
    | 'f' :: rest => (skipWord? "alse" rest).map (bool false, ·)
    | chars => (skipNumber? chars).map (number, ·)

/-- Reads the elements of an array up to its end. -/
def readElements : (depth : Nat) → List Char → Option (List Json × List Char)
  | 0, _ => none
  | depth + 1, chars => do
    let (element, rest) ← readValue depth chars
    match skipSpace rest with
    | ',' :: rest => (readElements depth rest).map fun (elements, rest) => (element :: elements, rest)
    | ']' :: rest => return ([element], rest)
    | _ => none

/-- Reads the members of an object up to its end. -/
def readMembers : (depth : Nat) → List Char → Option (List (List Char × Json) × List Char)
  | 0, _ => none
  | depth + 1, chars =>
    match skipSpace chars with
    | '\x22' :: rest => do
      let (key, rest) ← readString rest
      match skipSpace rest with
      | ':' :: rest => do
        let (value, rest) ← readValue depth rest
        match skipSpace rest with
        | ',' :: rest =>
          (readMembers depth rest).map fun (members, rest) => ((key, value) :: members, rest)
        | '}' :: rest => return ([(key, value)], rest)
        | _ => none
      | _ => none
    | _ => none

end

/-- The value that a whole text writes. Every level and member takes a character at least, so the
length of the text bounds them. -/
def parse? (text : String) : Option Json :=
  match readValue (text.length + 1) text.toList with
  | some (value, rest) => if (skipSpace rest).isEmpty then some value else none
  | none => none

/-- A character as it stands in a string. -/
def quoteChar (c : Char) : List Char :=
  if c == '\x22' then ['\\', '\x22']
  else if c == '\\' then ['\\', '\\']
  else if c == '\x08' then ['\\', 'b']
  else if c == '\x0c' then ['\\', 'f']
  else if c == '\n' then ['\\', 'n']
  else if c == '\r' then ['\\', 'r']
  else if c == '\t' then ['\\', 't']
  else if c.toNat < 0x20 then
    ['\\', 'u', '0', '0', Nat.digitChar (c.toNat / 16), Nat.digitChar (c.toNat % 16)]
  else [c]

/-- A text as a string. -/
def quote (text : String) : String :=
  String.ofList ('\x22' :: text.toList.flatMap quoteChar ++ ['\x22'])

end Json

end RowStore
