import RowStore.Text.Shown

/-!
Texts in double quotes. The quote and the backslash stand behind a backslash, and a character that
cannot be shown is written by its letter or by its code point.
-/

namespace RowStore.Text

/-- A code point in hexadecimal digits. -/
def hex (code : Nat) : List Char := Nat.toDigits 16 code

/-- A character as it stands between quotes. -/
def quoteChar (c : Char) : List Char :=
  if c == '\x00' then ['\\', '0']
  else if c == '\t' then ['\\', 't']
  else if c == '\r' then ['\\', 'r']
  else if c == '\n' then ['\\', 'n']
  else if c == '\x22' then ['\\', '\x22']
  else if c == '\\' then ['\\', '\\']
  else if isShown c then [c]
  else ['\\', 'u', '{'] ++ hex c.toNat ++ ['}']

/-- A text in double quotes. -/
def quote (text : String) : String :=
  String.ofList ('\x22' :: text.toList.flatMap quoteChar ++ ['\x22'])

end RowStore.Text
