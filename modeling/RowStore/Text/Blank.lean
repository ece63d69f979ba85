/-!
Blank characters, and texts cut at them. Blank are the characters that Unicode lists as white
space, the no-break spaces among them.
-/

namespace RowStore.Text

/-- The white space of Unicode. -/
def isBlank (c : Char) : Bool :=
  let code := c.toNat
  (9 ≤ code && code ≤ 13) || code == 0x20 || code == 0x85 || code == 0xA0 || code == 0x1680
    || (0x2000 ≤ code && code ≤ 0x200A) || code == 0x2028 || code == 0x2029 || code == 0x202F
    || code == 0x205F || code == 0x3000

/-- The stretches between the characters at which a text breaks, empty ones included. -/
def pieces (breaks : Char → Bool) : List Char → List (List Char)
  | [] => [[]]
  | c :: rest =>
    if breaks c then [] :: pieces breaks rest else (pieces breaks rest).modifyHead (c :: ·)

/-- A text without the blanks at its two ends. -/
def trim (chars : List Char) : List Char :=
  ((chars.dropWhile isBlank).reverse.dropWhile isBlank).reverse

/-- The words of a text: its stretches without blanks. -/
def words (chars : List Char) : List (List Char) := (pieces isBlank chars).filter (!·.isEmpty)

/-- The lines of a text. A line feed ends a line, so nothing follows a last one. -/
def lines (chars : List Char) : List (List Char) :=
  let all := pieces (· == '\n') chars
  if all.getLast? == some [] then all.dropLast else all

end RowStore.Text
