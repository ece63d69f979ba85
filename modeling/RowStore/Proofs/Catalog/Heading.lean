import RowStore.Catalog.Text
import RowStore.Proofs.Disk.Bytes
import RowStore.Proofs.Heap.Loading
import RowStore.Proofs.Text.Pieces
import RowStore.Proofs.Text.Utf8

/-!
The file of a catalog is no file of pages. A catalog begins with the word `TABLE`, where the head of a
first page has its number, four bytes of zero.
-/

namespace RowStore

namespace CatalogText

variable {line : List Char}

/-- A line outside of a table must open one. -/
theorem readLine_fails (tables : List Schema) (outside : after? "TABLE" line = none) (nonempty : line ≠ []) :
    ∃ fault, readLine ⟨tables, none⟩ line = .error fault := by
  rw [readLine, if_neg (by simpa using nonempty), outside]
  cases after? "COLUMN" line with
  | some rest => exact ⟨_, rfl⟩
  | none =>
    by_cases ending : line = "END".toList
    · exact ⟨.endOutsideTable, by simp only [if_pos ending]⟩
    · exact ⟨.unknownLine (String.ofList line), by simp only [if_neg ending]⟩

theorem after?_of_short (line : List Char) (short : line.length < 6) : after? "TABLE" line = none := by
  rw [after?, if_neg]
  intro prefixed
  have length_le := (List.isPrefixOf_iff_prefix.mp prefixed).length_le
  simp at length_le
  omega

theorem after?_of_nul (early : '\x00' ∈ line.take 5) : after? "TABLE" line = none := by
  rw [after?, if_neg]
  intro prefixed
  obtain ⟨rest, rfl⟩ := List.isPrefixOf_iff_prefix.mp prefixed
  simp at early

theorem readLines_fails (tables : List Schema) (before rest : List (List Char)) (number : Nat)
    (short : ∀ other ∈ before, other.length < 5) (early : '\x00' ∈ line.take 5) :
    ∃ error, readLines ⟨tables, none⟩ number (before ++ line :: rest) = .error error := by
  induction before generalizing number with
  | nil =>
    have found := Text.mem_take_trim (by decide) line 5 early
    have nonempty : Text.trim line ≠ [] := by
      intro empty
      simp [empty] at found
    obtain ⟨fault, failed⟩ := readLine_fails tables (after?_of_nul found) nonempty
    exact ⟨.invalid number fault, by simp [readLines, failed, Except.mapError, bind, Except.bind]⟩
  | cons other before ih =>
    have length_le := Text.length_trim_le other
    have few := short other List.mem_cons_self
    rw [List.cons_append, readLines]
    by_cases empty : Text.trim other = []
    · obtain ⟨error, failed⟩ := ih (number + 1) fun other among =>
        short other (List.mem_cons_of_mem _ among)
      exact ⟨error, by simp [empty, readLine, Except.mapError, bind, Except.bind, failed]⟩
    · obtain ⟨fault, failed⟩ := readLine_fails tables
        (after?_of_short (Text.trim other) (by omega)) empty
      exact ⟨.invalid number fault, by simp [failed, Except.mapError, bind, Except.bind]⟩

/-- No catalog has a NUL character among its first five. -/
theorem parse_fails {text : String} (early : '\x00' ∈ text.toList.take 5) :
    ∃ error, parse text = .error error := by
  obtain ⟨before, line, rest, split, short, found⟩ := Text.exists_line (by decide) text.toList 5 early
  obtain ⟨error, failed⟩ := readLines_fails [] before rest 1 short found
  exact ⟨error, by simp [parse, split, failed, bind, Except.bind]⟩

end CatalogText

theorem Bytes.toNat_eq_zero (bytes : List UInt8) (zero : toNat bytes = 0) : ∀ byte ∈ bytes, byte = 0 := by
  induction bytes using List.reverseRecOn with
  | nil => simp
  | append_singleton bytes byte ih =>
    rw [toNat_concat] at zero
    have last : byte = 0 := UInt8.toNat_inj.mp (by rw [UInt8.toNat_zero]; omega)
    intro other member
    rcases List.mem_append.mp member with member | member
    · exact ih (by omega) other member
    · rw [List.mem_singleton.mp member, last]

/-- A file that is read as a catalog has no first page. -/
theorem Contents.no_page_of_parse {contents : Contents} {text : String} {tables : List Schema}
    (read : Text.Utf8.decode? contents.toBytes = some text)
    (parsed : CatalogText.parse text = .ok tables) (whole : blockSize ≤ contents.size) {page : Page}
    (loaded : Page.ofBlock (contents.block 0) = .ok page) : page.number ≠ 0 := by
  intro first
  have same : page.block = contents.block 0 := by
    rw [Page.ofBlock] at loaded
    split at loaded
    · cases loaded
    · cases loaded
      rfl
  have zero : contents.toBytes[4]? = some 0 := by
    have field := Bytes.toNat_eq_zero _ first
    have inside : 4 < page.bytes.size := by
      rw [Page.bytes, Vector.size_toArray]
      decide
    have found : (Bytes.slice page.bytes 4 4)[0]? = some page.bytes[4] := by
      rw [Bytes.getElem?_slice, if_pos (by decide), Array.getElem?_eq_getElem inside]
    have early : 4 < contents.size := Nat.lt_of_lt_of_le (by decide) whole
    rw [Contents.getElem?_toBytes, if_pos early]
    change (contents.block 0).toArray[4]? = some 0
    rw [← same]
    rw [field _ (List.mem_of_getElem? found)] at found
    rw [Bytes.getElem?_slice, if_pos (by decide)] at found
    exact found
  rw [← Text.Utf8.encode_of_decode? read, Text.Utf8.encode_eq_flatMap] at zero
  obtain ⟨error, failed⟩ := CatalogText.parse_fails (Text.Utf8.nul_mem_take text.toList 4 zero)
  rw [parsed] at failed
  cases failed

end RowStore
