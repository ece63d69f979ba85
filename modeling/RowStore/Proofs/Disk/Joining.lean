import RowStore.Proofs.Disk.Opening
import RowStore.Proofs.Text.Pieces
import RowStore.Proofs.Text.Qualified

/-!
Files in a directory. A path that is joined from a directory and the name of a file leads to that name
below the place of the directory, and tables of different names have different files.
-/

namespace RowStore

namespace Path

/-- A name that a file of a directory can have, whatever its length. -/
structure IsFileName (name : String) : Prop where
  nonempty : name ≠ ""
  not_here : name ≠ "."
  not_above : name ≠ ".."
  plain : '/' ∉ name.toList

/-- The names on a path given by its characters. -/
def namesOf (chars : List Char) : List String :=
  ((Text.pieces (· == '/') chars).map String.ofList).filter fun name => name != "" && name != "."

theorem names_eq (path : String) : names path = namesOf path.toList := rfl

theorem namesOf_append (before rest : List Char) :
    namesOf (before ++ '/' :: rest) = namesOf before ++ namesOf rest := by
  rw [namesOf, Text.pieces_append_break _ (by decide), List.map_append, List.filter_append]
  rfl

theorem namesOf_file {name : String} (file : IsFileName name) : namesOf name.toList = [name] := by
  have whole : Text.pieces (· == '/') name.toList = [name.toList] := by
    apply Text.pieces_of_unbroken
    intro c member
    rw [beq_eq_false_iff_ne]
    rintro rfl
    exact file.plain member
  simp [namesOf, whole, file.nonempty, file.not_here]

/-- A path joined from a directory and the name of a file has the names of the directory and then
that name. -/
theorem names_join (directory : String) {name : String} (file : IsFileName name) :
    names (join directory name) = names directory ++ [name] := by
  have relative : name.startsWith "/" = false := by
    rw [Bool.eq_false_iff, ne_eq, String.startsWith_string_iff]
    intro prefixed
    exact file.plain (prefixed.subset List.mem_cons_self)
  rw [join, relative, if_neg Bool.false_ne_true]
  split
  · rename_i closed
    rw [names_eq, names_eq, String.toList_append]
    rcases Bool.or_eq_true_iff.mp closed with empty | slashed
    · rw [String.isEmpty_iff] at empty
      rw [empty]
      exact namesOf_file file
    · rw [← String.endsWith_toSlice, String.Slice.endsWith_string_iff, String.copy_toSlice] at slashed
      obtain ⟨start, same⟩ := slashed
      have slash : "/".toList = ['/'] := rfl
      rw [← same, slash, List.append_assoc, List.singleton_append, namesOf_append, namesOf_append,
        namesOf_file file]
      simp [namesOf, Text.pieces]
  · rw [names_eq, names_eq, String.toList_append, String.toList_append]
    have slash : "/".toList = ['/'] := rfl
    rw [slash, List.append_assoc, List.singleton_append, namesOf_append, namesOf_file file]

end Path

/-- Where a joined path leads. -/
theorem Disk.locate_join (directory : String) {name : String} (file : Path.IsFileName name) :
    locate (Path.join directory name) = locate directory ++ [name] := by
  rw [locate, Path.names_join directory file, follow, List.foldl_concat, next]
  simp [file.not_above, locate, follow]

/-- The name of the file of a table in a data directory. -/
def tableFile (key : String) : String := key ++ "." ++ "dat"

theorem toList_tableFile (key : String) :
    (tableFile key).toList = key.toList ++ ['.', 'd', 'a', 't'] := by
  simp [tableFile]

theorem isFileName_tableFile {key : String} (plain : '/' ∉ key.toList) :
    Path.IsFileName (tableFile key) := by
  have long : 4 ≤ (tableFile key).toList.length := by
    rw [toList_tableFile, List.length_append]
    exact Nat.le_add_left _ _
  refine ⟨?_, ?_, ?_, by simp [toList_tableFile, plain]⟩
  all_goals
    intro same
    rw [same] at long
    exact absurd long (by decide)

theorem isFileName_catalogFile : Path.IsFileName "catalog.meta" := by
  constructor <;> decide

theorem tableFile_injective {key other : String} (same : tableFile key = tableFile other) :
    key = other := by
  have chars := congrArg String.toList same
  rw [toList_tableFile, toList_tableFile] at chars
  exact String.toList_inj.mp (List.append_cancel_right chars)

theorem tableFile_ne_catalogFile (key : String) : tableFile key ≠ "catalog.meta" := by
  intro same
  have chars := congrArg (fun name => name.toList.getLast?) same
  simp [toList_tableFile] at chars

end RowStore
