import RowStore.Proofs.Disk.Bytes
import RowStore.Proofs.Disk.Contents
import RowStore.Proofs.Heap.Change
import RowStore.Proofs.Steps

/-!
Pages that are written to a file and read back. A page may be written anywhere, behind the end of the
file too, and each write may be refused. A page is read as it was last written; where it never was, it
is what the file held at first, and zeros behind the end that the file had then.
-/

namespace RowStore

namespace Contents

/-- The contents are the given bytes, and nothing but zeros is kept behind them. -/
structure Spells (contents : Contents) (bytes : List UInt8) : Prop where
  size_eq : contents.size = bytes.length
  byte_eq : ∀ (page : Nat) (offset : Fin blockSize),
    (contents.block page)[offset] = bytes.getD (page * blockSize + offset) 0

theorem byteAt?_eq (contents : Contents) (page : Nat) (offset : Fin blockSize) :
    byteAt? contents.blocks (page * blockSize + offset) = some (contents.block page)[offset] := by
  have number : (page * blockSize + offset) / blockSize = page := by
    rw [Nat.mul_comm, Nat.mul_add_div (by decide), Nat.div_eq_of_lt offset.isLt, Nat.add_zero]
  have rest : (page * blockSize + offset) % blockSize = offset := by
    rw [Nat.mul_comm, Nat.mul_add_mod, Nat.mod_eq_of_lt offset.isLt]
  rw [byteAt?, number, rest, Vector.getElem?_toArray]
  exact Vector.getElem?_eq_getElem offset.isLt

/-- A file that is made of bytes spells them. -/
theorem spells_ofBytes (bytes : List UInt8) : (ofBytes bytes).Spells bytes := by
  have blocks : (ofBytes bytes).blocks = put {} 0 bytes := by
    cases bytes with
    | nil => rw [put]; rfl
    | cons byte rest => rfl
  constructor
  case size_eq =>
    cases bytes with
    | nil => rfl
    | cons byte rest => simp [ofBytes, write, empty]
  case byte_eq =>
    intro page offset
    have found := byteAt?_eq (ofBytes bytes) page offset
    rw [blocks, byteAt?_put] at found
    split at found
    · rename_i within
      rw [Nat.sub_zero] at found
      rw [List.getD_eq_getElem?_getD, found, Option.getD_some]
    · rename_i outside
      have zero := byteAt?_eq empty page offset
      rw [block_empty] at zero
      rw [show byteAt? {} (page * blockSize + offset) = _ from zero] at found
      rw [List.getD_eq_getElem?_getD, List.getElem?_eq_none (by omega), Option.getD_none,
        ← Option.some.inj found]
      exact Vector.getElem_replicate _

theorem length_toBytes (contents : Contents) : contents.toBytes.length = contents.size := by
  have room : ((List.range ((contents.size + blockSize - 1) / blockSize)).flatMap fun number =>
      (contents.block number).toList).length =
        (contents.size + blockSize - 1) / blockSize * blockSize := by
    rw [List.length_flatMap]
    simp
  rw [toBytes, List.length_take, room]
  simp only [blockSize]
  omega

end Contents

namespace PageFile

/-- A block and the page it is to be written to. -/
structure Write where
  page : Nat
  block : Block

/-- Writes pages one after another: for each whether it was taken, and the disk after all of them. -/
def writeAll (file : PageFile) : List Write → Disk → List (Write × Bool) × Disk
  | [], disk => ([], disk)
  | write :: rest, disk =>
    let (result, disk) := (file.writePage write.page write.block).runOn disk
    let (history, disk) := file.writeAll rest disk
    ((write, result.isOk) :: history, disk)

/-- The block that was last written to a page. -/
def lastBlock? (history : List (Write × Bool)) (page : Nat) : Option Block :=
  (history.filter fun (write, taken) => taken && write.page == page).getLast?.map (·.1.block)

/-- The size of a file to which pages were written. It reaches to the end of the farthest one. -/
def sizeAfter (original : List UInt8) (history : List (Write × Bool)) : Nat :=
  (history.filter (·.2)).foldl (fun size (write, _) => max size ((write.page + 1) * blockSize))
    original.length

/-- A byte of a page as it was last written, or as it was at first. -/
def byteAfter (original : List UInt8) (history : List (Write × Bool)) (page : Nat)
    (offset : Fin blockSize) : UInt8 :=
  match lastBlock? history page with
  | some block => block[offset]
  | none => original.getD (page * blockSize + offset) 0

/-- What is read of a file after some writes: the whole pages that it has, byte by byte, and nothing
behind them. One more write changes no page but its own. -/
structure ReadsBack (original : List UInt8) (history : List (Write × Bool)) (file : PageFile)
    (disk : Disk) : Prop where
  length_eq : (disk.contents file.file).toBytes.length = sizeAfter original history
  pageCount_eq : file.pageCount disk = (disk.contents file.file).toBytes.length / blockSize
  read : ∀ page, page < file.pageCount disk → ∃ block, file.readPage disk page = .ok block ∧
    ∀ offset, block[offset] = byteAfter original history page offset
  beyond : ∀ page, file.pageCount disk ≤ page → file.readPage disk page = .error .shortRead
  others : ∀ (write : Write) page, page ≠ write.page → page < file.pageCount disk →
    file.readPage ((file.writePage write.page write.block).runOn disk).2 page =
      file.readPage disk page

variable {original : List UInt8} {history : List (Write × Bool)} {file : PageFile} {disk after : Disk}
  {path : String}

/-- A file that is opened holds what it held, and nothing if it is new. -/
theorem contents_of_openAt (intact : disk.Intact)
    (opened : (openAt path).runOn disk = (.ok file, after)) :
    file.file < after.files.size ∧ after.contents file.file = disk.contents file.file := by
  rw [openAt, bind_pure_comp, Step.runOn_map] at opened
  have opens := Disk.opens path false disk
  generalize (Disk.openFile path false).runOn disk = outcome at opened opens
  obtain ⟨result, reached⟩ := outcome
  cases opens with
  | failed fault reached furnished => cases opened
  | present middle number furnished holds =>
    cases opened
    exact ⟨furnished.intact intact _ _ holds.entry, furnished.contents_eq number⟩
  | created middle furnished leads free =>
    cases opened
    have fresh : disk.contents middle.files.size = .empty := by
      rw [furnished.files_eq, Disk.contents, Array.getD_eq_getD_getElem?,
        Array.getElem?_eq_none (Nat.le_refl _), Option.getD_none]
    have added := Disk.contents_addFile middle (Disk.locate path) .empty middle.files.size
    exact ⟨by simp, added.trans ((if_pos rfl).trans fresh.symm)⟩

/-- A file that is created is empty. -/
theorem spells_of_createAt (intact : disk.Intact)
    (created : (createAt path).runOn disk = (.ok file, after)) :
    file.file < after.files.size ∧ (after.contents file.file).Spells [] := by
  rw [createAt, bind_pure_comp, Step.runOn_map] at created
  have opens := Disk.opens path true disk
  generalize (Disk.openFile path true).runOn disk = outcome at created opens
  obtain ⟨result, reached⟩ := outcome
  cases result with
  | error fault => cases created
  | ok number =>
    cases created
    obtain ⟨_, known, empty⟩ := opens.holds intact
    exact ⟨known, empty rfl ▸ Contents.spells_ofBytes []⟩

theorem lastBlock?_concat (history : List (Write × Bool)) (write : Write) (taken : Bool) (page : Nat) :
    lastBlock? (history ++ [(write, taken)]) page =
      if taken = true ∧ write.page = page then some write.block else lastBlock? history page := by
  rw [lastBlock?, lastBlock?, List.filter_append]
  by_cases last : taken = true ∧ write.page = page
  · simp [last]
  · have dropped : (taken && write.page == page) = false := by simpa using last
    simp [last, dropped]

theorem sizeAfter_concat (original : List UInt8) (history : List (Write × Bool)) (write : Write)
    (taken : Bool) :
    sizeAfter original (history ++ [(write, taken)]) =
      if taken then max (sizeAfter original history) ((write.page + 1) * blockSize)
      else sizeAfter original history := by
  cases taken <;> simp [sizeAfter]

theorem byteAfter_concat (original : List UInt8) (history : List (Write × Bool)) (write : Write)
    (taken : Bool) (page : Nat) (offset : Fin blockSize) :
    byteAfter original (history ++ [(write, taken)]) page offset =
      if taken = true ∧ write.page = page then write.block[offset]
      else byteAfter original history page offset := by
  rw [byteAfter, lastBlock?_concat]
  by_cases last : taken = true ∧ write.page = page
  · rw [if_pos last, if_pos last]
  · rw [if_neg last, if_neg last, byteAfter]

/-- The contents of the file after a write: those with the block in its place, or the same if the write
is refused. -/
theorem contents_writePage (known : file.file < disk.files.size) (write : Write) :
    (((file.writePage write.page write.block).runOn disk).2.contents file.file =
      if ((file.writePage write.page write.block).runOn disk).1.isOk then
        (disk.contents file.file).writeBlock write.page write.block
      else disk.contents file.file) ∧
    ((file.writePage write.page write.block).runOn disk).2.files.size = disk.files.size := by
  rw [HeapFile.runOn_writePage]
  cases disk.refuses disk.writes with
  | true => exact ⟨rfl, rfl⟩
  | false =>
    refine ⟨?_, by simp [HeapFile.afterRefusal]⟩
    simp only [Bool.false_eq_true, if_false]
    exact (Disk.contents_modifyContents _ _ _ known _).trans (if_pos rfl)

/-- The invariant of a run of writes: all blocks of the file are as the history tells, those behind its
end as well. -/
structure Keeps (original : List UInt8) (history : List (Write × Bool)) (file : PageFile)
    (disk : Disk) : Prop where
  known : file.file < disk.files.size
  size_eq : (disk.contents file.file).size = sizeAfter original history
  byte_eq : ∀ page (offset : Fin blockSize),
    ((disk.contents file.file).block page)[offset] = byteAfter original history page offset

namespace Keeps

theorem of_spells (known : file.file < disk.files.size)
    (spells : (disk.contents file.file).Spells original) : Keeps original [] file disk :=
  ⟨known, spells.size_eq, spells.byte_eq⟩

theorem writePage (keeps : Keeps original history file disk) (write : Write) :
    Keeps original
      (history ++ [(write, ((file.writePage write.page write.block).runOn disk).1.isOk)]) file
      ((file.writePage write.page write.block).runOn disk).2 := by
  obtain ⟨contents, known⟩ := contents_writePage keeps.known write
  generalize (file.writePage write.page write.block).runOn disk = outcome at contents known
  obtain ⟨result, after⟩ := outcome
  constructor
  case known => exact known ▸ keeps.known
  case size_eq =>
    rw [sizeAfter_concat, ← keeps.size_eq, contents]
    split <;> rfl
  case byte_eq =>
    intro page offset
    rw [byteAfter_concat, ← keeps.byte_eq, contents]
    cases result.isOk with
    | false => simp
    | true =>
      simp only [if_true, Contents.block_writeBlock, true_and, eq_comm (a := page)]
      split <;> rfl

theorem writeAll (keeps : Keeps original history file disk) (writes : List Write) :
    Keeps original (history ++ (file.writeAll writes disk).1) file (file.writeAll writes disk).2 := by
  induction writes generalizing history disk with
  | nil =>
    rw [PageFile.writeAll, List.append_nil]
    exact keeps
  | cons write rest ih =>
    have later := ih (keeps.writePage write)
    rw [List.append_assoc, List.singleton_append] at later
    exact later

theorem readsBack (keeps : Keeps original history file disk)
    (few : (disk.contents file.file).toBytes.length / blockSize < UInt32.size) :
    ReadsBack original history file disk := by
  have length_eq := (disk.contents file.file).length_toBytes
  have pageCount_eq : file.pageCount disk = (disk.contents file.file).size / blockSize := by
    rw [length_eq] at few
    exact Nat.mod_eq_of_lt few
  have whole (page : Nat) : page < file.pageCount disk ↔
      (page + 1) * blockSize ≤ (disk.contents file.file).size := by
    rw [pageCount_eq, ← Nat.succ_le_iff, Nat.le_div_iff_mul_le (by decide)]
  constructor
  case length_eq => rw [length_eq, keeps.size_eq]
  case pageCount_eq => rw [length_eq, pageCount_eq]
  case read =>
    intro page inside
    exact ⟨_, if_pos ((whole page).mp inside), keeps.byte_eq page⟩
  case beyond =>
    intro page outside
    exact if_neg fun within => Nat.not_lt.mpr outside ((whole page).mpr within)
  case others =>
    intro write page different inside
    rw [readPage, readPage, (contents_writePage keeps.known write).1]
    split
    · rw [Contents.block_writeBlock, if_neg different, if_pos ((whole page).mp inside), if_pos]
      exact Nat.le_trans ((whole page).mp inside) (Nat.le_max_left _ _)
    · rfl

end Keeps

/-- Whatever bytes a file holds at first, whichever pages are written to it, and whichever of these
writes the disk refuses: as long as page numbers fit 32 bits, a page can be read exactly if the file
holds all of it, and is then read as it was last written, or else as it was at first. -/
theorem reads_back_writes (known : file.file < disk.files.size)
    (spells : (disk.contents file.file).Spells original) (writes : List Write)
    (few : ((file.writeAll writes disk).2.contents file.file).toBytes.length / blockSize <
      UInt32.size) :
    ReadsBack original (file.writeAll writes disk).1 file (file.writeAll writes disk).2 :=
  ((Keeps.of_spells known spells).writeAll writes).readsBack few

/-- A file of one page and a part of another, for which the disk refuses the second write. The others
leave a gap behind the end, and put a new block over the first page. -/
theorem reads_back_writes_with_gap :
    let original : List UInt8 := List.replicate 5000 7
    let disk : Disk :=
      { Disk.empty with files := #[.ofBytes original], refuses := fun write => write == 1 }
    let file : PageFile := ⟨"T.dat", 0⟩
    let writes : List Write :=
      [⟨3, .replicate blockSize 1⟩, ⟨1, .replicate blockSize 2⟩, ⟨0, .replicate blockSize 3⟩]
    file.file < disk.files.size ∧ (disk.contents file.file).Spells original ∧
      ((file.writeAll writes disk).2.contents file.file).toBytes.length / blockSize < UInt32.size ∧
      ReadsBack original (file.writeAll writes disk).1 file (file.writeAll writes disk).2 := by
  intro original disk file writes
  have known : file.file < disk.files.size := Nat.zero_lt_one
  have spells : (disk.contents file.file).Spells original := Contents.spells_ofBytes original
  have few : ((file.writeAll writes disk).2.contents file.file).toBytes.length / blockSize <
      UInt32.size := by
    rw [Contents.length_toBytes, ((Keeps.of_spells known spells).writeAll writes).size_eq]
    change max (max original.length (4 * blockSize)) (1 * blockSize) / blockSize < UInt32.size
    rw [List.length_replicate]
    decide
  exact ⟨known, spells, few, reads_back_writes known spells writes few⟩

end PageFile

end RowStore
