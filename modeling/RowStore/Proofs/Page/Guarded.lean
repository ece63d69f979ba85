import RowStore.Proofs.Page.Sound

/-!
The operations on a page access by access, as they go about it. Each access is guarded: work stops as
soon as a stretch of bytes leaves the page, or a number does not fit in the sixteen bits of its field.
On a page in order no guard stops the work, whatever stands in the slots and behind them.
-/

namespace RowStore.Page

/-- What work on a page must never do. -/
inductive Breach where
  | outside (start count : Nat)
  | wide (value : Nat)
  | below (value less : Nat)

/-- Work on a page up to the first breach. What it has written stays, whatever it answers. -/
abbrev Guarded := StateT Page (Except Breach)

namespace Guarded

/-- The bytes of a stretch. -/
def stretch (start count : Nat) : Guarded (List UInt8) := do
  if start + count ≤ blockSize then return Bytes.slice (← get).bytes start count
  else throw (.outside start count)

/-- The number of sixteen bits at a position. -/
def read (start : Nat) : Guarded Nat := do
  return Bytes.toNat (← stretch start 2)

/-- Writes bytes over a stretch. -/
def write (start : Nat) (bytes : List UInt8) : Guarded Unit := do
  if start + bytes.length ≤ blockSize then modify fun page => page.write start bytes
  else throw (.outside start bytes.length)

/-- A number, narrowed to sixteen bits. -/
def narrow (value : Nat) : Guarded Nat :=
  if value < 2 ^ 16 then return value else throw (.wide value)

/-- A difference of numbers without sign. -/
def subtract (value less : Nat) : Guarded Nat :=
  if less ≤ value then return value - less else throw (.below value less)

/-- Writes a number into a field of sixteen bits. -/
def writeNumber (start value : Nat) : Guarded Unit := do
  write start (Bytes.ofNat 2 (← narrow value))

def slotCount : Guarded Nat := read 0

def dataStart : Guarded Nat := read 2

/-- Nothing is free where the slots reach into the row data. -/
def freeSpace : Guarded Nat := do
  let start ← dataStart
  return start - (pageHeadSize + (← slotCount) * slotSize)

def slot? (index : Nat) : Guarded (Option Slot) := do
  if index < (← slotCount) then
    return some ⟨← read (slotPosition index), ← read (slotPosition index + 2)⟩
  else return none

def isLive (index : Nat) : Guarded Bool := do
  match ← slot? index with
  | some slot => return !slot.isDeleted
  | none => return false

/-- Those of some slots that hold a row. -/
def liveAmong : List Nat → Guarded (List Nat)
  | [] => return []
  | index :: rest => do
    if ← isLive index then return index :: (← liveAmong rest) else liveAmong rest

def liveSlots : Guarded (List Nat) := do
  liveAmong (List.range (← slotCount))

def get? (index : Nat) : Guarded (Option (List UInt8)) := do
  match ← slot? index with
  | some slot =>
    if slot.isDeleted || blockSize < slot.start + slot.length then return none
    else return some (← stretch slot.start slot.length)
  | none => return none

def insert? (bytes : List UInt8) : Guarded (Option Nat) := do
  if (← freeSpace) < bytes.length + slotSize then return none
  else
    let start ← subtract (← dataStart) bytes.length
    write start bytes
    let index ← slotCount
    write (slotPosition index) (Slot.bytes ⟨← narrow start, ← narrow bytes.length⟩)
    writeNumber 0 (index + 1)
    writeNumber 2 start
    return some index

def delete? (index : Nat) : Guarded Bool := do
  match ← slot? index with
  | some slot =>
    if slot.isDeleted then return false
    else
      writeNumber (slotPosition index) Slot.deletedMark
      return true
  | none => return false

variable {page next : Page} {α β : Type}

/-- Work goes on from where its first part came to. -/
theorem run_bind {first : Guarded α} {rest : α → Guarded β} {value : α}
    (ran : first.run page = .ok (value, next)) :
    (first >>= rest).run page = (rest value).run next := by
  rw [StateT.run_bind, ran]
  rfl

theorem run_stretch (page : Page) {start count : Nat} (inside : start + count ≤ blockSize) :
    (stretch start count).run page = .ok (Bytes.slice page.bytes start count, page) := by
  rw [stretch, if_pos inside]
  rfl

theorem run_read (page : Page) {start : Nat} (inside : start + 2 ≤ blockSize) :
    (read start).run page = .ok (page.field start 2, page) :=
  run_bind (run_stretch page inside)

theorem run_write (page : Page) {start : Nat} {bytes : List UInt8}
    (inside : start + bytes.length ≤ blockSize) :
    (write start bytes).run page = .ok ((), page.write start bytes) := by
  rw [write, if_pos inside]
  rfl

theorem run_narrow (page : Page) {value : Nat} (fits : value < 2 ^ 16) :
    (narrow value).run page = .ok (value, page) := by
  rw [narrow, if_pos fits]
  rfl

theorem run_subtract (page : Page) {value less : Nat} (enough : less ≤ value) :
    (subtract value less).run page = .ok (value - less, page) := by
  rw [subtract, if_pos enough]
  rfl

theorem run_writeNumber (page : Page) {start value : Nat} (inside : start + 2 ≤ blockSize)
    (fits : value < 2 ^ 16) :
    (writeNumber start value).run page = .ok ((), page.write start (Bytes.ofNat 2 value)) := by
  refine (run_bind (run_narrow page fits)).trans (run_write page ?_)
  simpa using inside

theorem run_slotCount (page : Page) : slotCount.run page = .ok (page.slotCount, page) :=
  run_read page (by decide)

theorem run_dataStart (page : Page) : dataStart.run page = .ok (page.dataStart, page) :=
  run_read page (by decide)

theorem run_freeSpace (page : Page) : freeSpace.run page = .ok (page.freeSpace, page) :=
  (run_bind (run_dataStart page)).trans (run_bind (run_slotCount page))

/-- The slots that were given out lie in front of the row data, and so on the page. -/
theorem slotPosition_le (inOrder : page.InOrder) {index : Nat} (given : index < page.slotCount) :
    slotPosition index + slotSize ≤ blockSize := by
  have directory_le := inOrder.directory_le
  have data_le := inOrder.data_le
  unfold directoryEnd slotSize at directory_le
  unfold slotPosition slotSize
  omega

theorem run_slot? (inOrder : page.InOrder) (index : Nat) :
    (slot? index).run page = .ok (page.slot? index, page) := by
  refine (run_bind (run_slotCount page)).trans ?_
  unfold Page.slot?
  by_cases given : index < page.slotCount
  · have inside := slotPosition_le inOrder given
    unfold slotSize at inside
    rw [if_pos given, if_pos given]
    refine (run_bind (run_read page ?start)).trans (run_bind (run_read page ?length))
    case start => omega
    case length => omega
  · rw [if_neg given, if_neg given]
    rfl

theorem run_isLive (inOrder : page.InOrder) (index : Nat) :
    (isLive index).run page = .ok (page.isLive index, page) := by
  refine (run_bind (run_slot? inOrder index)).trans ?_
  unfold Page.isLive
  cases page.slot? index with
  | some slot => rfl
  | none => rfl

theorem run_liveAmong (inOrder : page.InOrder) (indices : List Nat) :
    (liveAmong indices).run page = .ok (indices.filter page.isLive, page) := by
  induction indices with
  | nil => rfl
  | cons index rest ih =>
    refine (run_bind (run_isLive inOrder index)).trans ?_
    cases live : page.isLive index with
    | true =>
      rw [List.filter_cons_of_pos live]
      exact run_bind ih
    | false =>
      rw [List.filter_cons_of_neg (by simp [live])]
      exact ih

theorem run_liveSlots (inOrder : page.InOrder) :
    liveSlots.run page = .ok (page.liveSlots, page) :=
  (run_bind (run_slotCount page)).trans (run_liveAmong inOrder _)

theorem run_get? (inOrder : page.InOrder) (index : Nat) :
    (get? index).run page = .ok (page.get? index, page) := by
  refine (run_bind (run_slot? inOrder index)).trans ?_
  unfold Page.get?
  cases page.slot? index with
  | none => rfl
  | some slot =>
    by_cases hidden : (slot.isDeleted || decide (blockSize < slot.start + slot.length)) = true
    · simp only [hidden, ↓reduceIte]
      rfl
    · simp only [hidden]
      simp only [Bool.or_eq_true, decide_eq_true_eq, not_or, Nat.not_lt] at hidden
      exact run_bind (run_stretch page hidden.2)

theorem run_delete? (inOrder : page.InOrder) (index : Nat) :
    (delete? index).run page =
      .ok ((page.delete? index).isSome, (page.delete? index).getD page) := by
  refine (run_bind (run_slot? inOrder index)).trans ?_
  unfold Page.delete? Page.isLive
  cases found : page.slot? index with
  | none => rfl
  | some slot =>
    cases deleted : slot.isDeleted with
    | true =>
      simp only [deleted, Bool.not_true, Bool.false_eq_true, ↓reduceIte, Option.isSome_none,
        Option.getD_none]
      rfl
    | false =>
      have inside := slotPosition_le inOrder (lt_slotCount_of_slot? found)
      unfold slotSize at inside
      simp only [deleted, Bool.not_false, ↓reduceIte, Option.isSome_some, Option.getD_some]
      exact run_bind (run_writeNumber page (by omega) (by decide))

/-- The row is written into the free space, so the slots are still counted as before when its own slot
is written behind them. -/
theorem run_insert? (inOrder : page.InOrder) (bytes : List UInt8) :
    (insert? bytes).run page =
      .ok ((page.insert? bytes).map Prod.snd, ((page.insert? bytes).map Prod.fst).getD page) := by
  refine (run_bind (run_freeSpace page)).trans ?_
  rw [insert?_eq]
  by_cases lacking : page.freeSpace < bytes.length + slotSize
  · rw [if_pos lacking, if_pos lacking]
    rfl
  · rw [if_neg lacking, if_neg lacking]
    -- The row and its slot lie in front of the row data, so no number exceeds the size of the page.
    have data_le := inOrder.data_le
    have room : 8 + page.slotCount * 4 + 4 + bytes.length ≤ page.dataStart := by
      simp only [Page.freeSpace, directoryEnd, pageHeadSize, slotSize] at lacking
      omega
    have position : slotPosition page.slotCount = 8 + page.slotCount * 4 := rfl
    have counted : (page.write (page.dataStart - bytes.length) bytes).slotCount = page.slotCount :=
      field_write_of_apart _ _ _ _ _ (by omega)
    have row : page.dataStart - bytes.length + bytes.length ≤ blockSize := by omega
    have entry : slotPosition page.slotCount +
        (Slot.bytes ⟨page.dataStart - bytes.length, bytes.length⟩).length ≤ blockSize := by
      rw [Slot.bytes, List.length_append, Bytes.length_ofNat, Bytes.length_ofNat]
      omega
    unfold blockSize at data_le
    refine (run_bind (run_dataStart page)).trans ?_
    refine (run_bind (run_subtract page (by omega))).trans ?_
    refine (run_bind (run_write page row)).trans ?_
    refine (run_bind (run_slotCount _)).trans ?_
    rw [counted]
    refine (run_bind (run_narrow _ (by omega))).trans ?_
    refine (run_bind (run_narrow _ (by omega))).trans ?_
    refine (run_bind (run_write _ entry)).trans ?_
    refine (run_bind (run_writeNumber _ (by decide) (by omega))).trans ?_
    refine (run_bind (run_writeNumber _ (by decide) (by omega))).trans ?_
    simp only [withRow, Slot.bytes, write_append, Bytes.length_ofNat]
    rfl

end Guarded

end RowStore.Page
