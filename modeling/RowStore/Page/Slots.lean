import RowStore.Page.Basic

/-!
The rows on a page. Every row has a slot, which tells where its bytes lie. A deleted row keeps its
slot and its bytes, with a mark in place of its position, so a slot is never used again.
-/

namespace RowStore

/-- An entry of the slot directory. -/
structure Slot where
  start : Nat
  length : Nat
  deriving DecidableEq, Repr

namespace Slot

/-- The position that marks a deleted row. -/
def deletedMark : Nat := 0xFFFF

def isDeleted (slot : Slot) : Bool := slot.start == deletedMark

/-- An entry as it is stored. -/
def bytes (slot : Slot) : List UInt8 := Bytes.ofNat 2 slot.start ++ Bytes.ofNat 2 slot.length

end Slot

namespace Page

/-- Where a slot stands in the page. -/
def slotPosition (index : Nat) : Nat := pageHeadSize + index * slotSize

/-- The entry of a slot that has been given out. -/
def slot? (page : Page) (index : Nat) : Option Slot :=
  if index < page.slotCount then
    some ⟨page.field (slotPosition index) 2, page.field (slotPosition index + 2) 2⟩
  else none

/-- Whether a slot has been given out and its row is not deleted. -/
def isLive (page : Page) (index : Nat) : Bool :=
  match page.slot? index with
  | some slot => !slot.isDeleted
  | none => false

/-- The slots of the rows that are not deleted, in order. -/
def liveSlots (page : Page) : List Nat := (List.range page.slotCount).filter page.isLive

/-- The bytes of a row that is not deleted; none if they would not lie on the page. -/
def get? (page : Page) (index : Nat) : Option (List UInt8) :=
  match page.slot? index with
  | some slot =>
    if slot.isDeleted || blockSize < slot.start + slot.length then none
    else some (Bytes.slice page.bytes slot.start slot.length)
  | none => none

/-- The page with one more row, and the slot of that row. There is none unless the free space holds
the bytes and a slot. -/
def insert? (page : Page) (bytes : List UInt8) : Option (Page × Nat) :=
  if page.freeSpace < bytes.length + slotSize then none
  else
    let start := page.dataStart - bytes.length
    let index := page.slotCount
    let page := page.write start bytes
    let page := page.write (slotPosition index) (Slot.bytes ⟨start, bytes.length⟩)
    let page := page.write 0 (Bytes.ofNat 2 (index + 1))
    some (page.write 2 (Bytes.ofNat 2 start), index)

/-- The page with a row deleted, if the slot holds one. -/
def delete? (page : Page) (index : Nat) : Option Page :=
  if page.isLive index then
    some (page.write (slotPosition index) (Bytes.ofNat 2 Slot.deletedMark))
  else none

/-- A page in one line: its number and the fields of its head. -/
def summary (page : Page) : String :=
  s!"SlottedPage \x7b page_id: {page.number}, slot_count: {page.slotCount}, " ++
    s!"free_space_ptr: {page.dataStart}, free_space: {page.freeSpace} \x7d"

end Page

/-- The bytes of the largest row that fits on an empty page. -/
def maxRowSize : Nat := blockSize - pageHeadSize - slotSize

end RowStore
