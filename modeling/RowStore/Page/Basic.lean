import RowStore.Bytes.BigEndian
import RowStore.Bytes.Block

/-!
Pages: blocks of 4096 bytes that hold the rows of a table. A head of eight bytes gives the number
of slots, where row data begins and the number of the page; the slot directory follows it and grows
upwards, while row data grows downwards from the end of the page.
-/

namespace RowStore

/-- The bytes of the head of a page. -/
def pageHeadSize : Nat := 8

/-- The bytes of one entry of the slot directory. -/
def slotSize : Nat := 4

/-- A block taken for a page. -/
structure Page where
  block : Block
  deriving DecidableEq

namespace Page

/-- The bytes of a page. -/
def bytes (page : Page) : Array UInt8 := page.block.toArray

/-- The number in a field of the page. -/
def field (page : Page) (start width : Nat) : Nat := Bytes.toNat (Bytes.slice page.bytes start width)

/-- The page with bytes written over it from a position on. -/
def write (page : Page) (start : Nat) (bytes : List UInt8) : Page := ⟨page.block.overwrite start bytes⟩

/-- The number of entries in the slot directory. -/
def slotCount (page : Page) : Nat := page.field 0 2

/-- Where row data begins. -/
def dataStart (page : Page) : Nat := page.field 2 2

/-- The number of the page in its file. -/
def number (page : Page) : Nat := page.field 4 4

/-- The first byte behind the slot directory. -/
def directoryEnd (page : Page) : Nat := pageHeadSize + page.slotCount * slotSize

/-- The bytes between the slot directory and the row data. -/
def freeSpace (page : Page) : Nat := page.dataStart - page.directoryEnd

/-- A page without slots: all behind its head is free. -/
def empty (number : Nat) : Page :=
  let page : Page := ⟨.zero⟩
  ((page.write 0 (Bytes.ofNat 2 0)).write 2 (Bytes.ofNat 2 blockSize)).write 4 (Bytes.ofNat 4 number)

end Page

/-- What is wrong with the head of a page. -/
inductive PageFault where
  | dataBeyondEnd (start : Nat)
  | directoryOverData (slots start : Nat)
  | otherNumber (number : Nat)
  deriving DecidableEq, Repr

def PageFault.message : PageFault → String
  | dataBeyondEnd start => s!"free space pointer {start} beyond page end"
  | directoryOverData slots start => s!"slot directory ({slots} slots) overlaps tuple data at {start}"
  | otherNumber number => s!"header carries page id {number}"

/-- Why a block is not taken for a page. -/
inductive BlockFault where
  | size (actual : Nat)
  | corrupt (page : Nat) (fault : PageFault)
  deriving DecidableEq, Repr

def BlockFault.message : BlockFault → String
  | size actual => s!"page must be {blockSize} bytes, got {actual}"
  | corrupt page fault => s!"corrupt page {page}: {fault.message}"

namespace Page

/-- The fault in the head of a page: row data lies between the slot directory and the end. -/
def fault? (page : Page) : Option PageFault :=
  if blockSize < page.dataStart then some (.dataBeyondEnd page.dataStart)
  else if page.dataStart < page.directoryEnd then
    some (.directoryOverData page.slotCount page.dataStart)
  else none

/-- The page that a block holds. Only its head is checked. -/
def ofBlock (block : Block) : Except BlockFault Page :=
  let page : Page := ⟨block⟩
  match page.fault? with
  | some fault => .error (.corrupt page.number fault)
  | none => .ok page

/-- The page that bytes hold, which must be as many as a block has. -/
def ofBytes (bytes : Array UInt8) : Except BlockFault Page :=
  match Block.ofBytes? bytes with
  | some block => ofBlock block
  | none => .error (.size bytes.size)

end Page

end RowStore
