/-!
The free space of the pages of a file, by which a row finds its page without any page being read:
the first one with enough room.
-/

namespace RowStore

/-- The free bytes of every page in order. -/
structure FreeSpaceMap where
  free : List Nat
  deriving DecidableEq, Repr

namespace FreeSpaceMap

/-- The map of a file without pages. -/
def empty : FreeSpaceMap := ⟨[]⟩

/-- Enters the free space of a page. Pages between the last one known and this one count as full. -/
def add (map : FreeSpaceMap) (page space : Nat) : FreeSpaceMap :=
  ⟨(map.free ++ List.replicate (page + 1 - map.free.length) 0).set page space⟩

/-- Changes the free space of a known page. -/
def update (map : FreeSpaceMap) (page space : Nat) : FreeSpaceMap := ⟨map.free.set page space⟩

/-- Keeps the first pages. -/
def truncate (map : FreeSpaceMap) (count : Nat) : FreeSpaceMap := ⟨map.free.take count⟩

/-- The first page with the needed number of free bytes. -/
def find? (map : FreeSpaceMap) (needed : Nat) : Option Nat := map.free.findIdx? (needed ≤ ·)

/-- The free space of a page; an unknown page has none. -/
def get (map : FreeSpaceMap) (page : Nat) : Nat := map.free.getD page 0

end FreeSpaceMap

end RowStore
