import RowStore.Heap.Scan
import RowStore.Proofs.Outcome
import RowStore.Proofs.Page.Sound

/-!
The rows of a heap by their addresses. A scan lists the rows that stand at some address, each once and
in the order of the addresses.
-/

namespace RowStore

namespace RowId

/-- The order of addresses: page by page, and slot by slot on each page. -/
def Before (first second : RowId) : Prop :=
  first.page < second.page ∨ first.page = second.page ∧ first.slot < second.slot

theorem Before.ne {first second : RowId} (before : first.Before second) : first ≠ second := by
  rintro rfl
  rcases before with before | ⟨_, before⟩ <;> exact Nat.lt_irrefl _ before

theorem Before.asymm {first second : RowId} (before : first.Before second) : ¬ second.Before first := by
  rintro (after | ⟨same, after⟩)
  · rcases before with before | ⟨same, _⟩ <;> omega
  · rcases before with before | ⟨_, before⟩ <;> omega

end RowId

namespace HeapFile

variable {heap next : HeapFile} {bytes : List UInt8} {id : RowId}

/-- The bytes of the row at an address. -/
def bytesAt? (heap : HeapFile) (id : RowId) : Option (List UInt8) :=
  heap.pages[id.page]?.bind fun page => page.get? id.slot

theorem mem_pageEntries (number : Nat) (page : Page) (id : RowId) (bytes : List UInt8) :
    (id, bytes) ∈ pageEntries number page ↔ id.page = number ∧ page.get? id.slot = some bytes := by
  simp only [pageEntries, Page.liveSlots, List.mem_filterMap, List.mem_filter, List.mem_range,
    Option.map_eq_some_iff, Prod.mk.injEq]
  constructor
  · rintro ⟨slot, _, _, found, rfl, rfl⟩
    exact ⟨rfl, found⟩
  · rintro ⟨rfl, found⟩
    have live := page.isLive_of_get? found
    obtain ⟨entry, given, _⟩ := (page.isLive_iff _).mp live
    exact ⟨id.slot, ⟨Page.lt_slotCount_of_slot? given, live⟩, bytes, found, rfl, rfl⟩

theorem mem_entries (heap : HeapFile) (id : RowId) (bytes : List UInt8) :
    (id, bytes) ∈ heap.entries ↔ heap.bytesAt? id = some bytes := by
  simp only [entries, List.mem_flatMap, Prod.exists, List.mem_zipIdx_iff_getElem?, mem_pageEntries,
    bytesAt?, Option.bind_eq_some_iff]
  constructor
  · rintro ⟨page, number, found, rfl, stored⟩
    exact ⟨page, found, stored⟩
  · rintro ⟨page, found, stored⟩
    exact ⟨page, id.page, found, rfl, stored⟩

theorem pairwise_pageEntries (number : Nat) (page : Page) :
    (pageEntries number page).Pairwise fun first second => first.1.Before second.1 := by
  have ascending : page.liveSlots.Pairwise (· < ·) :=
    List.pairwise_lt_range.sublist List.filter_sublist
  rw [pageEntries, List.pairwise_filterMap]
  apply ascending.imp
  intro first second less one oneFound other otherFound
  obtain ⟨_, _, rfl⟩ := Option.map_eq_some_iff.mp oneFound
  obtain ⟨_, _, rfl⟩ := Option.map_eq_some_iff.mp otherFound
  exact .inr ⟨rfl, less⟩

/-- A scan goes through the addresses in ascending order. -/
theorem pairwise_entries (heap : HeapFile) :
    heap.entries.Pairwise fun first second => first.1.Before second.1 := by
  rw [entries, List.flatMap, List.pairwise_flatten]
  constructor
  · intro listed member
    obtain ⟨⟨page, number⟩, _, rfl⟩ := List.mem_map.mp member
    exact pairwise_pageEntries number page
  · rw [List.pairwise_map]
    have ascending : heap.pages.zipIdx.Pairwise fun first second => first.2 < second.2 := by
      rw [← List.pairwise_map (f := Prod.snd) (R := (· < ·)), List.zipIdx_map_snd]
      exact List.pairwise_lt_range'
    apply ascending.imp
    rintro ⟨page, number⟩ ⟨other, later⟩ less ⟨id, bytes⟩ member ⟨behind, _⟩ otherMember
    left
    rw [((mem_pageEntries _ _ _ _).mp member).1, ((mem_pageEntries _ _ _ _).mp otherMember).1]
    exact less

end HeapFile

end RowStore
