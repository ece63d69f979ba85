import RowStore.Proofs.Heap.Lasting

/-!
Rows that move to other addresses. An address that is given out is one that no row of the heap file has
ever had, and the rows that do not move stay at their addresses and in their order.
-/

namespace RowStore.HeapFile

variable {past heap next : HeapFile} {disk : Disk} {id : RowId} {ids : List RowId}
  {rows others : List (RowId × Row)}

/-- A heap file as it was at some time: since then rows may have been stored and deleted, with whatever
outcome, and the file may have been opened again. -/
inductive Earlier (past : HeapFile) : HeapFile → Prop where
  | now (ordered : past.Ordered) : Earlier past past
  | inserted (heap : HeapFile) (disk : Disk) (row : Row) (earlier : Earlier past heap) :
      Earlier past ((insert row).runOn (heap, disk)).2.1
  | deleted (heap : HeapFile) (disk : Disk) (id : RowId) (earlier : Earlier past heap) :
      Earlier past ((delete id).runOn (heap, disk)).2.1
  | reopened (heap : HeapFile) (backing : Option PageFile) (earlier : Earlier past heap) :
      Earlier past (ofPages heap.schema heap.pages backing)

theorem Continues.trans (first : Continues past heap) (second : Continues heap next) :
    Continues past next :=
  ⟨second.ordered, second.schema_eq.trans first.schema_eq,
    fun id given => second.slots id (first.slots id given)⟩

theorem continues_reopened (ordered : heap.Ordered) (backing : Option PageFile) :
    Continues heap (ofPages heap.schema heap.pages backing) :=
  ⟨⟨rfl, ordered.in_order, ordered.page_number⟩, rfl, fun _ given => given⟩

/-- Slots that were given out at some time are given out ever after. -/
theorem Earlier.continues (earlier : Earlier past heap) : Continues past heap := by
  induction earlier with
  | now ordered => exact ordered.continues
  | inserted heap disk row _ ih => exact ih.trans (ih.ordered.insert disk row).1
  | deleted heap disk id _ ih => exact ih.trans (ih.ordered.delete disk id).1
  | reopened heap backing _ ih => exact ih.trans (continues_reopened ih.ordered backing)

/-- A slot that is not given out has never had a row. -/
theorem Earlier.bytesAt?_eq_none (earlier : Earlier past heap) (fresh : ¬ heap.HasSlot id) :
    past.bytesAt? id = none := by
  by_contra used
  obtain ⟨bytes, found⟩ := Option.ne_none_iff_exists'.mp used
  exact fresh (earlier.continues.slots id (hasSlot_of_bytesAt? found))

/-- Rows with their addresses in order are known from what they are, whatever their order. -/
theorem eq_of_perm (perm : rows.Perm others)
    (sorted : rows.Pairwise fun first second => first.1.Before second.1)
    (sortedOthers : others.Pairwise fun first second => first.1.Before second.1) : rows = others := by
  refine perm.eq_of_pairwise (fun first second _ _ before after => ?_) sorted sortedOthers
  exact absurd after before.asymm

/-- The rows of a table before and after an update. The rows that meet a condition lie at new addresses, in
a new form, and all others are where they were, in the same order. -/
structure Relocates (heap : HeapFile) (meets : Row → Bool) (becomes : Row → Row → Prop)
    (scanned rescanned : List (RowId × Row)) (ids : List RowId) : Prop where
  apart : (rescanned.map Prod.fst).Nodup
  distinct : ids.Nodup
  unused : ∀ id ∈ ids, ∀ past, Earlier past heap → past.bytesAt? id = none
  moved : List.Forall₂ (fun old id => ∃ row, (id, row) ∈ rescanned ∧ becomes old.2 row)
    (scanned.filter fun entry => meets entry.2) ids
  others : (rescanned.filter fun entry => entry.1 ∉ ids) = scanned.filter fun entry => !meets entry.2

theorem Reworked.relocates {meets : Row → Bool} {renew : Row → Row}
    (reworked : Reworked heap ((heap.rows.filter fun entry => meets entry.2).map Prod.fst)
      ((heap.rows.filter fun entry => meets entry.2).map fun entry => renew entry.2) next) :
    ∃ ids, Relocates heap meets (fun old new => new = renew old) heap.rows next.rows ids := by
  obtain ⟨ids, length_eq, fresh, perm⟩ := reworked
  rw [heap.filter_elsewhere] at perm
  have names : (ids.zip ((heap.rows.filter fun entry => meets entry.2).map fun entry =>
      renew entry.2)).map Prod.fst = ids := List.map_fst_zip (Nat.le_of_eq length_eq)
  rw [List.length_map] at length_eq
  refine ⟨ids, next.nodup_ids, ?distinct, ?unused, ?moved, ?others⟩
  case distinct =>
    have distinct := (perm.map Prod.fst).nodup_iff.mp next.nodup_ids
    rw [List.map_append, names] at distinct
    exact distinct.of_append_left
  case unused => exact fun id member past earlier => earlier.bytesAt?_eq_none (fresh id member)
  case moved =>
    refine List.forall₂_iff_zip.mpr ⟨length_eq.symm, fun {old id} paired => ?_⟩
    refine ⟨renew old.2, perm.mem_iff.mpr (List.mem_append_left _ ?_), rfl⟩
    rw [List.zip_map_right, ← List.zip_swap]
    exact List.mem_map.mpr ⟨(id, old), List.mem_map.mpr ⟨(old, id), paired, rfl⟩, rfl⟩
  case others =>
    have left := perm.filter fun entry => entry.1 ∉ ids
    rw [List.filter_append] at left
    have gone : (ids.zip ((heap.rows.filter fun entry => meets entry.2).map fun entry =>
        renew entry.2)).filter (fun entry => entry.1 ∉ ids) = [] := by
      rw [List.filter_eq_nil_iff]
      intro entry member
      have listed : entry.1 ∈ ids := names ▸ List.mem_map.mpr ⟨entry, member, rfl⟩
      simpa using listed
    have kept : (heap.rows.filter fun entry => !meets entry.2).filter (fun entry => entry.1 ∉ ids) =
        heap.rows.filter fun entry => !meets entry.2 := by
      rw [List.filter_eq_self]
      intro entry member
      have given := hasSlot_of_rowAt? ((heap.mem_rows _ _).mp (List.mem_of_mem_filter member))
      simpa using fun listed => fresh entry.1 listed given
    rw [gone, kept, List.nil_append] at left
    exact eq_of_perm left (next.pairwise_rows.filter _) (heap.pairwise_rows.filter _)

/-- The new form of each row may be described in other words. -/
theorem Relocates.mono {meets : Row → Bool} {renew : Row → Row} {becomes : Row → Row → Prop}
    {scanned rescanned : List (RowId × Row)}
    (relocates : Relocates heap meets (fun old new => new = renew old) scanned rescanned ids)
    (renews : ∀ entry ∈ scanned, becomes entry.2 (renew entry.2)) :
    Relocates heap meets becomes scanned rescanned ids := by
  obtain ⟨apart, distinct, unused, moved, others⟩ := relocates
  refine ⟨apart, distinct, unused, ?_, others⟩
  rw [List.forall₂_iff_zip] at moved ⊢
  refine ⟨moved.1, fun {old id} paired => ?_⟩
  obtain ⟨row, present, rfl⟩ := moved.2 paired
  exact ⟨renew old.2, present, renews old (List.mem_of_mem_filter (List.of_mem_zip paired).1)⟩

end RowStore.HeapFile
