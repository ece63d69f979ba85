import RowStore.Proofs.Heap.Change

/-!
The rows of a heap whose stored bytes all spell rows. A scan lists them with their addresses, each
once, and a call adds one of them, removes one, or leaves them as they are.
-/

namespace RowStore.HeapFile

variable {heap next : HeapFile} {bytes : List UInt8} {id : RowId} {row : Row} {disk after : Disk}

/-- Every row that stands at an address can be read. -/
def Readable (heap : HeapFile) : Prop :=
  ∀ id bytes, heap.bytesAt? id = some bytes → ∃ row, heap.decode bytes = .ok row

/-- The row at an address, if there is one and it can be read. -/
def rowAt? (heap : HeapFile) (id : RowId) : Option Row :=
  (heap.bytesAt? id).bind fun bytes => (heap.decode bytes).toOption

/-- The rows that can be read, with their addresses and in the order of these. -/
def rows (heap : HeapFile) : List (RowId × Row) :=
  heap.entries.filterMap fun (id, bytes) => (heap.decode bytes).toOption.map (id, ·)

theorem toOption_eq_some_iff {Error Answer : Type} (result : Except Error Answer)
    (answer : Answer) : result.toOption = some answer ↔ result = .ok answer := by
  cases result <;> simp [Except.toOption]

theorem rowAt?_eq_some_iff (heap : HeapFile) (id : RowId) (row : Row) :
    heap.rowAt? id = some row ↔
      ∃ bytes, heap.bytesAt? id = some bytes ∧ heap.decode bytes = .ok row := by
  simp only [rowAt?, Option.bind_eq_some_iff, toOption_eq_some_iff]

theorem mem_rows (heap : HeapFile) (id : RowId) (row : Row) :
    (id, row) ∈ heap.rows ↔ heap.rowAt? id = some row := by
  simp only [rows, rowAt?_eq_some_iff, List.mem_filterMap, Prod.exists, mem_entries,
    Option.map_eq_some_iff, toOption_eq_some_iff, Prod.mk.injEq]
  constructor
  · rintro ⟨_, bytes, found, _, decoded, rfl, rfl⟩
    exact ⟨bytes, found, decoded⟩
  · rintro ⟨bytes, found, decoded⟩
    exact ⟨id, bytes, found, row, decoded, rfl, rfl⟩

theorem pairwise_rows (heap : HeapFile) :
    heap.rows.Pairwise fun first second => first.1.Before second.1 := by
  rw [rows, List.pairwise_filterMap]
  apply heap.pairwise_entries.imp
  intro first second before one oneFound other otherFound
  obtain ⟨_, _, rfl⟩ := Option.map_eq_some_iff.mp oneFound
  obtain ⟨_, _, rfl⟩ := Option.map_eq_some_iff.mp otherFound
  exact before

theorem nodup_rows (heap : HeapFile) : heap.rows.Nodup :=
  heap.pairwise_rows.imp fun before same => before.ne (congrArg Prod.fst same)

theorem nodup_ids (heap : HeapFile) : (heap.rows.map Prod.fst).Nodup := by
  rw [List.Nodup, List.pairwise_map]
  exact heap.pairwise_rows.imp fun before => before.ne

theorem nodup_ids_filter (heap : HeapFile) (accepts : RowId × Row → Bool) :
    ((heap.rows.filter accepts).map Prod.fst).Nodup :=
  heap.nodup_ids.sublist (List.filter_sublist.map Prod.fst)

/-- The rows at other addresses than those of accepted rows are the rows that are not accepted. -/
theorem filter_elsewhere (heap : HeapFile) (accepts : Row → Bool) :
    heap.rows.filter (fun entry =>
      entry.1 ∉ (heap.rows.filter fun entry => accepts entry.2).map Prod.fst) =
      heap.rows.filter fun entry => !accepts entry.2 := by
  apply List.filter_congr
  intro entry member
  have among : entry.1 ∈ (heap.rows.filter fun entry => accepts entry.2).map Prod.fst ↔
      accepts entry.2 = true := by
    rw [List.mem_map]
    constructor
    · rintro ⟨other, found, same⟩
      obtain ⟨listed, accepted⟩ := List.mem_filter.mp found
      have row := (heap.mem_rows _ _).mp listed
      rw [same, (heap.mem_rows _ _).mp member, Option.some.injEq] at row
      rwa [row]
    · exact fun accepted => ⟨entry, List.mem_filter.mpr ⟨member, accepted⟩, rfl⟩
  simp only [among, decide_not, Bool.decide_eq_true]

/-- Two heaps with the same rows at the same addresses hold the same rows. -/
theorem rows_perm_of_rowAt? {rows : List (RowId × Row)} (distinct : rows.Nodup)
    (same : ∀ id row, (id, row) ∈ rows ↔ heap.rowAt? id = some row) : heap.rows.Perm rows := by
  rw [List.perm_ext_iff_of_nodup heap.nodup_rows distinct]
  intro ⟨id, row⟩
  rw [mem_rows, same]

namespace Readable

/-- Reading rows one after another passes over none where all can be read. -/
theorem mapM_entries {Answer Error : Type} (readable : heap.Readable)
    (read : RowId × List UInt8 → Except Error Answer)
    (use : RowId × Row → Except Error Answer)
    (agree : ∀ id bytes row, heap.decode bytes = .ok row → read (id, bytes) = use (id, row)) :
    heap.entries.mapM read = heap.rows.mapM use := by
  have listed : ∀ entry ∈ heap.entries, ∃ row, heap.decode entry.2 = .ok row := by
    intro ⟨id, bytes⟩ member
    exact readable id bytes ((heap.mem_entries id bytes).mp member)
  rw [rows]
  generalize heap.entries = entries at listed ⊢
  induction entries with
  | nil => rfl
  | cons entry rest ih =>
    obtain ⟨row, decoded⟩ := listed entry List.mem_cons_self
    rw [Outcome.mapM_cons, ih fun entry member => listed entry (List.mem_cons_of_mem _ member)]
    rw [List.filterMap_cons_some (b := (entry.1, row)) (by simp [decoded, Except.toOption]),
      Outcome.mapM_cons, agree entry.1 entry.2 row decoded]

theorem scanWithIds_eq (readable : heap.Readable) : heap.scanWithIds = .ok heap.rows := by
  have listed := readable.mapM_entries
    (fun entry => do return (entry.1, ← heap.decode entry.2)) (fun entry => (.ok entry : Except StorageError _))
    (fun id bytes row decoded => by simp only [decoded]; rfl)
  rw [scanWithIds]
  refine listed.trans ((Outcome.mapM_eq_ok_iff _ _ _).mpr ?_)
  exact List.forall₂_same.mpr fun _ _ => rfl

theorem scanWhere_eq {Error : Type} (readable : heap.Readable) (wrap : StorageError → Error)
    (test : Row → Except Error Bool) :
    heap.scanWhere wrap test = (heap.rows.mapM fun entry => test entry.2).map fun _ =>
      heap.rows.filter fun entry => (test entry.2).toOption.getD false := by
  have read := readable.mapM_entries
    (fun entry => do
      let row ← (heap.decode entry.2).mapError wrap
      return ((entry.1, row), ← test row))
    (fun entry => do return (entry, ← test entry.2))
    (fun id bytes row decoded => by rw [decoded]; rfl)
  rw [scanWhere]
  refine (congrArg (· >>= _) (read.trans (Outcome.mapM_marked _ _))).trans ?_
  cases heap.rows.mapM fun entry => test entry.2 with
  | error error => rfl
  | ok verdicts =>
    simp [Except.map, bind, Except.bind, pure, Except.pure, List.filter_map, Function.comp_def]

theorem of_scanWhere {Error : Type} {wrap : StorageError → Error} {test : Row → Except Error Bool}
    {found : List (RowId × Row)} (selected : heap.scanWhere wrap test = .ok found) : heap.Readable := by
  intro id bytes there
  rw [scanWhere, Outcome.bind_eq_ok_iff] at selected
  obtain ⟨_, read, _⟩ := selected
  obtain ⟨_, one⟩ := Outcome.exists_of_mapM_eq_ok read ((heap.mem_entries id bytes).mpr there)
  obtain ⟨row, decoded, _⟩ := Outcome.bind_eq_ok_iff.mp one
  exact ⟨row, Outcome.mapError_eq_ok_iff.mp decoded⟩

theorem get?_eq (readable : heap.Readable) (id : RowId) : heap.get? id = .ok (heap.rowAt? id) := by
  have same : (heap.pages[id.page]?.bind fun page => page.get? id.slot) = heap.bytesAt? id := rfl
  rw [get?, rowAt?, same]
  cases found : heap.bytesAt? id with
  | none => rfl
  | some bytes =>
    obtain ⟨row, decoded⟩ := readable id bytes found
    simp [decoded, Except.toOption, bind, Except.bind, pure, Except.pure]

end Readable

theorem exists_encode_of_checkInsertable (fits : heap.checkInsertable row = .ok ()) :
    ∃ bytes, heap.encode row = .ok bytes := by
  rw [checkInsertable, Outcome.bind_eq_ok_iff] at fits
  obtain ⟨bytes, encoded, _⟩ := fits
  exact ⟨bytes, encoded⟩

/-- The bytes that a heap takes for a row are read back as the row. -/
theorem decode_of_encode (encoded : heap.encode row = .ok bytes) : heap.decode bytes = .ok row := by
  obtain ⟨encoded, fits⟩ := (encode_eq_ok_iff heap row bytes).mp encoded
  have small : bytes.length < UInt32.size := Nat.lt_of_le_of_lt fits (by decide)
  have decoded := Row.decode_append_of_encode encoded small []
  rw [List.append_nil] at decoded
  rw [decode, decoded]
  rfl

theorem encode_congr (schema : next.schema = heap.schema) (row : Row) :
    next.encode row = heap.encode row := by
  rw [encode, encode, schema]

theorem decode_congr (schema : next.schema = heap.schema) (bytes : List UInt8) :
    next.decode bytes = heap.decode bytes := by
  rw [decode, decode, schema]

namespace Stored

theorem rowAt?_eq (stored : Stored heap bytes id next) (encoded : heap.encode row = .ok bytes)
    (other : RowId) : next.rowAt? other = if other = id then some row else heap.rowAt? other := by
  simp only [rowAt?, decode_congr stored.schema_eq]
  split
  · rename_i same
    rw [same, stored.bytes_new, Option.bind_some, decode_of_encode encoded]
    rfl
  · rename_i different
    rw [stored.bytes_other other different]

theorem rowAt?_before (stored : Stored heap bytes id next) : heap.rowAt? id = none := by
  cases found : heap.bytesAt? id with
  | none => rw [rowAt?, found, Option.bind_none]
  | some bytes => exact absurd (hasSlot_of_bytesAt? found) stored.fresh

theorem readable (stored : Stored heap bytes id next) (encoded : heap.encode row = .ok bytes)
    (readable : heap.Readable) : next.Readable := by
  intro other found present
  rw [decode_congr stored.schema_eq]
  by_cases same : other = id
  · rw [same, stored.bytes_new] at present
    cases present
    exact ⟨row, decode_of_encode encoded⟩
  · rw [stored.bytes_other other same] at present
    exact readable other found present

theorem rows_perm (stored : Stored heap bytes id next) (encoded : heap.encode row = .ok bytes) :
    next.rows.Perm ((id, row) :: heap.rows) := by
  have unused := stored.rowAt?_before
  apply rows_perm_of_rowAt?
  · rw [List.nodup_cons, mem_rows, unused]
    exact ⟨by simp, heap.nodup_rows⟩
  · intro other found
    rw [stored.rowAt?_eq encoded, List.mem_cons, mem_rows, Prod.mk.injEq]
    split
    · rename_i same
      rw [same, unused]
      simp [eq_comm]
    · rename_i different
      simp [different]

end Stored

namespace Removed

theorem rowAt?_eq (removed : Removed heap id next) (other : RowId) :
    next.rowAt? other = if other = id then none else heap.rowAt? other := by
  simp only [rowAt?, decode_congr removed.schema_eq]
  split
  · rename_i same
    rw [same, removed.bytes_removed, Option.bind_none]
  · rename_i different
    rw [removed.bytes_other other different]

theorem readable (removed : Removed heap id next) (readable : heap.Readable) : next.Readable := by
  intro other found present
  rw [decode_congr removed.schema_eq]
  by_cases same : other = id
  · rw [same, removed.bytes_removed] at present
    cases present
  · rw [removed.bytes_other other same] at present
    exact readable other found present

theorem rows_perm (removed : Removed heap id next) :
    next.rows.Perm (heap.rows.filter fun entry => entry.1 ≠ id) := by
  apply rows_perm_of_rowAt? (heap.nodup_rows.filter _)
  intro other row
  rw [removed.rowAt?_eq, List.mem_filter, mem_rows]
  split <;> simp_all

end Removed

theorem Inserts.readable {answer : Except StorageError RowId} (sound : heap.Sound)
    (readable : heap.Readable) (inserts : Inserts heap disk row answer next after) :
    next.Readable := by
  cases inserts with
  | rejected => exact readable
  | refused => exact readable
  | stored bytes change encoded placed taken =>
    exact (placed.stored sound).readable encoded readable

theorem Deletes.readable {answer : Except StorageError Bool} (sound : heap.Sound)
    (readable : heap.Readable) (deletes : Deletes heap disk id answer next after) :
    next.Readable := by
  cases deletes with
  | absent => exact readable
  | refused => exact readable
  | deleted bytes change found erased taken => exact (erased.removed sound).readable readable

end RowStore.HeapFile
