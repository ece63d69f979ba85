import RowStore.Proofs.Heap.Calls

/-!
Storing a list of rows. Where all of them are taken the heap has grown by them and by nothing else;
where one is not, the rows before it are stored all the same.
-/

namespace RowStore.HeapFile

/-- What storing rows one after another does, up to the first that is not taken. -/
inductive Stores : HeapFile → Disk → List Row → Except StorageError Unit → HeapFile → Disk → Prop where
  | none (heap : HeapFile) (disk : Disk) : Stores heap disk [] (.ok ()) heap disk
  | stored {heap middle next : HeapFile} {disk between after : Disk} {row : Row} {rows : List Row}
      {result : Except StorageError Unit} (id : RowId)
      (inserts : Inserts heap disk row (.ok id) middle between)
      (later : Stores middle between rows result next after) :
      Stores heap disk (row :: rows) result next after
  | failed {heap next : HeapFile} {disk after : Disk} {row : Row} {rows : List Row}
      (error : StorageError) (inserts : Inserts heap disk row (.error error) next after) :
      Stores heap disk (row :: rows) (.error error) next after

variable {heap middle next : HeapFile} {disk between after : Disk} {rows : List Row} {row : Row}
  {result : Except StorageError Unit}

/-- A heap that has grown by some rows, each at an address where there was none, while all other
addresses are as they were. -/
def Grown (heap : HeapFile) (rows : List Row) (next : HeapFile) : Prop :=
  ∃ ids : List RowId, ids.Nodup ∧ (∀ id ∈ ids, ¬ heap.HasSlot id) ∧
    (∀ id, id ∉ ids → next.bytesAt? id = heap.bytesAt? id) ∧
    List.Forall₂ (fun id row => next.rowAt? id = some row) ids rows

theorem Sound.stores (sound : heap.Sound) (disk : Disk) (rows : List Row) :
    Stores heap disk rows ((rows.forM fun row => discard (insert row)).runOn (heap, disk)).1
      ((rows.forM fun row => discard (insert row)).runOn (heap, disk)).2.1
      ((rows.forM fun row => discard (insert row)).runOn (heap, disk)).2.2 := by
  induction rows generalizing heap disk with
  | nil => exact .none heap disk
  | cons row rest ih =>
    rw [Step.runOn_forM_cons, Step.runOn_discard]
    have inserts := sound.inserts disk row
    generalize (insert row).runOn (heap, disk) = outcome at inserts
    obtain ⟨answer, middle, between⟩ := outcome
    cases answer with
    | error error => exact .failed error inserts
    | ok id => exact .stored id inserts (ih (inserts.sound sound) between)

theorem rowAt?_congr {id : RowId} (schema : next.schema = heap.schema)
    (bytes : next.bytesAt? id = heap.bytesAt? id) : next.rowAt? id = heap.rowAt? id := by
  simp only [rowAt?, bytes, decode_congr schema]

/-- A row that was taken is stored at the address that was answered. -/
theorem Inserts.exists_stored {id : RowId} (sound : heap.Sound)
    (inserts : Inserts heap disk row (.ok id) next after) :
    ∃ bytes, heap.encode row = .ok bytes ∧ Stored heap bytes id next := by
  cases inserts with
  | stored bytes change encoded placed taken => exact ⟨bytes, encoded, placed.stored sound⟩

namespace Stores

theorem calls (stores : Stores heap disk rows result next after) : Calls heap disk next after := by
  induction stores with
  | none heap disk => exact .none
  | stored id inserts _ ih => exact (Calls.insert _ _ _ _ _ _ .none inserts).trans ih
  | failed error inserts => exact .insert _ _ _ _ _ _ .none inserts

theorem grown (sound : heap.Sound) (stores : Stores heap disk rows result next after)
    (succeeded : result = .ok ()) : Grown heap rows next := by
  induction stores with
  | none heap disk => exact ⟨[], .nil, by simp, by simp, .nil⟩
  | failed error inserts => cases succeeded
  | @stored heap middle next disk between after row rows result id inserts later ih =>
    obtain ⟨bytes, encoded, stored⟩ := inserts.exists_stored sound
    obtain ⟨ids, distinct, unused, kept, present⟩ := ih (inserts.sound sound) succeeded
    have new : id ∉ ids := by
      intro member
      exact unused id member ((stored.slots id).mpr (.inl rfl))
    refine ⟨id :: ids, List.nodup_cons.mpr ⟨new, distinct⟩, ?unused, ?kept, .cons ?first present⟩
    case unused =>
      intro other member
      rcases List.mem_cons.mp member with rfl | member
      · exact stored.fresh
      · intro given
        exact unused other member ((stored.slots other).mpr (.inr given))
    case kept =>
      intro other outside
      rw [List.mem_cons, not_or] at outside
      rw [kept other outside.2, stored.bytes_other other outside.1]
    case first =>
      rw [rowAt?_congr later.calls.schema_eq (kept id new), stored.rowAt?_eq encoded, if_pos rfl]

/-- The rows of the heap are those it had and those it has grown by. -/
theorem rows_perm (sound : heap.Sound) (stores : Stores heap disk rows result next after)
    (succeeded : result = .ok ()) :
    (next.rows.map Prod.snd).Perm (rows ++ heap.rows.map Prod.snd) := by
  induction stores with
  | none heap disk => exact .refl _
  | failed error inserts => cases succeeded
  | @stored heap middle next disk between after row rows result id inserts later ih =>
    obtain ⟨bytes, encoded, stored⟩ := inserts.exists_stored sound
    have first := (stored.rows_perm encoded).map Prod.snd
    have rest := ih (inserts.sound sound) succeeded
    rw [List.map_cons] at first
    exact rest.trans ((first.append_left rows).trans List.perm_middle)

/-- A slot that was given out stays given out. -/
theorem hasSlot (sound : heap.Sound) (stores : Stores heap disk rows result next after) {id : RowId}
    (given : heap.HasSlot id) : next.HasSlot id := by
  induction stores with
  | none heap disk => exact given
  | @stored heap middle next disk between after row rows result new inserts later ih =>
    obtain ⟨bytes, encoded, stored⟩ := inserts.exists_stored sound
    exact ih (inserts.sound sound) ((stored.slots id).mpr (.inr given))
  | failed error inserts => cases inserts <;> exact given

/-- Where the disk takes all writes, rows are stored exactly if the heap takes each of them. -/
theorem result_eq_ok_iff (stores : Stores heap disk rows result next after)
    (takes : ∀ write, disk.refuses write = false) :
    result = .ok () ↔ ∀ row ∈ rows, ∃ bytes, heap.encode row = .ok bytes := by
  induction stores with
  | none heap disk => simp
  | @stored heap middle next disk between after row rows result new inserts later ih =>
    have calls : Calls heap disk middle between := .insert _ _ _ _ _ _ .none inserts
    rw [ih fun write => by rw [calls.refuses_eq, takes]]
    have same := encode_congr calls.schema_eq
    cases inserts with
    | stored bytes change encoded placed taken => simp [same, encoded]
  | failed error inserts =>
    cases inserts with
    | rejected cause rejection => simp [rejection]
    | refused bytes encoded refusal => simp [Refused, takes] at refusal

end Stores

end RowStore.HeapFile
