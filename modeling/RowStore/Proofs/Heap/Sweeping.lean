import RowStore.Proofs.Heap.Storing

/-!
Sweeps over a heap: the rows at some addresses deleted, or each exchanged for another. On a disk that
takes all writes a sweep succeeds, and no other row of the heap is touched.
-/

namespace RowStore.HeapFile

variable {heap middle next : HeapFile} {disk between after : Disk} {id : RowId} {row : Row}

/-- The deletions that a statement makes. -/
def deleteAll (found : List (RowId × Row)) : Step (HeapFile × Disk) StorageError (List Bool) :=
  found.mapM fun (id, _) => delete id

/-- The exchanges that a statement makes. -/
def exchangeAll (revisions : List (RowId × Row)) : Step (HeapFile × Disk) StorageError Unit :=
  revisions.forM fun (id, row) => do
    discard (delete id)
    discard (insert row)

theorem hasSlot_of_rowAt? (found : heap.rowAt? id = some row) : heap.HasSlot id := by
  obtain ⟨bytes, stored, _⟩ := (rowAt?_eq_some_iff heap id row).mp found
  exact hasSlot_of_bytesAt? stored

theorem calls_deleteAll (sound : heap.Sound) (disk : Disk) (found : List (RowId × Row)) :
    Calls heap disk ((deleteAll found).runOn (heap, disk)).2.1
      ((deleteAll found).runOn (heap, disk)).2.2 :=
  Calls.mapM sound disk found fun entry _ disk sound => calls_delete sound disk entry.1

theorem calls_exchangeAll (sound : heap.Sound) (disk : Disk) (revisions : List (RowId × Row)) :
    Calls heap disk ((exchangeAll revisions).runOn (heap, disk)).2.1
      ((exchangeAll revisions).runOn (heap, disk)).2.2 :=
  Calls.forM sound disk revisions fun entry _ disk sound => calls_exchange sound disk entry.1 entry.2

/-- Whether the file behind a heap refuses the write that comes after a number of others. -/
def RefusesAfter (heap : HeapFile) (disk : Disk) (count : Nat) : Prop :=
  heap.backing.isSome = true ∧ disk.refuses (disk.writes + count) = true

theorem refusesAfter_afterWrite (backing : next.backing = heap.backing) (number : Nat) (page : Page)
    (count : Nat) :
    next.RefusesAfter (afterWrite heap number page disk) count ↔ heap.RefusesAfter disk (count + 1) := by
  rw [RefusesAfter, RefusesAfter, backing, refuses_afterWrite]
  refine and_congr_right fun behind => ?_
  obtain ⟨file, behind⟩ := Option.isSome_iff_exists.mp behind
  have counted : (afterWrite heap number page disk).writes + count = disk.writes + (count + 1) := by
    simp only [afterWrite, behind, Disk.modifyContents, afterRefusal]
    omega
  rw [counted]

/-- A row that is there is deleted exactly if the disk takes the write. -/
theorem Deletes.written {answer : Except StorageError Bool} (sound : heap.Sound)
    (found : heap.rowAt? id = some row) (deletes : Deletes heap disk id answer next after) :
    heap.RefusesAfter disk 0 ∧ answer = .error (.disk .writesRefused) ∧ next = heap ∨
      ¬ heap.RefusesAfter disk 0 ∧ answer = .ok true ∧ Removed heap id next ∧
        ∀ count, next.RefusesAfter after count ↔ heap.RefusesAfter disk (count + 1) := by
  cases deletes with
  | absent missing => simp [rowAt?, missing] at found
  | refused bytes found refusal => exact .inl ⟨refusal, rfl, rfl⟩
  | deleted bytes change found erased taken =>
    exact .inr ⟨taken, rfl, erased.removed sound, refusesAfter_afterWrite erased.replaced.backing_eq _ _⟩

/-- A row that can be encoded is stored exactly if the disk takes the write. -/
theorem Inserts.written {bytes : List UInt8} {answer : Except StorageError RowId} (sound : heap.Sound)
    (encoded : heap.encode row = .ok bytes) (inserts : Inserts heap disk row answer next after) :
    heap.RefusesAfter disk 0 ∧ answer = .error (.disk .writesRefused) ∧ next = heap ∨
      ¬ heap.RefusesAfter disk 0 ∧ (∃ new, answer = .ok new ∧ Stored heap bytes new next) ∧
        ∀ count, next.RefusesAfter after count ↔ heap.RefusesAfter disk (count + 1) := by
  cases inserts with
  | rejected cause rejection => cases rejection.symm.trans encoded
  | refused given _ refusal => exact .inl ⟨refusal, rfl, rfl⟩
  | stored given change encodedAgain placed taken =>
    cases encodedAgain.symm.trans encoded
    exact .inr ⟨taken, ⟨change.answer, rfl, placed.stored sound⟩,
      refusesAfter_afterWrite placed.replaced.backing_eq _ _⟩

theorem not_refusesAfter (takes : ∀ write, disk.refuses write = false) (count : Nat) :
    ¬ heap.RefusesAfter disk count := by
  rintro ⟨_, refused⟩
  rw [takes] at refused
  cases refused

/-- Deleting the rows at some addresses leaves the rows at all others. -/
theorem rows_deleteAll (sound : heap.Sound) (takes : ∀ write, disk.refuses write = false)
    (found : List (RowId × Row)) (distinct : (found.map Prod.fst).Nodup)
    (present : ∀ entry ∈ found, heap.rowAt? entry.1 = some entry.2) :
    ((deleteAll found).runOn (heap, disk)).1 = .ok (List.replicate found.length true) ∧
      ((deleteAll found).runOn (heap, disk)).2.1.rows.Perm
        (heap.rows.filter fun entry => entry.1 ∉ found.map Prod.fst) := by
  induction found generalizing heap disk with
  | nil =>
    refine ⟨rfl, ?_⟩
    simp only [List.map_nil, List.not_mem_nil, not_false_eq_true, decide_true, List.filter_true]
    exact .refl _
  | cons entry rest ih =>
    obtain ⟨id, row⟩ := entry
    rw [List.map_cons, List.nodup_cons] at distinct
    have deletes := sound.deletes disk id
    rw [deleteAll, Step.runOn_mapM_cons]
    generalize (delete id).runOn (heap, disk) = outcome at deletes
    obtain ⟨answer, middle, between⟩ := outcome
    obtain ⟨refusal, _⟩ | ⟨_, rfl, removed, _⟩ := deletes.written sound (present _ List.mem_cons_self)
    · exact absurd refusal (not_refusesAfter takes 0)
    have later : ∀ entry ∈ rest, middle.rowAt? entry.1 = some entry.2 := by
      intro entry member
      rw [removed.rowAt?_eq, if_neg, present entry (List.mem_cons_of_mem _ member)]
      intro same
      exact distinct.1 (List.mem_map.mpr ⟨entry, member, same⟩)
    obtain ⟨done, perm⟩ := ih (deletes.sound sound)
      (fun write => by rw [deletes.refuses_eq, takes]) distinct.2 later
    rw [deleteAll] at done perm
    refine ⟨by simp only [done]; rfl, perm.trans ?_⟩
    refine (removed.rows_perm.filter _).trans (.of_eq ?_)
    rw [List.filter_filter]
    apply List.filter_congr
    intro entry _
    simp only [List.map_cons, List.mem_cons, not_or, Bool.decide_and, Bool.and_comm, ne_eq]

/-- A heap in which the row at an address was exchanged for another, which lies at a new address. -/
structure Exchanged (heap : HeapFile) (id : RowId) (row : Row) (new : RowId) (next : HeapFile) :
    Prop where
  sound : next.Sound
  schema_eq : next.schema = heap.schema
  slots : ∀ other, heap.HasSlot other → next.HasSlot other
  fresh : ¬ heap.HasSlot new
  rowAt?_eq : ∀ other, next.rowAt? other =
    if other = new then some row else if other = id then none else heap.rowAt? other
  rows_perm : next.rows.Perm ((new, row) :: heap.rows.filter fun entry => entry.1 ≠ id)

theorem Exchanged.rowAt?_of_given {new other : RowId} (exchanged : Exchanged heap id row new next)
    (given : heap.HasSlot other) (kept : other ≠ id) : next.rowAt? other = heap.rowAt? other := by
  have unlike : other ≠ new := fun same => exchanged.fresh (same ▸ given)
  rw [exchanged.rowAt?_eq, if_neg unlike, if_neg kept]

/-- What exchanging a row that is there for one that fits does: there are two writes, one without the old
row and then one with the new. -/
inductive Exchanges (heap : HeapFile) (disk : Disk) (id : RowId) (row : Row) :
    Except StorageError Unit → HeapFile → Disk → Prop where
  | kept (after : Disk) (refusal : heap.RefusesAfter disk 0) :
      Exchanges heap disk id row (.error (.disk .writesRefused)) heap after
  | lost (next : HeapFile) (after : Disk) (removed : Removed heap id next)
      (taken : ¬ heap.RefusesAfter disk 0) (refusal : heap.RefusesAfter disk 1) :
      Exchanges heap disk id row (.error (.disk .writesRefused)) next after
  | exchanged (new : RowId) (next : HeapFile) (after : Disk) (exchanged : Exchanged heap id row new next)
      (taken : ¬ heap.RefusesAfter disk 0) (takenNext : ¬ heap.RefusesAfter disk 1)
      (later : ∀ count, next.RefusesAfter after count ↔ heap.RefusesAfter disk (count + 2)) :
      Exchanges heap disk id row (.ok ()) next after

theorem Sound.exchanges {old : Row} {bytes : List UInt8} (sound : heap.Sound) (disk : Disk)
    (there : heap.rowAt? id = some old) (encoded : heap.encode row = .ok bytes) :
    Exchanges heap disk id row
      ((do discard (delete id); discard (insert row) : Step _ _ _).runOn (heap, disk)).1
      ((do discard (delete id); discard (insert row) : Step _ _ _).runOn (heap, disk)).2.1
      ((do discard (delete id); discard (insert row) : Step _ _ _).runOn (heap, disk)).2.2 := by
  have deletes := sound.deletes disk id
  simp only [Step.runOn_bind, Step.runOn_discard]
  generalize (delete id).runOn (heap, disk) = outcome at deletes
  obtain ⟨answer, middle, between⟩ := outcome
  obtain ⟨refusal, rfl, rfl⟩ | ⟨taken, rfl, removed, further⟩ := deletes.written sound there
  · exact .kept _ refusal
  · have soundMiddle := deletes.sound sound
    have encodedMiddle : middle.encode row = .ok bytes := (encode_congr removed.schema_eq row).trans encoded
    have inserts := soundMiddle.inserts between row
    simp only [Except.map]
    generalize (insert row).runOn (middle, between) = outcome at inserts
    obtain ⟨answer, next, after⟩ := outcome
    obtain ⟨refusal, rfl, rfl⟩ | ⟨takenNext, ⟨new, rfl, stored⟩, later⟩ :=
      inserts.written soundMiddle encodedMiddle
    · exact .lost _ _ removed taken ((further 0).mp refusal)
    · refine .exchanged new next after ?_ taken (fun refusal => takenNext ((further 0).mpr refusal))
        fun count => (later count).trans (further (count + 1))
      constructor
      case sound => exact inserts.sound soundMiddle
      case schema_eq => rw [stored.schema_eq, removed.schema_eq]
      case slots =>
        exact fun other given => (stored.slots other).mpr (.inr ((removed.slots other).mpr given))
      case fresh => exact fun given => stored.fresh ((removed.slots _).mpr given)
      case rowAt?_eq => exact fun other => by rw [stored.rowAt?_eq encodedMiddle, removed.rowAt?_eq]
      case rows_perm => exact (stored.rows_perm encodedMiddle).trans (.cons _ removed.rows_perm)

/-- A row that is there is exchanged for one that can be encoded where the disk takes the writes. -/
theorem Sound.exchanged {old : Row} {bytes : List UInt8} (sound : heap.Sound)
    (takes : ∀ write, disk.refuses write = false) (there : heap.rowAt? id = some old)
    (encoded : heap.encode row = .ok bytes) :
    ∃ new next after,
      (do discard (delete id); discard (insert row) : Step _ _ _).runOn (heap, disk) =
        (.ok (), next, after) ∧
      Exchanged heap id row new next ∧ after.refuses = disk.refuses := by
  have exchanges := sound.exchanges disk there encoded
  have calls := calls_exchange sound disk id row
  generalize (do discard (delete id); discard (insert row) : Step _ _ _).runOn (heap, disk) = outcome
    at exchanges calls ⊢
  obtain ⟨answer, next, after⟩ := outcome
  cases exchanges with
  | kept _ refusal => exact absurd refusal (not_refusesAfter takes 0)
  | lost _ _ _ _ refusal => exact absurd refusal (not_refusesAfter takes 1)
  | exchanged new _ _ exchanged => exact ⟨new, next, after, rfl, exchanged, calls.refuses_eq⟩

/-- A heap without the rows at some addresses and with some more rows, each at an address that was not
given out before. -/
def Reworked (heap : HeapFile) (gone : List RowId) (added : List Row) (next : HeapFile) : Prop :=
  ∃ ids : List RowId, ids.length = added.length ∧ (∀ id ∈ ids, ¬ heap.HasSlot id) ∧
    next.rows.Perm (ids.zip added ++ heap.rows.filter fun entry => entry.1 ∉ gone)

namespace Reworked

variable {gone : List RowId} {added : List Row}

theorem refl (heap : HeapFile) : Reworked heap [] [] heap :=
  ⟨[], rfl, by simp, by simp⟩

theorem of_removed (removed : Removed heap id next) : Reworked heap [id] [] next :=
  ⟨[], rfl, by simp, by simpa using removed.rows_perm⟩

theorem of_exchanged {new : RowId} (exchanged : Exchanged heap id row new middle)
    (given : ∀ id ∈ gone, heap.HasSlot id) (reworked : Reworked middle gone added next) :
    Reworked heap (id :: gone) (row :: added) next := by
  obtain ⟨ids, length_eq, fresh, perm⟩ := reworked
  refine ⟨new :: ids, by simp [length_eq], ?fresh, ?perm⟩
  case fresh =>
    intro other member
    rcases List.mem_cons.mp member with rfl | member
    · exact exchanged.fresh
    · exact fun before => fresh other member (exchanged.slots other before)
  case perm =>
    -- the new address is none of those whose rows are gone
    have unused : new ∉ gone := fun member => exchanged.fresh (given new member)
    have left := exchanged.rows_perm.filter fun entry => entry.1 ∉ gone
    rw [List.filter_cons_of_pos (by simpa using unused), List.filter_filter] at left
    refine (perm.trans (left.append_left _)).trans (List.perm_middle.trans (.of_eq ?_))
    rw [List.zip_cons_cons, List.cons_append]
    congr 2
    apply List.filter_congr
    intro entry _
    simp only [List.mem_cons, not_or, Bool.decide_and, Bool.and_comm, ne_eq]

/-- The rows of such a heap, whatever their addresses. -/
theorem map_snd_perm (reworked : Reworked heap gone added next) :
    (next.rows.map Prod.snd).Perm
      (added ++ (heap.rows.filter fun entry => entry.1 ∉ gone).map Prod.snd) := by
  obtain ⟨ids, length_eq, _, perm⟩ := reworked
  have rows := perm.map Prod.snd
  rwa [List.map_append, List.map_snd_zip length_eq.ge] at rows

end Reworked

/-- What exchanging rows one after another does: it goes on up to the first write that is refused. Then
as many rows are gone as were deleted, and as many have taken their places as were stored. -/
theorem reworked_exchangeAll (sound : heap.Sound) (disk : Disk) (revisions : List (RowId × Row))
    (distinct : (revisions.map Prod.fst).Nodup)
    (present : ∀ entry ∈ revisions, ∃ row, heap.rowAt? entry.1 = some row)
    (fit : ∀ entry ∈ revisions, ∃ bytes, heap.encode entry.2 = .ok bytes) :
    ∃ count, (∀ earlier < count, ¬ heap.RefusesAfter disk earlier) ∧
      (count = 2 * revisions.length ∧ ((exchangeAll revisions).runOn (heap, disk)).1 = .ok () ∨
        count < 2 * revisions.length ∧ heap.RefusesAfter disk count ∧
          ((exchangeAll revisions).runOn (heap, disk)).1 = .error (.disk .writesRefused)) ∧
      Reworked heap ((revisions.take ((count + 1) / 2)).map Prod.fst)
        ((revisions.take (count / 2)).map Prod.snd)
        ((exchangeAll revisions).runOn (heap, disk)).2.1 := by
  induction revisions generalizing heap disk with
  | nil => exact ⟨0, by simp, .inl ⟨rfl, rfl⟩, .refl _⟩
  | cons entry rest ih =>
    obtain ⟨id, row⟩ := entry
    rw [List.map_cons, List.nodup_cons] at distinct
    obtain ⟨old, there⟩ := present _ List.mem_cons_self
    obtain ⟨bytes, encoded⟩ := fit _ List.mem_cons_self
    have exchanges := sound.exchanges disk there encoded
    rw [exchangeAll, Step.runOn_forM_cons]
    generalize (do discard (delete id); discard (insert row) : Step _ _ _).runOn (heap, disk) = outcome
      at exchanges
    obtain ⟨answer, middle, between⟩ := outcome
    cases exchanges with
    | kept _ refusal => exact ⟨0, by simp, .inr ⟨by simp, refusal, rfl⟩, .refl _⟩
    | lost _ _ removed taken refusal =>
      refine ⟨1, fun earlier before => ?_, .inr ⟨by simp only [List.length_cons]; omega, refusal, rfl⟩,
        .of_removed removed⟩
      rwa [Nat.lt_one_iff.mp before]
    | exchanged new _ _ exchanged taken takenNext later =>
      have given : ∀ entry ∈ rest, heap.HasSlot entry.1 := fun entry among =>
        have ⟨_, found⟩ := present entry (List.mem_cons_of_mem _ among)
        hasSlot_of_rowAt? found
      have presentLater : ∀ entry ∈ rest, ∃ row, middle.rowAt? entry.1 = some row := by
        intro entry member
        have kept : entry.1 ≠ id := fun same => distinct.1 (List.mem_map.mpr ⟨entry, member, same⟩)
        rw [exchanged.rowAt?_of_given (given entry member) kept]
        exact present entry (List.mem_cons_of_mem _ member)
      have fitLater : ∀ entry ∈ rest, ∃ bytes, middle.encode entry.2 = .ok bytes := by
        intro entry member
        rw [encode_congr exchanged.schema_eq]
        exact fit entry (List.mem_cons_of_mem _ member)
      obtain ⟨count, before, stopped, reworked⟩ :=
        ih exchanged.sound between distinct.2 presentLater fitLater
      simp only [later] at before stopped
      refine ⟨count + 2, ?taken, ?stopped, ?reworked⟩
      case taken =>
        rintro (_ | _ | earlier) less
        · exact taken
        · exact takenNext
        · exact before earlier (by omega)
      case stopped =>
        rw [List.length_cons]
        rcases stopped with ⟨rfl, done⟩ | ⟨less, refusal, failed⟩
        · exact .inl ⟨by omega, done⟩
        · exact .inr ⟨by omega, refusal, failed⟩
      case reworked =>
        have deleted : (count + 2 + 1) / 2 = (count + 1) / 2 + 1 := by omega
        have stored : (count + 2) / 2 = count / 2 + 1 := by omega
        rw [deleted, stored, List.take_succ_cons, List.take_succ_cons, List.map_cons, List.map_cons]
        refine .of_exchanged exchanged (fun other member => ?_) reworked
        obtain ⟨entry, among, rfl⟩ := List.mem_map.mp member
        exact given entry (List.mem_of_mem_take among)

/-- Exchanging the rows at some addresses leaves the rows at all others and adds the new ones. -/
theorem rows_exchangeAll (sound : heap.Sound) (takes : ∀ write, disk.refuses write = false)
    (revisions : List (RowId × Row)) (distinct : (revisions.map Prod.fst).Nodup)
    (present : ∀ entry ∈ revisions, ∃ row, heap.rowAt? entry.1 = some row)
    (fit : ∀ entry ∈ revisions, ∃ bytes, heap.encode entry.2 = .ok bytes) :
    ((exchangeAll revisions).runOn (heap, disk)).1 = .ok () ∧
      (((exchangeAll revisions).runOn (heap, disk)).2.1.rows.map Prod.snd).Perm
        (revisions.map Prod.snd ++
          (heap.rows.filter fun entry => entry.1 ∉ revisions.map Prod.fst).map Prod.snd) := by
  obtain ⟨count, _, ⟨rfl, done⟩ | ⟨_, refusal, _⟩, reworked⟩ :=
    reworked_exchangeAll sound disk revisions distinct present fit
  · rw [List.take_of_length_le (by omega), List.take_of_length_le (by omega)] at reworked
    exact ⟨done, reworked.map_snd_perm⟩
  · exact absurd refusal (not_refusesAfter takes count)

end RowStore.HeapFile
