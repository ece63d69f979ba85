import RowStore.Proofs.Heap.Placing

/-!
Rows in the order in which they were stored. A row goes to the first page with room for it, so a short
row may come to lie before longer ones that were stored earlier. As long as no row is shorter than one
stored before it, every page but the last stays too full for all rows to come, each row lies behind all
others, and a scan lists rows in the order in which they were stored.
-/

namespace RowStore.HeapFile

/-- The row that an event stores, with the address that is answered. -/
def Event.stored? : Event → Option (RowId × Row)
  | .insert row (.ok id) => some (id, row)
  | _ => none

/-- A row that is stored comes last, and one that is deleted drops out. -/
def Event.queue (rows : List (RowId × Row)) : Event → List (RowId × Row)
  | .insert row (.ok id) => rows ++ [(id, row)]
  | .delete id (.ok true) => rows.filter fun entry => entry.1 ≠ id
  | _ => rows

/-- The rows that were stored and not deleted since, in the order in which they were stored. -/
def queued (history : List Event) : List (RowId × Row) := history.foldl Event.queue []

/-- No row is stored that takes fewer bytes than one stored before it. Rows that are not taken do not
count. -/
def NeverShrinks (schema : Schema) (history : List Event) : Prop :=
  (history.filterMap Event.stored?).Pairwise fun earlier later =>
    earlier.2.width schema.columns.length ≤ later.2.width schema.columns.length

/-- Addresses are given out in ascending order, and a scan lists rows in the order in which they were
stored. -/
structure InSuccession (history : List Event) (heap : HeapFile) : Prop where
  ascending : (history.filterMap Event.newId?).Pairwise RowId.Before
  scanWithIds_eq : heap.scanWithIds = .ok (queued history)
  scan_eq : heap.scan = .ok ((queued history).map Prod.snd)

variable {history : List Event} {event : Event} {heap next : HeapFile} {disk after : Disk}
  {id : RowId} {row : Row} {schema : Schema}

theorem queued_concat (history : List Event) (event : Event) :
    queued (history ++ [event]) = event.queue (queued history) := by
  rw [queued, queued, List.foldl_append, List.foldl_cons, List.foldl_nil]

theorem map_fst_stored (history : List Event) :
    (history.filterMap Event.stored?).map Prod.fst = history.filterMap Event.newId? := by
  rw [List.map_filterMap]
  congr 1
  funext event
  cases event with
  | insert row answer => cases answer <;> rfl
  | delete id answer => rfl

theorem NeverShrinks.of_append {later : List Event} (growing : NeverShrinks schema (history ++ later)) :
    NeverShrinks schema history := by
  rw [NeverShrinks, List.filterMap_append] at growing
  exact (List.pairwise_append.mp growing).1

/-- The row that a call is to store. -/
def Call.row? : Call → Option Row
  | .insert row => some row
  | .delete _ => none

theorem stored_sublist (calls : List Call) (state : HeapFile × Disk) :
    (((performAll calls state).1.filterMap Event.stored?).map Prod.snd).Sublist
      (calls.filterMap Call.row?) := by
  induction calls generalizing state with
  | nil => exact .slnil
  | cons call rest ih =>
    have later := ih (call.perform state).2
    cases call with
    | insert row =>
      cases answer : ((HeapFile.insert row).runOn state).1 with
      | ok id =>
        simp only [performAll, Call.perform, answer, List.filterMap_cons, Event.stored?, Call.row?,
          List.map_cons]
        exact later.cons_cons row
      | error error =>
        simp only [performAll, Call.perform, answer, List.filterMap_cons, Event.stored?, Call.row?]
        exact later.cons row
    | delete id =>
      simp only [performAll, Call.perform, List.filterMap_cons, Event.stored?, Call.row?]
      exact later

/-- Calls that never ask for a row shorter than an earlier one store no such row. -/
theorem neverShrinks_of_calls (calls : List Call) (state : HeapFile × Disk)
    (growing : (calls.filterMap Call.row?).Pairwise fun earlier later =>
      earlier.width schema.columns.length ≤ later.width schema.columns.length) :
    NeverShrinks schema (performAll calls state).1 := by
  have stored := growing.sublist (stored_sublist calls state)
  rwa [List.pairwise_map] at stored

/-- Rows in the order of their addresses are told by which they are. -/
theorem eq_of_perm_of_before {rows others : List (RowId × Row)} (perm : rows.Perm others)
    (ascending : rows.Pairwise fun first second => first.1.Before second.1)
    (alike : others.Pairwise fun first second => first.1.Before second.1) : rows = others :=
  perm.eq_of_pairwise (fun _ _ _ _ before behind => absurd behind before.asymm) ascending alike

theorem page_lt_of_hasSlot (given : heap.HasSlot id) : id.page < heap.pages.length := by
  by_contra beyond
  rw [HasSlot, pageAt, List.getElem?_eq_none (Nat.le_of_not_lt beyond), Option.getD_none,
    Page.slotCount_empty] at given
  exact Nat.not_lt_zero _ given

/-- The invariant of a run: rows stand in the order in which they were stored, and each page but the last
has too little room for some row that was stored, so for every row to come as well. -/
structure Lined (schema : Schema) (history : List Event) (heap : HeapFile) : Prop where
  sound : heap.Sound
  readable : heap.Readable
  schema_eq : heap.schema = schema
  rows_eq : heap.rows = queued history
  ascending : (history.filterMap Event.newId?).Pairwise RowId.Before
  given : ∀ id ∈ history.filterMap Event.newId?, heap.HasSlot id
  full : ∀ number page, heap.pages[number]? = some page → number + 1 < heap.pages.length →
    ∃ entry ∈ history.filterMap Event.stored?,
      page.freeSpace < entry.2.width schema.columns.length + slotSize

namespace Lined

theorem of_fresh (fresh : Fresh schema heap disk) : Lined schema [] heap := by
  obtain ⟨backing, rfl⟩ := fresh.eq_empty
  refine ⟨sound_empty schema backing, fun id bytes never => ?_, rfl, rfl, .nil, by simp, by simp⟩
  simp [bytesAt?] at never

/-- An event that stores and deletes nothing. -/
theorem unchanged (lined : Lined schema history heap) (none_stored : event.stored? = none)
    (none_queued : event.queue (queued history) = queued history) :
    Lined schema (history ++ [event]) heap := by
  have stored : (history ++ [event]).filterMap Event.stored? = history.filterMap Event.stored? := by
    rw [List.filterMap_append, List.filterMap_cons_none none_stored, List.filterMap_nil,
      List.append_nil]
  have ids : (history ++ [event]).filterMap Event.newId? = history.filterMap Event.newId? := by
    rw [← map_fst_stored, ← map_fst_stored, stored]
  refine ⟨lined.sound, lined.readable, lined.schema_eq, ?_, ?_, ?_, ?_⟩
  · rw [queued_concat, none_queued, lined.rows_eq]
  · rw [ids]
    exact lined.ascending
  · rw [ids]
    exact lined.given
  · rw [stored]
    exact lined.full

/-- A row at least as long as all before it comes to lie behind every slot that was given out. -/
theorem before_firstFit {bytes : List UInt8} (lined : Lined schema history heap)
    (firstFit : FirstFit heap bytes id next)
    (longest : ∀ entry ∈ history.filterMap Event.stored?,
      entry.2.width schema.columns.length ≤ bytes.length) :
    heap.pages.length ≤ id.page + 1 ∧ ∀ other, heap.HasSlot other → other.Before id := by
  have last : heap.pages.length ≤ id.page + 1 := by
    by_contra early
    have inside : id.page < heap.pages.length := by omega
    have present := List.getElem?_eq_getElem inside
    obtain ⟨entry, member, short⟩ := lined.full _ _ present (Nat.lt_of_not_le early)
    have enough := firstFit.room _ present
    have bounded := longest entry member
    omega
  refine ⟨last, fun other given => ?_⟩
  have within := page_lt_of_hasSlot given
  rcases Nat.lt_or_ge other.page id.page with earlier | behind
  · exact .inl earlier
  · have same : other.page = id.page := by omega
    rw [HasSlot, same, ← firstFit.slot_eq] at given
    exact .inr ⟨same, given⟩

theorem stored {bytes : List UInt8} (lined : Lined schema history heap)
    (encoded : heap.encode row = .ok bytes) (firstFit : FirstFit heap bytes id next)
    (stored : Stored heap bytes id next) (sound : next.Sound)
    (growing : NeverShrinks schema (history ++ [.insert row (.ok id)])) :
    Lined schema (history ++ [.insert row (.ok id)]) next := by
  have rows : (history ++ [Event.insert row (.ok id)]).filterMap Event.stored? =
      history.filterMap Event.stored? ++ [(id, row)] := by
    rw [List.filterMap_append]
    rfl
  have ids : (history ++ [Event.insert row (.ok id)]).filterMap Event.newId? =
      history.filterMap Event.newId? ++ [id] := by
    rw [List.filterMap_append]
    rfl
  have width : bytes.length = row.width schema.columns.length := by
    rw [← lined.schema_eq]
    exact Row.length_of_encode ((encode_eq_ok_iff _ _ _).mp encoded).1
  have longest : ∀ entry ∈ history.filterMap Event.stored?,
      entry.2.width schema.columns.length ≤ bytes.length := by
    intro entry member
    rw [NeverShrinks, rows] at growing
    rw [width]
    exact (List.pairwise_append.mp growing).2.2 entry member _ List.mem_cons_self
  obtain ⟨last, behind⟩ := lined.before_firstFit firstFit longest
  constructor
  case sound => exact sound
  case readable => exact stored.readable encoded lined.readable
  case schema_eq => rw [stored.schema_eq, lined.schema_eq]
  case rows_eq =>
    rw [queued_concat, ← lined.rows_eq]
    apply eq_of_perm_of_before _ next.pairwise_rows
    · refine List.pairwise_append.mpr ⟨heap.pairwise_rows, List.pairwise_singleton _ _, ?_⟩
      intro entry member other only
      rw [List.mem_singleton.mp only]
      exact behind _ (hasSlot_of_rowAt? ((heap.mem_rows _ _).mp member))
    · exact (stored.rows_perm encoded).trans (List.perm_append_singleton _ _).symm
  case ascending =>
    rw [ids]
    refine List.pairwise_append.mpr ⟨lined.ascending, List.pairwise_singleton _ _, ?_⟩
    intro other member new only
    rw [List.mem_singleton.mp only]
    exact behind other (lined.given other member)
  case given =>
    intro other member
    rw [ids, List.mem_append, List.mem_singleton] at member
    rw [stored.slots]
    exact member.symm.imp (fun new => new) (lined.given other)
  case full =>
    intro number page present inside
    rw [rows]
    have different : number ≠ id.page := by
      have length_eq := firstFit.length_eq
      omega
    rw [firstFit.pages_other number different] at present
    have known := (List.getElem?_eq_some_iff.mp present).1
    by_cases new : id.page = heap.pages.length
    · have short := firstFit.new_iff.mp new page (List.mem_of_getElem? present)
      exact ⟨(id, row), by simp, by rw [← width]; exact short⟩
    · have length_eq := firstFit.length_eq
      have page_le := firstFit.page_le
      obtain ⟨entry, member, short⟩ := lined.full number page present (by omega)
      exact ⟨entry, List.mem_append_left _ member, short⟩

theorem removed {change : Change Bool} (lined : Lined schema history heap)
    (erased : Erased heap id change) (sound : change.heap.Sound) {bytes : List UInt8}
    (found : heap.bytesAt? id = some bytes) :
    Lined schema (history ++ [.delete id (.ok true)]) change.heap := by
  have removed := erased.removed lined.sound
  have inside := page_lt_of_hasSlot (hasSlot_of_bytesAt? found)
  have length_eq : change.heap.pages.length = heap.pages.length := by
    rw [erased.replaced.length_eq]
    omega
  have rows : (history ++ [Event.delete id (.ok true)]).filterMap Event.stored? =
      history.filterMap Event.stored? := by
    rw [List.filterMap_append]
    exact List.append_nil _
  have ids : (history ++ [Event.delete id (.ok true)]).filterMap Event.newId? =
      history.filterMap Event.newId? := by
    rw [← map_fst_stored, ← map_fst_stored, rows]
  constructor
  case sound => exact sound
  case readable => exact removed.readable lined.readable
  case schema_eq => rw [removed.schema_eq, lined.schema_eq]
  case rows_eq =>
    rw [queued_concat, ← lined.rows_eq]
    exact eq_of_perm_of_before removed.rows_perm change.heap.pairwise_rows
      (heap.pairwise_rows.sublist List.filter_sublist)
  case ascending =>
    rw [ids]
    exact lined.ascending
  case given =>
    intro other member
    rw [ids] at member
    exact (removed.slots other).mpr (lined.given other member)
  case full =>
    intro number page present within
    rw [rows]
    rw [length_eq] at within
    by_cases same : number = id.page
    · subst same
      have kept := erased.deleted.freeSpace_eq
      rw [pageAt, present, Option.getD_some] at kept
      rw [kept, pageAt, List.getElem?_eq_getElem inside, Option.getD_some]
      exact lined.full _ _ (List.getElem?_eq_getElem inside) within
    · rw [erased.replaced.page_other number same] at present
      exact lined.full number page present within

theorem perform (lined : Lined schema history heap) (disk : Disk) (call : Call)
    (growing : NeverShrinks schema (history ++ [(call.perform (heap, disk)).1])) :
    Lined schema (history ++ [(call.perform (heap, disk)).1]) (call.perform (heap, disk)).2.1 := by
  cases call with
  | insert row =>
    have inserts := lined.sound.inserts disk row
    have sound := inserts.sound lined.sound
    have taken := lined.sound.ordered.placesFirstFit.taken row disk
    simp only [Call.perform] at growing ⊢
    generalize (insert row).runOn (heap, disk) = outcome at inserts sound taken growing
    obtain ⟨answer, next, after⟩ := outcome
    cases answer with
    | error error =>
      cases inserts with
      | rejected => exact lined.unchanged rfl rfl
      | refused => exact lined.unchanged rfl rfl
    | ok id =>
      obtain ⟨bytes, encoded, firstFit⟩ := taken id next after rfl
      obtain ⟨_, again, stored⟩ := inserts.exists_stored lined.sound
      cases encoded.symm.trans again
      exact lined.stored encoded firstFit stored sound growing
  | delete id =>
    have deletes := lined.sound.deletes disk id
    have sound := deletes.sound lined.sound
    simp only [Call.perform]
    generalize (delete id).runOn (heap, disk) = outcome at deletes sound
    obtain ⟨answer, next, after⟩ := outcome
    cases deletes with
    | absent missing => exact lined.unchanged rfl rfl
    | refused bytes found refusal => exact lined.unchanged rfl rfl
    | deleted bytes change found erased => exact lined.removed erased sound found

theorem performAll (lined : Lined schema history heap) (disk : Disk) (calls : List Call)
    (growing : NeverShrinks schema (history ++ (HeapFile.performAll calls (heap, disk)).1)) :
    Lined schema (history ++ (HeapFile.performAll calls (heap, disk)).1)
      (HeapFile.performAll calls (heap, disk)).2.1 := by
  induction calls generalizing history heap disk with
  | nil =>
    rw [HeapFile.performAll, List.append_nil]
    exact lined
  | cons call rest ih =>
    have growing : NeverShrinks schema (history ++ [(call.perform (heap, disk)).1] ++
        (HeapFile.performAll rest (call.perform (heap, disk)).2).1) := by
      rw [List.append_assoc, List.singleton_append]
      exact growing
    have later := ih (lined.perform disk call growing.of_append) _ growing
    rw [List.append_assoc, List.singleton_append] at later
    exact later

theorem inSuccession (lined : Lined schema history heap) : InSuccession history heap := by
  refine ⟨lined.ascending, ?_, ?_⟩
  · rw [lined.readable.scanWithIds_eq, lined.rows_eq]
  · have listed := lined.readable.mapM_entries (fun entry => heap.decode entry.2)
      (fun entry => .ok entry.2) fun _ _ _ decoded => decoded
    rw [scan, ← lined.rows_eq]
    refine listed.trans ((Outcome.mapM_eq_ok_iff _ _ _).mpr ?_)
    rw [List.forall₂_map_right_iff]
    exact List.forall₂_same.mpr fun _ _ => rfl

end Lined

/-- Whatever rows are stored and deleted in a new heap, and whichever writes the disk refuses: as long as
no row is stored that is shorter than one stored before it, addresses ascend, and a scan lists the rows
that are left in the order in which they were stored. -/
theorem scans_in_succession (fresh : Fresh schema heap disk) (calls : List Call)
    (growing : NeverShrinks schema (performAll calls (heap, disk)).1) :
    InSuccession (performAll calls (heap, disk)).1 (performAll calls (heap, disk)).2.1 :=
  ((Lined.of_fresh fresh).performAll disk calls growing).inSuccession

/-- A short row and two long ones, for which two pages are needed: the disk refuses a long row once, and
the short one is deleted. -/
theorem scans_in_succession_two_pages :
    let schema : Schema := ⟨"t", [.ofType "a" .text]⟩
    let heap : HeapFile := ⟨schema, [], .empty, some ⟨"T.dat", 0⟩⟩
    let before : Disk := { Disk.empty with refuses := fun write => write == 1 }
    let made := (createAt schema "T.dat").runOn before
    let short : Row := [.text "x"]
    let long : Row := [.text (String.ofList (List.replicate 3000 'x'))]
    let calls : List Call :=
      [.insert short, .insert long, .insert long, .delete ⟨0, 0⟩, .insert long]
    Fresh schema heap made.2 ∧ NeverShrinks schema (performAll calls (heap, made.2)).1 ∧
      InSuccession (performAll calls (heap, made.2)).1 (performAll calls (heap, made.2)).2.1 := by
  intro schema heap before made short long calls
  have fresh : Fresh schema heap made.2 := .createAt "T.dat" before heap made.2 rfl
  have widths : short.width 1 = 10 ∧ long.width 1 = 3009 := by
    refine ⟨width_text "x", ?_⟩
    rw [width_text, utf8ByteSize_replicate]
  have growing : NeverShrinks schema (performAll calls (heap, made.2)).1 := by
    apply neverShrinks_of_calls
    change [short, long, long, long].Pairwise fun earlier later => earlier.width 1 ≤ later.width 1
    simp [widths]
  exact ⟨fresh, growing, scans_in_succession fresh calls growing⟩

end RowStore.HeapFile
