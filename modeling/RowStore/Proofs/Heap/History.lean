import RowStore.Proofs.Heap.Rows

/-!
A heap after a history of calls. What it holds is told by the calls and their answers alone: the rows
that were stored and not deleted since, each at the address that was answered for it.
-/

namespace RowStore.HeapFile

/-- A call on a heap. -/
inductive Call where
  | insert (row : Row)
  | delete (id : RowId)

/-- A call together with its answer. -/
inductive Event where
  | insert (row : Row) (answer : Except StorageError RowId)
  | delete (id : RowId) (answer : Except StorageError Bool)

/-- Makes a call. -/
def Call.perform : Call → HeapFile × Disk → Event × HeapFile × Disk
  | .insert row, state =>
    let (answer, state) := (HeapFile.insert row).runOn state
    (.insert row answer, state)
  | .delete id, state =>
    let (answer, state) := (HeapFile.delete id).runOn state
    (.delete id answer, state)

/-- Makes calls one after another: their history, and the state they lead to. -/
def performAll : List Call → HeapFile × Disk → List Event × HeapFile × Disk
  | [], state => ([], state)
  | call :: rest, state =>
    let (event, state) := call.perform state
    let (history, state) := performAll rest state
    (event :: history, state)

/-- The address that an event gives out. -/
def Event.newId? : Event → Option RowId
  | .insert _ (.ok id) => some id
  | _ => none

/-- A row that was stored at an address and was not deleted from it since. -/
def Live (history : List Event) (id : RowId) (row : Row) : Prop :=
  ∃ before after, history = before ++ .insert row (.ok id) :: after ∧ .delete id (.ok true) ∉ after

/-- A heap as it is made: in memory, or in a new file. -/
inductive Fresh (schema : Schema) : HeapFile → Disk → Prop where
  | inMemory (disk : Disk) : Fresh schema (.inMemory schema) disk
  | createAt (path : String) (before : Disk) (heap : HeapFile) (disk : Disk)
      (made : (HeapFile.createAt schema path).runOn before = (.ok heap, disk)) :
      Fresh schema heap disk

/-- The answer to a deletion that a history tells. -/
def Tells (history : List Event) (id : RowId) (answer : Except StorageError Bool) : Prop :=
  answer = .ok true ∧ (∃ row, Live history id row) ∨
    answer = .ok false ∧ ¬ ∃ row, Live history id row

/-- What a heap shows is what its history tells. -/
structure Faithful (history : List Event) (heap : HeapFile) : Prop where
  scan : ∃ rows, heap.scanWithIds = .ok rows ∧
    (rows.Pairwise fun first second => first.1.Before second.1) ∧
    ∀ id row, (id, row) ∈ rows ↔ Live history id row
  get : ∀ id, ∃ found, heap.get? id = .ok found ∧ ∀ row, found = some row ↔ Live history id row
  deletions : ∀ before id answer after, history = before ++ .delete id answer :: after →
    Tells before id answer
  distinct : (history.filterMap Event.newId?).Nodup

variable {history : List Event} {event : Event} {heap next : HeapFile} {disk after : Disk}
  {id : RowId} {row : Row}

theorem concat_eq_append_cons_iff {Item : Type} {items before after : List Item} {last item : Item} :
    items ++ [last] = before ++ item :: after ↔
      (after = [] ∧ items = before ∧ last = item) ∨
        ∃ rest, after = rest ++ [last] ∧ items = before ++ item :: rest := by
  rcases List.eq_nil_or_concat' after with rfl | ⟨rest, other, rfl⟩
  · simp
  · rw [← List.cons_append, ← List.append_assoc, List.append_singleton_inj]
    constructor
    · rintro ⟨rfl, rfl⟩
      exact .inr ⟨rest, rfl, rfl⟩
    · rintro (⟨empty, _⟩ | ⟨_, same, rfl⟩)
      · simp at empty
      · simpa [eq_comm] using same

theorem live_concat : Live (history ++ [event]) id row ↔
    event = .insert row (.ok id) ∨ Live history id row ∧ event ≠ .delete id (.ok true) := by
  constructor
  · rintro ⟨before, later, split, kept⟩
    rcases concat_eq_append_cons_iff.mp split with ⟨rfl, rfl, rfl⟩ | ⟨rest, rfl, rfl⟩
    · exact .inl rfl
    · rw [List.mem_append, List.mem_singleton, not_or] at kept
      exact .inr ⟨⟨before, rest, rfl, kept.1⟩, Ne.symm kept.2⟩
  · rintro (rfl | ⟨⟨before, later, rfl, kept⟩, other⟩)
    · exact ⟨history, [], rfl, List.not_mem_nil⟩
    · refine ⟨before, later ++ [event], by simp, ?_⟩
      rw [List.mem_append, List.mem_singleton, not_or]
      exact ⟨kept, Ne.symm other⟩

/-- A new heap has no pages. -/
theorem Fresh.eq_empty {schema : Schema} (fresh : Fresh schema heap disk) :
    ∃ backing, heap = ⟨schema, [], .empty, backing⟩ := by
  cases fresh with
  | inMemory => exact ⟨none, rfl⟩
  | createAt path before _ _ made =>
    rw [HeapFile.createAt] at made
    simp only [Step.runOn_bind, Step.runOn_mapError, Step.runOn_pure] at made
    cases opened : ((PageFile.createAt path).runOn before).1 with
    | error fault => simp [opened, Except.mapError] at made
    | ok file =>
      simp only [opened, Except.mapError, Prod.mk.injEq, Except.ok.injEq] at made
      exact ⟨some file, made.1.symm⟩

/-- The invariant of a run: the heap is sound, holds the live rows of its history, and has given out
every address that its history answers. -/
structure Tracks (history : List Event) (heap : HeapFile) : Prop where
  sound : heap.Sound
  readable : heap.Readable
  live : ∀ id row, heap.rowAt? id = some row ↔ Live history id row
  given : ∀ id ∈ history.filterMap Event.newId?, heap.HasSlot id
  deletions : ∀ before id answer after, history = before ++ .delete id answer :: after →
    Tells before id answer
  distinct : (history.filterMap Event.newId?).Nodup

namespace Tracks

theorem of_fresh {schema : Schema} (fresh : Fresh schema heap disk) : Tracks [] heap := by
  obtain ⟨backing, rfl⟩ := fresh.eq_empty
  constructor
  case sound => exact sound_empty schema backing
  case readable => exact fun id bytes found => by simp [bytesAt?] at found
  case live => exact fun id row => by simp [rowAt?, bytesAt?, Live]
  case given => exact fun id member => by simp at member
  case deletions => exact fun before id answer after split => by simp at split
  case distinct => exact List.nodup_nil

theorem deletions_concat (tracks : Tracks history heap)
    (told : ∀ id answer, event = .delete id answer → Tells history id answer) :
    ∀ before id answer after, history ++ [event] = before ++ .delete id answer :: after →
      Tells before id answer := by
  intro before id answer later split
  rcases concat_eq_append_cons_iff.mp split with ⟨_, rfl, same⟩ | ⟨rest, _, split⟩
  · exact told id answer same
  · exact tracks.deletions before id answer rest split

/-- An event that stores and deletes nothing. -/
theorem unchanged (tracks : Tracks history heap) (none_new : event.newId? = none)
    (none_deleted : ∀ id, event ≠ .delete id (.ok true))
    (told : ∀ id answer, event = .delete id answer → Tells history id answer) :
    Tracks (history ++ [event]) heap := by
  have same : (history ++ [event]).filterMap Event.newId? = history.filterMap Event.newId? := by
    rw [List.filterMap_append, List.filterMap_cons_none none_new, List.filterMap_nil, List.append_nil]
  refine ⟨tracks.sound, tracks.readable, ?live, ?given, tracks.deletions_concat told, ?distinct⟩
  case live =>
    intro id row
    have other : event ≠ .insert row (.ok id) := by
      rintro rfl
      cases none_new
    rw [tracks.live, live_concat]
    simp [other, none_deleted id]
  case given =>
    rw [same]
    exact tracks.given
  case distinct =>
    rw [same]
    exact tracks.distinct

theorem stored {bytes : List UInt8} (tracks : Tracks history heap)
    (stored : Stored heap bytes id next) (sound : next.Sound)
    (encoded : heap.encode row = .ok bytes) :
    Tracks (history ++ [.insert row (.ok id)]) next := by
  have unused : ∀ row, ¬ Live history id row := by
    intro other live
    rw [← tracks.live, stored.rowAt?_before] at live
    cases live
  have ids : (history ++ [Event.insert row (.ok id)]).filterMap Event.newId? =
      history.filterMap Event.newId? ++ [id] := by
    rw [List.filterMap_append]
    rfl
  refine ⟨sound, stored.readable encoded tracks.readable, ?live, ?given,
    tracks.deletions_concat (fun id answer same => by cases same), ?distinct⟩
  case live =>
    intro other found
    rw [stored.rowAt?_eq encoded, live_concat, Event.insert.injEq, Except.ok.injEq]
    split
    · rename_i same
      subst same
      simp [unused]
    · rename_i different
      simp [tracks.live, Ne.symm different]
  case given =>
    intro other member
    rw [ids, List.mem_append, List.mem_singleton] at member
    rw [stored.slots]
    rcases member with earlier | rfl
    · exact .inr (tracks.given other earlier)
    · exact .inl rfl
  case distinct =>
    rw [ids, List.nodup_append_comm, List.singleton_append, List.nodup_cons]
    exact ⟨fun member => stored.fresh (tracks.given id member), tracks.distinct⟩

theorem removed {bytes : List UInt8} (tracks : Tracks history heap)
    (removed : Removed heap id next) (sound : next.Sound)
    (found : heap.bytesAt? id = some bytes) :
    Tracks (history ++ [.delete id (.ok true)]) next := by
  have same : (history ++ [Event.delete id (.ok true)]).filterMap Event.newId? =
      history.filterMap Event.newId? := by
    rw [List.filterMap_append]
    exact List.append_nil _
  have told : ∀ other answer, Event.delete id (.ok true) = .delete other answer →
      Tells history other answer := by
    rintro _ _ ⟨rfl, rfl⟩
    obtain ⟨row, decoded⟩ := tracks.readable id bytes found
    exact .inl ⟨rfl, row, (tracks.live id row).mp
      ((rowAt?_eq_some_iff heap id row).mpr ⟨bytes, found, decoded⟩)⟩
  refine ⟨sound, removed.readable tracks.readable, ?live, ?given, tracks.deletions_concat told,
    ?distinct⟩
  case live =>
    intro other row
    rw [removed.rowAt?_eq, live_concat]
    split
    · rename_i same
      subst same
      simp
    · rename_i different
      simp [tracks.live, Ne.symm different]
  case given =>
    intro other member
    rw [same] at member
    exact (removed.slots other).mpr (tracks.given other member)
  case distinct =>
    rw [same]
    exact tracks.distinct

theorem absent (tracks : Tracks history heap) (missing : heap.bytesAt? id = none) :
    Tracks (history ++ [.delete id (.ok false)]) heap := by
  apply tracks.unchanged rfl
  · rintro _ ⟨⟩
  · rintro _ _ ⟨rfl, rfl⟩
    refine .inr ⟨rfl, ?_⟩
    rintro ⟨row, live⟩
    rw [← tracks.live, rowAt?, missing] at live
    cases live

theorem perform (tracks : Tracks history heap) (takes : ∀ write, disk.refuses write = false)
    (call : Call) : Tracks (history ++ [(call.perform (heap, disk)).1])
      (call.perform (heap, disk)).2.1 ∧
      ∀ write, (call.perform (heap, disk)).2.2.refuses write = false := by
  have taken : ¬ Refused heap disk := by simp [Refused, takes]
  cases call with
  | insert row =>
    have inserts := tracks.sound.inserts disk row
    have sound := inserts.sound tracks.sound
    rw [Call.perform]
    simp only
    generalize (insert row).runOn (heap, disk) = outcome at inserts sound
    obtain ⟨answer, next, after⟩ := outcome
    refine ⟨?_, fun write => by rw [inserts.refuses_eq, takes]⟩
    cases inserts with
    | rejected cause rejection =>
      exact tracks.unchanged rfl (fun id same => by cases same) (fun id answer same => by cases same)
    | refused bytes encoded refusal => exact absurd refusal taken
    | stored bytes change encoded placed => 
      exact tracks.stored (placed.stored tracks.sound) sound encoded
  | delete id =>
    have deletes := tracks.sound.deletes disk id
    have sound := deletes.sound tracks.sound
    rw [Call.perform]
    simp only
    generalize (delete id).runOn (heap, disk) = outcome at deletes sound
    obtain ⟨answer, next, after⟩ := outcome
    refine ⟨?_, fun write => by rw [deletes.refuses_eq, takes]⟩
    cases deletes with
    | absent missing => exact tracks.absent missing
    | refused bytes found refusal => exact absurd refusal taken
    | deleted bytes change found erased =>
      exact tracks.removed (erased.removed tracks.sound) sound found

theorem performAll (tracks : Tracks history heap) (takes : ∀ write, disk.refuses write = false)
    (calls : List Call) : Tracks (history ++ (HeapFile.performAll calls (heap, disk)).1)
      (HeapFile.performAll calls (heap, disk)).2.1 := by
  induction calls generalizing history heap disk with
  | nil =>
    rw [HeapFile.performAll, List.append_nil]
    exact tracks
  | cons call rest ih =>
    obtain ⟨first, takes⟩ := tracks.perform takes call
    have later := ih first takes
    rw [List.append_assoc, List.singleton_append] at later
    exact later

theorem faithful (tracks : Tracks history heap) : Faithful history heap := by
  refine ⟨?scan, ?get, tracks.deletions, tracks.distinct⟩
  case scan =>
    refine ⟨heap.rows, tracks.readable.scanWithIds_eq, heap.pairwise_rows, ?_⟩
    intro id row
    rw [mem_rows, tracks.live]
  case get =>
    intro id
    exact ⟨heap.rowAt? id, tracks.readable.get?_eq id, tracks.live id⟩

end Tracks

/-- After any calls on a heap as it is made, on a disk that takes all writes, a scan lists the live
rows of the history in the order of their addresses, a row is found at its address as long as it is
live, a deletion finds exactly the live rows, and no address is given out twice. -/
theorem faithful_performAll {schema : Schema} (fresh : Fresh schema heap disk)
    (takes : ∀ write, disk.refuses write = false) (calls : List Call) :
    Faithful (performAll calls (heap, disk)).1 (performAll calls (heap, disk)).2.1 :=
  ((Tracks.of_fresh fresh).performAll takes calls).faithful

/-- The history of a row that is stored, deleted and stored again, each time at a new address. -/
theorem faithful_performAll_stored_again :
    let schema : Schema := ⟨"t", [.ofType "a" .int]⟩
    let calls : List Call := [.insert [.int 7], .delete ⟨0, 0⟩, .delete ⟨0, 0⟩, .insert [.int 7]]
    Fresh schema (.inMemory schema) .empty ∧ (∀ write, Disk.empty.refuses write = false) ∧
      Faithful (performAll calls (.inMemory schema, .empty)).1
        (performAll calls (.inMemory schema, .empty)).2.1 :=
  ⟨.inMemory _, fun _ => rfl, faithful_performAll (.inMemory _) (fun _ => rfl) _⟩

end RowStore.HeapFile
