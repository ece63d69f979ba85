import RowStore.Proofs.Heap.Backing

/-!
A heap and the file behind it. The file holds the pages of the heap block by block, whatever calls are
made and whatever writes the disk refuses, so that opening the file gives the heap again.
-/

namespace RowStore.HeapFile

variable {heap next : HeapFile} {disk after : Disk} {file : PageFile} {number : Nat} {page : Page}

/-- The file behind a sound heap holds its pages block by block and is found at its path. -/
structure Mirrors (heap : HeapFile) (file : PageFile) (disk : Disk) : Prop where
  sound : heap.Sound
  backing_eq : heap.backing = some file
  holds : Disk.Holds disk file.path file.file
  known : file.file < disk.files.size
  size_eq : (disk.contents file.file).size = heap.pages.length * blockSize
  block_eq : ∀ (number : Nat) (page : Page), heap.pages[number]? = some page →
    (disk.contents file.file).block number = page.block

namespace Mirrors

/-- Entries and contents are all that counts of a disk. -/
theorem congr (mirrors : Mirrors heap file disk) (nodes : after.nodes = disk.nodes)
    (files : after.files = disk.files) : Mirrors heap file after := by
  have entries := Disk.node?_congr nodes
  have contents : after.contents file.file = disk.contents file.file := by
    rw [Disk.contents, Disk.contents, files]
  constructor
  case sound => exact mirrors.sound
  case backing_eq => exact mirrors.backing_eq
  case holds =>
    refine ⟨mirrors.holds.toLeads.of_kept fun location found => ?_, ?_⟩
    · rw [entries, found]
    · rw [entries, mirrors.holds.entry]
  case known => rw [files]; exact mirrors.known
  case size_eq => rw [contents]; exact mirrors.size_eq
  case block_eq => rw [contents]; exact mirrors.block_eq

theorem afterRefusal (mirrors : Mirrors heap file disk) :
    Mirrors heap file (afterRefusal disk) := mirrors.congr rfl rfl

theorem backed (mirrors : Mirrors heap file disk) : Backed heap file disk :=
  ⟨mirrors.sound.ordered, mirrors.backing_eq, mirrors.holds, mirrors.known,
    by rw [mirrors.size_eq, Nat.mul_div_cancel _ (by decide)], mirrors.block_eq⟩

/-- A page that is exchanged in memory and written to the file is the same in both. -/
theorem afterWrite (mirrors : Mirrors heap file disk) (replaced : Replaced heap number page next)
    (sound : next.Sound) : Mirrors next file (afterWrite heap number page disk) := by
  have backed := mirrors.backed.afterWrite replaced sound.ordered
  refine ⟨sound, backed.backing_eq, backed.holds, backed.known, ?_, backed.block_eq⟩
  rw [contents_afterWrite mirrors.backing_eq mirrors.known, replaced.length_eq, Contents.writeBlock,
    mirrors.size_eq, Nat.mul_max_mul_right]

theorem inserts {row : Row} {answer : Except StorageError RowId} (mirrors : Mirrors heap file disk)
    (inserts : Inserts heap disk row answer next after) : Mirrors next file after := by
  have sound := inserts.sound mirrors.sound
  cases inserts with
  | rejected => exact mirrors
  | refused => exact mirrors.afterRefusal
  | stored bytes change encoded placed taken => exact mirrors.afterWrite placed.replaced sound

theorem deletes {id : RowId} {answer : Except StorageError Bool} (mirrors : Mirrors heap file disk)
    (deletes : Deletes heap disk id answer next after) : Mirrors next file after := by
  have sound := deletes.sound mirrors.sound
  cases deletes with
  | absent => exact mirrors
  | refused => exact mirrors.afterRefusal
  | deleted bytes change found erased taken => exact mirrors.afterWrite erased.replaced sound

/-- The bytes of the file are those of the pages, one page after another. -/
theorem readFile_eq (mirrors : Mirrors heap file disk) :
    disk.readFile file.path = .ok (heap.pages.flatMap fun page => page.bytes.toList) := by
  have blocks : (List.range heap.pages.length).map
      (fun number => ((disk.contents file.file).block number).toList) =
        heap.pages.map fun page => page.bytes.toList := by
    apply List.ext_getElem (by simp)
    intro number inside other
    simp only [List.length_map] at other
    simp only [List.getElem_map, List.getElem_range]
    rw [mirrors.block_eq number _ (List.getElem?_eq_getElem other)]
    rfl
  rw [Disk.readFile, mirrors.holds.fileAt_eq]
  simp only [bind, Except.bind, pure, Except.pure]
  rw [Contents.toBytes_of_size _ _ mirrors.size_eq, List.flatMap, blocks, List.flatMap]

/-- Opening the file gives the heap again, page by page and with the same map. -/
theorem runOn_openAt (mirrors : Mirrors heap file disk) (few : heap.pages.length < UInt32.size) :
    (openAt heap.schema file.path).runOn disk = (.ok heap, disk) := mirrors.backed.runOn_openAt few

end Mirrors

/-- A heap without pages is the mirror of a file that was emptied for it. -/
theorem mirrors_of_opens {path : String} {before : Disk} (intact : before.Intact)
    (opens : Disk.Opens path true before (.ok number) disk) (schema : Schema) :
    Mirrors ⟨schema, [], .empty, some ⟨path, number⟩⟩ ⟨path, number⟩ disk := by
  have backed := backed_of_opens intact opens schema
  refine ⟨sound_empty schema _, rfl, backed.holds, backed.known, ?_, by simp⟩
  rw [(opens.holds intact).2.2 rfl]
  exact (Nat.zero_mul blockSize).symm

/-- A heap in a new file is the mirror of it. -/
theorem mirrors_of_createAt {schema : Schema} {path : String} {before : Disk}
    (intact : before.Intact)
    (made : (createAt schema path).runOn before = (.ok heap, disk)) :
    ∃ file, file.path = path ∧ Mirrors heap file disk := by
  have opens := Disk.opens path true before
  simp only [createAt, PageFile.createAt, Step.runOn_bind, Step.runOn_mapError,
    Step.runOn_pure] at made
  generalize (Disk.openFile path true).runOn before = outcome at opens made
  obtain ⟨result, after⟩ := outcome
  cases result with
  | error fault => simp [Except.mapError] at made
  | ok number =>
    simp only [Except.mapError, Prod.mk.injEq, Except.ok.injEq] at made
    obtain ⟨rfl, rfl⟩ := made
    exact ⟨⟨path, number⟩, rfl, mirrors_of_opens intact opens schema⟩

/-- What is done with a heap and its file. Which writes the disk refuses may be switched at any time. -/
inductive Action where
  | insert (row : Row)
  | delete (id : RowId)
  | reopen
  | switch (refuses : Nat → Bool)

/-- Does it, and says whether it succeeds. A heap that cannot be opened again stays as it was. -/
def Action.perform (path : String) (action : Action) (heap : HeapFile) (disk : Disk) :
    Except StorageError Unit × HeapFile × Disk :=
  match action with
  | .insert row =>
    let (answer, state) := (HeapFile.insert row).runOn (heap, disk)
    (answer.map fun _ => (), state)
  | .delete id =>
    let (answer, state) := (HeapFile.delete id).runOn (heap, disk)
    (answer.map fun _ => (), state)
  | .reopen =>
    match (openAt heap.schema path).runOn disk with
    | (.ok opened, disk) => (.ok (), opened, disk)
    | (.error error, disk) => (.error error, heap, disk)
  | .switch refuses => (.ok (), heap, { disk with refuses })

/-- Does one thing after another. -/
def performActions (path : String) (actions : List Action) (state : HeapFile × Disk) :
    HeapFile × Disk :=
  actions.foldl (fun state action => (action.perform path state.1 state.2).2) state

/-- A heap and its file agree: the file is the pages one after another, opening it gives the heap, and
whatever fails leaves both as they are. -/
structure Agree (path : String) (heap : HeapFile) (disk : Disk) : Prop where
  file_eq : disk.readFile path = .ok (heap.pages.flatMap fun page => page.bytes.toList)
  open_eq : (openAt heap.schema path).runOn disk = (.ok heap, disk)
  failure : ∀ (action : Action) error next after,
    action.perform path heap disk = (.error error, next, after) →
      next = heap ∧ after = { disk with writes := after.writes }

namespace Mirrors

theorem perform (mirrors : Mirrors heap file disk) (few : heap.pages.length < UInt32.size)
    (action : Action) : Mirrors (action.perform file.path heap disk).2.1 file
      (action.perform file.path heap disk).2.2 := by
  cases action with
  | insert row => exact mirrors.inserts (mirrors.sound.inserts disk row)
  | delete id => exact mirrors.deletes (mirrors.sound.deletes disk id)
  | reopen =>
    simp only [Action.perform, mirrors.runOn_openAt few]
    exact mirrors
  | switch refuses => exact mirrors.congr rfl rfl

/-- Nothing that is done adds more than one page. -/
theorem length_perform_le (mirrors : Mirrors heap file disk) (few : heap.pages.length < UInt32.size)
    (action : Action) :
    (action.perform file.path heap disk).2.1.pages.length ≤ heap.pages.length + 1 := by
  cases action with
  | insert row =>
    have inserts := mirrors.sound.inserts disk row
    simp only [Action.perform]
    generalize (insert row).runOn (heap, disk) = outcome at inserts
    obtain ⟨answer, next, after⟩ := outcome
    cases inserts with
    | rejected => exact Nat.le_succ _
    | refused => exact Nat.le_succ _
    | stored bytes change encoded placed taken =>
      exact placed.replaced.length_le
  | delete id =>
    have deletes := mirrors.sound.deletes disk id
    simp only [Action.perform]
    generalize (delete id).runOn (heap, disk) = outcome at deletes
    obtain ⟨answer, next, after⟩ := outcome
    cases deletes with
    | absent => exact Nat.le_succ _
    | refused => exact Nat.le_succ _
    | deleted bytes change found erased taken =>
      exact erased.replaced.length_le
  | reopen =>
    simp only [Action.perform, mirrors.runOn_openAt few]
    exact Nat.le_succ _
  | switch refuses => exact Nat.le_succ _

/-- Fewer than 2^32 things done never lead to too many pages. -/
theorem length_performActions_le (mirrors : Mirrors heap file disk) (actions : List Action)
    (short : heap.pages.length + actions.length < UInt32.size) :
    (HeapFile.performActions file.path actions (heap, disk)).1.pages.length ≤
      heap.pages.length + actions.length := by
  induction actions generalizing heap disk with
  | nil => exact Nat.le_refl _
  | cons action rest ih =>
    rw [List.length_cons] at short ⊢
    have few : heap.pages.length < UInt32.size := Nat.lt_of_le_of_lt (Nat.le_add_right _ _) short
    have grown := mirrors.length_perform_le few action
    have later := ih (mirrors.perform few action)
      (Nat.lt_of_le_of_lt (by omega) short)
    exact Nat.le_trans later (by omega)

theorem performActions (mirrors : Mirrors heap file disk) (actions : List Action)
    (few : ∀ done, done <+: actions →
      (HeapFile.performActions file.path done (heap, disk)).1.pages.length < UInt32.size) :
    Mirrors (HeapFile.performActions file.path actions (heap, disk)).1 file
      (HeapFile.performActions file.path actions (heap, disk)).2 := by
  induction actions generalizing heap disk with
  | nil => exact mirrors
  | cons action rest ih =>
    apply ih (mirrors.perform (few [] List.nil_prefix) action)
    intro done before
    exact few (action :: done) ((List.prefix_cons_inj action).mpr before)

theorem failure (mirrors : Mirrors heap file disk) (few : heap.pages.length < UInt32.size)
    (action : Action) (error : StorageError) (next : HeapFile) (after : Disk)
    (failed : action.perform file.path heap disk = (.error error, next, after)) :
    next = heap ∧ after = { disk with writes := after.writes } := by
  cases action with
  | insert row =>
    have inserts := mirrors.sound.inserts disk row
    simp only [Action.perform] at failed
    generalize (insert row).runOn (heap, disk) = outcome at inserts failed
    obtain ⟨answer, reached, left⟩ := outcome
    cases inserts with
    | rejected cause rejection =>
      obtain ⟨_, rfl, rfl⟩ := failed
      exact ⟨rfl, rfl⟩
    | refused bytes encoded refusal =>
      obtain ⟨_, rfl, rfl⟩ := failed
      exact ⟨rfl, rfl⟩
    | stored bytes change encoded placed taken => cases failed
  | delete id =>
    have deletes := mirrors.sound.deletes disk id
    simp only [Action.perform] at failed
    generalize (delete id).runOn (heap, disk) = outcome at deletes failed
    obtain ⟨answer, reached, left⟩ := outcome
    cases deletes with
    | absent missing => cases failed
    | refused bytes found refusal =>
      obtain ⟨_, rfl, rfl⟩ := failed
      exact ⟨rfl, rfl⟩
    | deleted bytes change found erased taken => cases failed
  | reopen =>
    simp only [Action.perform, mirrors.runOn_openAt few] at failed
    cases failed
  | switch refuses => cases failed

theorem agree (mirrors : Mirrors heap file disk) (few : heap.pages.length < UInt32.size) :
    Agree file.path heap disk :=
  ⟨mirrors.readFile_eq, mirrors.runOn_openAt few, mirrors.failure few⟩

end Mirrors

end RowStore.HeapFile
