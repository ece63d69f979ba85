import RowStore.Proofs.Page.Sound

/-!
A page after any calls. It is a list to which rows are appended: a slot is a position in the list, a
deleted row keeps its position and its room, and bytes that lie on the page are read as the page again.
-/

namespace RowStore.Page

/-- A row that a page has taken, and whether it was deleted since. -/
structure Entry where
  bytes : List UInt8
  deleted : Bool

/-- The bytes of a row that was not deleted. -/
def Entry.live? (entry : Entry) : Option (List UInt8) :=
  if entry.deleted then none else some entry.bytes

/-- The bytes that rows take up together with their slots, whether they were deleted or not. -/
def occupied (entries : List Entry) : Nat :=
  (entries.map fun entry => entry.bytes.length + slotSize).sum

/-- The bytes of a page behind its head. -/
def capacity : Nat := blockSize - pageHeadSize

/-- A call on a page. To reload a page is to read it from its own bytes. -/
inductive Call where
  | insert (bytes : List UInt8)
  | delete (slot : Nat)
  | reload

/-- The answer to a call. -/
inductive Answer where
  | inserted (slot : Option Nat)
  | deleted (found : Bool)
  | reloaded (result : Except BlockFault Unit)

/-- Makes a call on a page. A page that cannot be read stays as it was. -/
def Call.perform (page : Page) : Call → Answer × Page
  | insert bytes =>
    match page.insert? bytes with
    | some (next, slot) => (.inserted (some slot), next)
    | none => (.inserted none, page)
  | delete slot =>
    match page.delete? slot with
    | some next => (.deleted true, next)
    | none => (.deleted false, page)
  | reload =>
    match ofBytes page.bytes with
    | .ok next => (.reloaded (.ok ()), next)
    | .error fault => (.reloaded (.error fault), page)

/-- What a call comes to on the list of the rows that were taken. -/
def Call.record (entries : List Entry) : Call → Answer × List Entry
  | insert bytes =>
    if bytes.length + slotSize ≤ capacity - occupied entries then
      (.inserted (some entries.length), entries ++ [⟨bytes, false⟩])
    else (.inserted none, entries)
  | delete slot =>
    match entries[slot]? with
    | some ⟨bytes, false⟩ => (.deleted true, entries.set slot ⟨bytes, true⟩)
    | _ => (.deleted false, entries)
  | reload => (.reloaded (.ok ()), entries)

/-- Makes calls one after another: their answers, and the page they lead to. -/
def performAll (page : Page) : List Call → List Answer × Page
  | [] => ([], page)
  | call :: rest =>
    let (answer, next) := call.perform page
    let (answers, last) := next.performAll rest
    (answer :: answers, last)

/-- What calls one after another come to on a list of rows. -/
def recordAll (entries : List Entry) : List Call → List Answer × List Entry
  | [] => ([], entries)
  | call :: rest =>
    let (answer, next) := call.record entries
    let (answers, last) := recordAll next rest
    (answer :: answers, last)

/-- What a page of a number shows is what the list of its rows tells. -/
structure Shows (number : Nat) (entries : List Entry) (page : Page) : Prop where
  number_eq : page.number = number
  freeSpace_eq : page.freeSpace + occupied entries = capacity
  get?_eq : ∀ slot, page.get? slot = entries[slot]?.bind Entry.live?
  liveSlots_eq : page.liveSlots =
    (List.range entries.length).filter fun slot => (entries[slot]?.bind Entry.live?).isSome
  inserts : ∀ bytes, bytes.length + slotSize ≤ page.freeSpace →
    ∃ next, (Call.insert bytes).perform page = (.inserted (some entries.length), next)
  refuses : ∀ bytes, page.freeSpace < bytes.length + slotSize →
    (Call.insert bytes).perform page = (.inserted none, page)
  reloads : Call.reload.perform page = (.reloaded (.ok ()), page)

/-- The invariant of a run: the page is sound, and each row of the list is in the slot of its
position. -/
structure Tracks (number : Nat) (entries : List Entry) (page : Page) : Prop where
  sound : page.Sound
  number_eq : page.number = number
  slotCount_eq : page.slotCount = entries.length
  freeSpace_eq : page.freeSpace + occupied entries = capacity
  get?_eq : ∀ slot, page.get? slot = entries[slot]?.bind Entry.live?

variable {page next : Page} {entries : List Entry} {number slot : Nat} {bytes : List UInt8}

theorem ofBytes_bytes (inOrder : page.InOrder) : ofBytes page.bytes = .ok page := by
  have block : Block.ofBytes? page.bytes = some page.block := by
    rw [Block.ofBytes?, dif_pos page.size_bytes]
    rfl
  rw [ofBytes, block]
  exact (ofBlock_eq_ok_iff _ _).mpr ⟨rfl, inOrder⟩

theorem occupied_concat (entries : List Entry) (bytes : List UInt8) :
    occupied (entries ++ [⟨bytes, false⟩]) = occupied entries + (bytes.length + slotSize) := by
  simp [occupied]

/-- A deleted row keeps the room it takes up. -/
theorem occupied_set (present : entries[slot]? = some ⟨bytes, false⟩) :
    occupied (entries.set slot ⟨bytes, true⟩) = occupied entries := by
  obtain ⟨inside, same⟩ := List.getElem?_eq_some_iff.mp present
  have kept : (entries.map fun entry => entry.bytes.length + slotSize).set slot
      (bytes.length + slotSize) = entries.map fun entry => entry.bytes.length + slotSize := by
    have whole := congrArg (List.map fun entry => entry.bytes.length + slotSize)
      (List.set_getElem_self inside)
    rwa [List.map_set, same] at whole
  rw [occupied, List.map_set, kept, occupied]

theorem tracks_empty (number : UInt32) : Tracks number.toNat [] (empty number.toNat) := by
  constructor
  case sound => exact sound_empty _
  case number_eq => rw [number_empty, Nat.mod_eq_of_lt number.toNat_lt]
  case slotCount_eq => exact slotCount_empty _
  case freeSpace_eq => rw [freeSpace_empty]; rfl
  case get?_eq =>
    intro slot
    rw [get?, slot?_eq_none _ _ (by rw [slotCount_empty]; exact Nat.zero_le _)]
    rfl

namespace Tracks

theorem inserted (tracks : Tracks number entries page) (inserted : Inserted page bytes next) :
    Tracks number (entries ++ [⟨bytes, false⟩]) next := by
  constructor
  case sound => exact inserted.sound tracks.sound
  case number_eq => rw [inserted.number_eq, tracks.number_eq]
  case slotCount_eq => rw [inserted.slotCount_eq, tracks.slotCount_eq, List.length_append]; rfl
  case freeSpace_eq =>
    have room := inserted.freeSpace_eq
    have before := tracks.freeSpace_eq
    rw [occupied_concat]
    omega
  case get?_eq =>
    intro slot
    by_cases new : slot = page.slotCount
    · rw [new, inserted.get?_new tracks.sound.toInOrder, tracks.slotCount_eq, List.getElem?_concat_length]
      rfl
    · rw [inserted.get?_other tracks.sound new, tracks.get?_eq]
      rw [tracks.slotCount_eq] at new
      by_cases old : slot < entries.length
      · rw [List.getElem?_append_left old]
      · rw [List.getElem?_eq_none (by omega), List.getElem?_eq_none]
        rw [List.length_append, List.length_singleton]
        omega

theorem deleted (tracks : Tracks number entries page)
    (present : entries[slot]? = some ⟨bytes, false⟩) (deleted : Deleted page slot next) :
    Tracks number (entries.set slot ⟨bytes, true⟩) next := by
  constructor
  case sound => exact deleted.sound tracks.sound
  case number_eq => rw [deleted.number_eq, tracks.number_eq]
  case slotCount_eq => rw [deleted.slotCount_eq, tracks.slotCount_eq, List.length_set]
  case freeSpace_eq => rw [deleted.freeSpace_eq, occupied_set present, tracks.freeSpace_eq]
  case get?_eq =>
    intro other
    by_cases same : other = slot
    · have inside := (List.getElem?_eq_some_iff.mp present).1
      rw [same, deleted.get?_self, List.getElem?_set_self inside]
      rfl
    · rw [deleted.get?_other tracks.sound same, tracks.get?_eq,
        List.getElem?_set_ne (Ne.symm same)]

theorem isLive_eq (tracks : Tracks number entries page) (slot : Nat) :
    page.isLive slot = (entries[slot]?.bind Entry.live?).isSome := by
  rw [Bool.eq_iff_iff, tracks.sound.isLive_iff_get?, Option.isSome_iff_exists, tracks.get?_eq]

/-- What a call answers is what it comes to on the list, and the page goes on to track the list. -/
theorem perform (tracks : Tracks number entries page) (call : Call) :
    (call.perform page).1 = (call.record entries).1 ∧
      Tracks number (call.record entries).2 (call.perform page).2 := by
  have room : capacity - occupied entries = page.freeSpace := by
    rw [← tracks.freeSpace_eq, Nat.add_sub_cancel]
  cases call with
  | insert bytes =>
    rw [Call.perform, Call.record, room]
    cases placed : page.insert? bytes with
    | none =>
      rw [if_neg (Nat.not_le.mpr ((insert?_eq_none_iff _ _).mp placed))]
      exact ⟨rfl, tracks⟩
    | some result =>
      obtain ⟨next, slot⟩ := result
      obtain ⟨rfl, inserted⟩ := inserted_of_insert? tracks.sound.toInOrder placed
      rw [if_pos inserted.room, tracks.slotCount_eq]
      exact ⟨rfl, tracks.inserted inserted⟩
  | delete slot =>
    rw [Call.perform, Call.record]
    have live := tracks.isLive_eq slot
    cases present : entries[slot]? with
    | none =>
      rw [present] at live
      rw [(delete?_eq_none_iff _ _).mpr live]
      exact ⟨rfl, tracks⟩
    | some entry =>
      obtain ⟨bytes, gone⟩ := entry
      rw [present] at live
      cases gone with
      | true =>
        rw [(delete?_eq_none_iff _ _).mpr live]
        exact ⟨rfl, tracks⟩
      | false =>
        cases erased : page.delete? slot with
        | none =>
          rw [(delete?_eq_none_iff _ _).mp erased] at live
          cases live
        | some next =>
          have deleted := deleted_of_delete? tracks.sound.toInOrder erased
          exact ⟨rfl, tracks.deleted present deleted⟩
  | reload =>
    rw [Call.perform, Call.record, ofBytes_bytes tracks.sound.toInOrder]
    exact ⟨rfl, tracks⟩

theorem performAll (tracks : Tracks number entries page) (calls : List Call) :
    (page.performAll calls).1 = (recordAll entries calls).1 ∧
      Tracks number (recordAll entries calls).2 (page.performAll calls).2 := by
  induction calls generalizing page entries with
  | nil => exact ⟨rfl, tracks⟩
  | cons call rest ih =>
    obtain ⟨answer, next⟩ := tracks.perform call
    obtain ⟨answers, last⟩ := ih next
    refine ⟨?_, last⟩
    simp only [Page.performAll, recordAll, answer, answers]

theorem shows (tracks : Tracks number entries page) : Shows number entries page := by
  refine ⟨tracks.number_eq, tracks.freeSpace_eq, tracks.get?_eq, ?liveSlots_eq, ?inserts, ?refuses,
    ?reloads⟩
  case liveSlots_eq =>
    rw [liveSlots, tracks.slotCount_eq]
    exact List.filter_congr fun slot _ => tracks.isLive_eq slot
  case inserts =>
    intro bytes room
    refine ⟨page.withRow bytes, ?_⟩
    rw [Call.perform, insert?_eq, if_neg (Nat.not_lt.mpr room), tracks.slotCount_eq]
  case refuses =>
    intro bytes lacking
    rw [Call.perform, (insert?_eq_none_iff _ _).mpr lacking]
  case reloads => rw [Call.perform, ofBytes_bytes tracks.sound.toInOrder]

end Tracks

/-- After any calls on a new page the answers are those of a list to which rows are appended, and so is
all that the page shows. -/
theorem shows_performAll (number : UInt32) (calls : List Call) :
    ((empty number.toNat).performAll calls).1 = (recordAll [] calls).1 ∧
      Shows number.toNat (recordAll [] calls).2 ((empty number.toNat).performAll calls).2 := by
  obtain ⟨answers, tracks⟩ := (tracks_empty number).performAll calls
  exact ⟨answers, tracks.shows⟩

/-- The slot of a deleted row is not given out again. -/
example : (recordAll [] [.insert [1, 2], .delete 0, .delete 0, .insert []]).1 =
    [.inserted (some 0), .deleted true, .deleted false, .inserted (some 1)] := rfl

end RowStore.Page
