import RowStore.Proofs.Page.Guarded
import RowStore.Proofs.Page.History

/-!
Requests to a page that was read from some block. Only the head of the block is checked, so its slots
may tell anything; no request leaves the page for it, and each changes the bytes it is about and no
others.
-/

namespace RowStore.Page

/-- A request to a page. -/
inductive Request where
  | insert (bytes : List UInt8)
  | delete (slot : Nat)
  | get (slot : Nat)
  | list

/-- The reply to a request. -/
inductive Reply where
  | inserted (slot : Option Nat)
  | deleted (found : Bool)
  | got (bytes : Option (List UInt8))
  | listed (slots : List Nat)
  deriving DecidableEq

/-- Serves a request: the reply, and the page behind it. -/
def serve (page : Page) : Request → Reply × Page
  | .insert bytes =>
    match page.insert? bytes with
    | some (next, slot) => (.inserted (some slot), next)
    | none => (.inserted none, page)
  | .delete slot =>
    match page.delete? slot with
    | some next => (.deleted true, next)
    | none => (.deleted false, page)
  | .get slot => (.got (page.get? slot), page)
  | .list => (.listed page.liveSlots, page)

/-- Serves requests one after another: the replies, and the page they lead to. -/
def serveAll (page : Page) : List Request → List Reply × Page
  | [] => ([], page)
  | request :: rest =>
    let (reply, next) := page.serve request
    let (replies, last) := next.serveAll rest
    (reply :: replies, last)

namespace Guarded

/-- Serves a request access by access. -/
def serve : Request → Guarded Reply
  | .insert bytes => return .inserted (← insert? bytes)
  | .delete slot => return .deleted (← delete? slot)
  | .get slot => return .got (← get? slot)
  | .list => return .listed (← liveSlots)

def serveAll : List Request → Guarded (List Reply)
  | [] => return []
  | request :: rest => return (← serve request) :: (← serveAll rest)

end Guarded

/-- Pages with the same bytes but for some stretches, each told by its start and its length. -/
def AgreesOutside (stretches : List (Nat × Nat)) (page next : Page) : Prop :=
  ∀ position, (∀ start count, (start, count) ∈ stretches →
    position < start ∨ start + count ≤ position) → next.bytes[position]? = page.bytes[position]?

/-- What a request may do to a page. A row that is taken gets the next slot, and is written with its
entry and the head; a row that is deleted loses the position in its entry. -/
inductive Effect (page : Page) : Request → Reply → Page → Prop where
  | inserted {bytes : List UInt8} {start : Nat} {next : Page}
      (entry : next.slot? page.slotCount = some ⟨start, bytes.length⟩)
      (stored : next.get? page.slotCount = some bytes)
      (kept : AgreesOutside [(0, pageHeadSize), (slotPosition page.slotCount, slotSize),
        (start, bytes.length)] page next) :
      Effect page (.insert bytes) (.inserted (some page.slotCount)) next
  | refused {bytes : List UInt8} (lacking : page.freeSpace < bytes.length + slotSize) :
      Effect page (.insert bytes) (.inserted none) page
  | deleted {slot : Nat} {next : Page} (live : page.isLive slot = true)
      (gone : next.isLive slot = false)
      (kept : AgreesOutside [(slotPosition slot, 2)] page next) :
      Effect page (.delete slot) (.deleted true) next
  | missing {slot : Nat} (absent : page.isLive slot = false) :
      Effect page (.delete slot) (.deleted false) page
  | got {slot : Nat} : Effect page (.get slot) (.got (page.get? slot)) page
  | listed : Effect page .list (.listed page.liveSlots) page

/-- A request is safe on a page: no access stops it, it has its effect and no other, and the page
behind it is in order and can be read again from its bytes. -/
structure Safe (page : Page) (request : Request) : Prop where
  guarded : (Guarded.serve request).run page = .ok (page.serve request)
  effect : Effect page request (page.serve request).1 (page.serve request).2
  inOrder : (page.serve request).2.InOrder
  reloads : ofBytes (page.serve request).2.bytes = .ok (page.serve request).2

variable {page next : Page} {bytes : List UInt8} {stretches : List (Nat × Nat)}

theorem AgreesOutside.refl (stretches : List (Nat × Nat)) (page : Page) :
    AgreesOutside stretches page page := fun _ _ => rfl

/-- What is written within one of the stretches is not seen outside them. -/
theorem AgreesOutside.write (agrees : AgreesOutside stretches page next) {start count : Nat}
    (listed : (start, count) ∈ stretches) {position : Nat} (lower : start ≤ position)
    (upper : position + bytes.length ≤ start + count) :
    AgreesOutside stretches page (next.write position bytes) := by
  intro other outside
  have apart := outside start count listed
  rw [bytes_write, Bytes.getElem?_overwrite, if_neg (by omega)]
  exact agrees other outside

/-- A row is written first, then its entry and the head, each in two parts. -/
theorem agreesOutside_withRow (page : Page) (bytes : List UInt8) :
    AgreesOutside [(0, pageHeadSize), (slotPosition page.slotCount, slotSize),
      (page.dataStart - bytes.length, bytes.length)] page (page.withRow bytes) := by
  unfold withRow
  refine AgreesOutside.write ?count (.head _) (Nat.zero_le 2) (by simp [pageHeadSize])
  refine AgreesOutside.write ?length (.head _) (Nat.zero_le 0) (by simp [pageHeadSize])
  refine AgreesOutside.write ?start (.tail _ (.head _)) (Nat.le_add_right _ 2) (by simp [slotSize])
  refine AgreesOutside.write ?row (.tail _ (.head _)) (Nat.le_refl _) (by simp [slotSize])
  exact (AgreesOutside.refl _ page).write (.tail _ (.tail _ (.head _))) (Nat.le_refl _) (Nat.le_refl _)

theorem effect_withRow (inOrder : page.InOrder) (room : bytes.length + slotSize ≤ page.freeSpace) :
    Effect page (.insert bytes) (.inserted (some page.slotCount)) (page.withRow bytes) := by
  have inserted := inserted_withRow inOrder room
  have start : (page.withRow bytes).dataStart = page.dataStart - bytes.length := by
    have := inserted.dataStart_eq
    omega
  apply Effect.inserted inserted.slot_new (inserted.get?_new inOrder)
  rw [start]
  exact agreesOutside_withRow page bytes

theorem effect_delete {slot : Nat} (inOrder : page.InOrder)
    (erased : page.delete? slot = some next) : Effect page (.delete slot) (.deleted true) next := by
  have deleted := deleted_of_delete? inOrder erased
  obtain ⟨length, mark⟩ := deleted.slot_deleted
  refine .deleted deleted.live ?_ ?_
  · rw [isLive, mark]
    rfl
  · rw [delete?, if_pos deleted.live] at erased
    cases erased
    exact (AgreesOutside.refl _ page).write (.head _) (Nat.le_refl _) (by simp)

/-- A request has its effect on a page in order, and leaves it in order. -/
theorem effect_serve (inOrder : page.InOrder) (request : Request) :
    Effect page request (page.serve request).1 (page.serve request).2 ∧
      (page.serve request).2.InOrder := by
  cases request with
  | insert bytes =>
    rw [serve, insert?_eq]
    by_cases lacking : page.freeSpace < bytes.length + slotSize
    · rw [if_pos lacking]
      exact ⟨.refused lacking, inOrder⟩
    · have room := Nat.le_of_not_lt lacking
      rw [if_neg lacking]
      exact ⟨effect_withRow inOrder room, (inserted_withRow inOrder room).inOrder inOrder⟩
  | delete slot =>
    rw [serve]
    cases erased : page.delete? slot with
    | none => exact ⟨.missing ((delete?_eq_none_iff _ _).mp erased), inOrder⟩
    | some next => exact ⟨effect_delete inOrder erased, (deleted_of_delete? inOrder erased).inOrder inOrder⟩
  | get slot => exact ⟨.got, inOrder⟩
  | list => exact ⟨.listed, inOrder⟩

namespace Guarded

/-- Nothing stops a request to a page in order, and it comes to what it comes to without guards. -/
theorem run_serve (inOrder : page.InOrder) (request : Request) :
    (serve request).run page = .ok (page.serve request) := by
  cases request with
  | insert bytes =>
    refine (run_bind (run_insert? inOrder bytes)).trans ?_
    rw [Page.serve]
    cases page.insert? bytes with
    | none => rfl
    | some result => rfl
  | delete slot =>
    refine (run_bind (run_delete? inOrder slot)).trans ?_
    rw [Page.serve]
    cases page.delete? slot with
    | none => rfl
    | some next => rfl
  | get slot => exact run_bind (run_get? inOrder slot)
  | list => exact run_bind (run_liveSlots inOrder)

theorem run_serveAll (inOrder : page.InOrder) (requests : List Request) :
    (serveAll requests).run page = .ok (page.serveAll requests) := by
  induction requests generalizing page with
  | nil => rfl
  | cons request rest ih =>
    refine (run_bind (run_serve inOrder request)).trans ?_
    exact run_bind (ih (effect_serve inOrder request).2)

end Guarded

theorem safe_of_inOrder (inOrder : page.InOrder) (request : Request) : page.Safe request := by
  obtain ⟨effect, inOrderNext⟩ := effect_serve inOrder request
  exact ⟨Guarded.run_serve inOrder request, effect, inOrderNext, ofBytes_bytes inOrderNext⟩

theorem inOrder_serveAll (inOrder : page.InOrder) (requests : List Request) :
    (page.serveAll requests).2.InOrder := by
  induction requests generalizing page with
  | nil => exact inOrder
  | cons request rest ih => exact ih (effect_serve inOrder request).2

theorem inOrder_of_ofBytes {block : Array UInt8} (accepted : ofBytes block = .ok page) :
    page.InOrder := by
  unfold ofBytes at accepted
  split at accepted
  · exact ((ofBlock_eq_ok_iff _ _).mp accepted).2
  · cases accepted

/-- Requests to a page that was read from any block: no access stops any of them, and whatever came
before, the next one is safe. -/
theorem safe_of_ofBytes {block : Array UInt8} (accepted : ofBytes block = .ok page)
    (requests : List Request) :
    (Guarded.serveAll requests).run page = .ok (page.serveAll requests) ∧
      ∀ request, (page.serveAll requests).2.Safe request := by
  have inOrder := inOrder_of_ofBytes accepted
  refine ⟨Guarded.run_serveAll inOrder requests, ?_⟩
  intro request
  exact safe_of_inOrder (inOrder_serveAll inOrder requests) request

/-- A page whose first slot lies behind its end, and whose second slot is the whole page. -/
def misleading : Page :=
  ((empty 3).write 0 (Bytes.ofNat 2 2)).write pageHeadSize
    (Slot.bytes ⟨5000, 9⟩ ++ Slot.bytes ⟨0, blockSize⟩)

theorem inOrder_misleading : misleading.InOrder :=
  ⟨by decide +kernel, by decide +kernel⟩

/-- A page that was never built by requests is served all the same. -/
theorem safe_of_ofBytes_misleading : ofBytes misleading.bytes = .ok misleading ∧
    (misleading.serveAll [.get 0, .list, .insert [7, 8], .delete 0, .list, .get 2]).1 =
      [.got none, .listed [0, 1], .inserted (some 2), .deleted true, .listed [1, 2],
        .got (some [7, 8])] ∧
    (misleading.serveAll [.get 0, .list, .insert [7, 8], .delete 0, .list]).2.Safe (.get 1) :=
  have accepted : ofBytes misleading.bytes = .ok misleading := ofBytes_bytes inOrder_misleading
  ⟨accepted, by decide +kernel, (safe_of_ofBytes accepted _).2 _⟩

end RowStore.Page
