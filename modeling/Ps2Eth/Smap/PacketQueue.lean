import Ps2Eth.Lib.Chain

/-!
# The software transmit queue of the smap driver

`EnQTxPacket`, `SMapTxPacketNext` and `SMapTxPacketDeQ` of `smap/main.c` keep
the frames to send in a list threaded through `pbuf->next`. The names run
against the usual ones: frames leave at `TxTail` and arrive at `TxHead`.

A pbuf carries what the driver uses of it. Its reference count is split by
owner: `refs` counts the references the driver has taken and not yet given
back; the network stack's own references are not the driver's to change and are
left out. A payload pointer is named by the pbuf it belongs to.

`SMapTxPacketDeQ` is not one step. Only its unlinking runs with interrupts
suspended; clearing the link of the removed pbuf and releasing it come after.
-/

namespace Ps2Eth.Smap

/-- Address of a pbuf; NULL is `none`. -/
abbrev PbufPtr := Nat

/-- The memory behind a payload pointer reaches past the `len` bytes in use:
`CopyToFIFO` reads whole words. -/
structure Pbuf where
  next : Option PbufPtr
  payload : Nat → UInt8
  len : Nat
  refs : Nat

/-- The bytes of the frame held by one pbuf. -/
def Pbuf.frame (pbuf : Pbuf) : List UInt8 := (List.range pbuf.len).map pbuf.payload

/-- What the driver sends of a pbuf. -/
def Pbuf.content (pbuf : Pbuf) : (Nat → UInt8) × Nat := (pbuf.payload, pbuf.len)

/-- Pbufs of the same content hold the same frame. -/
theorem content_frame {pbuf other : Pbuf} (same : pbuf.content = other.content) :
    pbuf.frame = other.frame := by
  obtain ⟨payload, len⟩ := Prod.mk.inj same
  simp only [Pbuf.frame, payload, len]

/-- They also have the same length. -/
theorem content_len {pbuf other : Pbuf} (same : pbuf.content = other.content) :
    pbuf.len = other.len := (Prod.mk.inj same).2

/-- All pbufs, with the driver's two static queue pointers. -/
structure TxQueue where
  pbufs : PbufPtr → Pbuf
  txHead : Option PbufPtr
  txTail : Option PbufPtr

namespace TxQueue

/-- The link of every pbuf. -/
def next (queue : TxQueue) (pbuf : PbufPtr) : Option PbufPtr := (queue.pbufs pbuf).next

/-- One pbuf of the memory is replaced; the queue keeps its ends. -/
def store (queue : TxQueue) (address : PbufPtr) (pbuf : Pbuf) : TxQueue :=
  { queue with pbufs := Function.update queue.pbufs address pbuf }

/-- `pbuf->next = link`: the pbuf is linked, or its link is cleared. -/
def setNext (queue : TxQueue) (pbuf : PbufPtr) (link : Option PbufPtr) : TxQueue :=
  queue.store pbuf { queue.pbufs pbuf with next := link }

/-- `pbuf_ref`, by the driver, counts one reference more. -/
def pbufRef (queue : TxQueue) (pbuf : PbufPtr) : TxQueue :=
  queue.store pbuf { queue.pbufs pbuf with refs := (queue.pbufs pbuf).refs + 1 }

/-- `pbuf_free`, giving back one of the driver's references. -/
def pbufFree (queue : TxQueue) (pbuf : PbufPtr) : TxQueue :=
  queue.store pbuf { queue.pbufs pbuf with refs := (queue.pbufs pbuf).refs - 1 }

/-- `EnQTxPacket`, one critical section: the pbuf is linked behind the newest one and
becomes it, and in an empty queue the oldest as well. -/
def enQTxPacket (queue : TxQueue) (tx : PbufPtr) : TxQueue :=
  let linked := match queue.txHead with
    | some head => queue.setNext head (some tx)
    | none => queue
  let ended := { linked with txHead := some tx }.setNext tx none
  match ended.txTail with
  | some _ => ended
  | none => { ended with txTail := ended.txHead }

/-- `SMapTxPacketNext`: the payload of the oldest frame, if there is one, and
its length. An empty queue reports length zero. -/
def sMapTxPacketNext (queue : TxQueue) : Option PbufPtr × Nat :=
  match queue.txTail with
  | some tail => (some tail, (queue.pbufs tail).len)
  | none => (none, 0)

/-- The critical section of `SMapTxPacketDeQ`: `toFree` and the queue after it. -/
def unlinkTail (queue : TxQueue) : Option PbufPtr × TxQueue :=
  match queue.txTail with
  | some tail =>
      if queue.txTail = queue.txHead then (some tail, { queue with txTail := none, txHead := none })
      else (some tail, { queue with txTail := queue.next tail })
  | none => (none, queue)

/-- `setNext` changes the link of one pbuf. -/
@[simp] theorem setNext_next (queue : TxQueue) (pbuf : PbufPtr) (link : Option PbufPtr) :
    (queue.setNext pbuf link).next = Function.update queue.next pbuf link := by
  funext tested
  by_cases here : tested = pbuf
  · subst tested
    simp [next, setNext, store]
  · simp [next, setNext, store, here]

/-- `setNext` leaves the old end of the queue. -/
@[simp] theorem setNext_txTail (queue : TxQueue) (pbuf : PbufPtr) (link : Option PbufPtr) :
    (queue.setNext pbuf link).txTail = queue.txTail := rfl

/-- `setNext` leaves the new end of the queue. -/
@[simp] theorem setNext_txHead (queue : TxQueue) (pbuf : PbufPtr) (link : Option PbufPtr) :
    (queue.setNext pbuf link).txHead = queue.txHead := rfl

/-- A link is the only field that setting it changes. -/
theorem setNext_field {γ : Type} (field : Pbuf → γ)
    (unlinked : ∀ pbuf link, field { pbuf with next := link } = field pbuf)
    (queue : TxQueue) (pbuf tested : PbufPtr) (link : Option PbufPtr) :
    field ((queue.setNext pbuf link).pbufs tested) = field (queue.pbufs tested) := by
  by_cases here : tested = pbuf
  · subst tested
    simp [setNext, store, unlinked]
  · simp [setNext, store, here]

/-- Queueing a pbuf changes links only. -/
theorem enQTxPacket_field {γ : Type} (field : Pbuf → γ)
    (unlinked : ∀ pbuf link, field { pbuf with next := link } = field pbuf)
    (queue : TxQueue) (tx tested : PbufPtr) :
    field ((queue.enQTxPacket tx).pbufs tested) = field (queue.pbufs tested) := by
  have ended (linked : TxQueue) (same : field (linked.pbufs tested) = field (queue.pbufs tested)) :
      field (({ linked with txHead := some tx }.setNext tx none).pbufs tested) =
        field (queue.pbufs tested) := by
    rw [setNext_field field unlinked]
    exact same
  have linkedSame : field ((match queue.txHead with
      | some head => queue.setNext head (some tx)
      | none => queue).pbufs tested) = field (queue.pbufs tested) := by
    cases queue.txHead with
    | none => rfl
    | some head => exact setNext_field field unlinked queue head tested (some tx)
  unfold enQTxPacket
  dsimp only
  split
  · exact ended _ linkedSame
  · exact ended _ linkedSame

/-- The links after queueing: the old head points to the pbuf, the pbuf nowhere. -/
theorem enQTxPacket_next (queue : TxQueue) (tx : PbufPtr) :
    (queue.enQTxPacket tx).next = Function.update (match queue.txHead with
      | some head => Function.update queue.next head (some tx)
      | none => queue.next) tx none := by
  have linked : (match queue.txHead with
      | some head => queue.setNext head (some tx)
      | none => queue).next = (match queue.txHead with
      | some head => Function.update queue.next head (some tx)
      | none => queue.next) := by
    cases queue.txHead with
    | none => rfl
    | some head => exact setNext_next queue head (some tx)
  rw [← linked]
  unfold enQTxPacket
  dsimp only
  split <;> exact setNext_next _ tx none

/-- The pbuf queued last is at the new end. -/
@[simp] theorem enQTxPacket_txHead (queue : TxQueue) (tx : PbufPtr) :
    (queue.enQTxPacket tx).txHead = some tx := by
  unfold enQTxPacket
  dsimp only
  split <;> rfl

/-- The oldest frame stays; a frame queued alone becomes the oldest. -/
@[simp] theorem enQTxPacket_txTail (queue : TxQueue) (tx : PbufPtr) :
    (queue.enQTxPacket tx).txTail = some (queue.txTail.getD tx) := by
  have kept : (match queue.txHead with
      | some head => queue.setNext head (some tx)
      | none => queue).txTail = queue.txTail := by
    cases queue.txHead <;> rfl
  unfold enQTxPacket
  dsimp only
  cases tail : queue.txTail <;> simp [kept, tail]

/-- The frames waiting, oldest first: the pbufs visited from `TxTail` on. -/
def Queued (queue : TxQueue) (pbufs : List PbufPtr) : Prop :=
  Linked.Chain queue.next queue.txTail pbufs

/-- The queue is whole: what is visited from `TxTail` on ends at `TxHead`. -/
structure Intact (queue : TxQueue) (pbufs : List PbufPtr) : Prop where
  queued : queue.Queued pbufs
  ends : queue.txHead = pbufs.getLast?

/-- The newest pbuf has no link, in the queue or lost from it. -/
def HeadStops (queue : TxQueue) : Prop := ∀ head, queue.txHead = some head → queue.next head = none

/-- A whole queue's newest pbuf has no link. -/
theorem Intact.headStops {queue : TxQueue} {pbufs : List PbufPtr} (intact : queue.Intact pbufs) :
    queue.HeadStops := by
  intro head here
  exact Linked.next_none_of_last intact.queued (intact.ends.symm.trans here)

/-- Queueing a pbuf that is not in a whole queue appends it. -/
theorem enQTxPacket_intact {queue : TxQueue} {pbufs : List PbufPtr} {tx : PbufPtr}
    (intact : queue.Intact pbufs) (fresh : tx ∉ pbufs) :
    (queue.enQTxPacket tx).Intact (pbufs ++ [tx]) := by
  refine ⟨?_, by simp⟩
  unfold Queued
  rw [enQTxPacket_next, enQTxPacket_txTail]
  rcases List.eq_nil_or_concat pbufs with rfl | ⟨before, last, rfl⟩
  · have noHead : queue.txHead = none := intact.ends
    have noTail : queue.txTail = none := intact.queued
    simp [noHead, noTail]
  · rw [List.concat_eq_append] at intact fresh ⊢
    have head : queue.txHead = some last := by simpa using intact.ends
    have other : last ≠ tx := fun same => fresh (by simp [same])
    have chain : Linked.Chain (Function.update queue.next tx none) queue.txTail (before ++ [last]) :=
      (Linked.chain_update_outside none fresh).mpr intact.queued
    have appended := Linked.chain_append chain fresh (Function.update_self tx none queue.next)
    obtain ⟨tail, isTail⟩ : ∃ tail, queue.txTail = some tail := by
      rw [← Option.ne_none_iff_exists']
      intro empty
      have queued : Linked.Chain queue.next queue.txTail (before ++ [last]) := intact.queued
      rw [empty] at queued
      simpa using Linked.chain_none queued
    rw [Function.update_comm other.symm] at appended
    simpa [head, isTail] using appended

/-- Queueing any pbuf, even one still in the queue, keeps the queue finite and
adds at most that pbuf. -/
theorem enQTxPacket_queued {queue : TxQueue} {pbufs : List PbufPtr} (tx : PbufPtr)
    (queued : queue.Queued pbufs) :
    ∃ longer, (queue.enQTxPacket tx).Queued longer ∧ ∀ pbuf ∈ longer, pbuf ∈ pbufs ∨ pbuf = tx := by
  obtain ⟨shorter, cleared, early⟩ := Linked.chain_clear tx queued
  have inside : ∀ pbuf ∈ shorter, pbuf ∈ pbufs ∨ pbuf = tx := fun pbuf member =>
    Or.inl (early.subset member)
  unfold Queued
  rw [enQTxPacket_next, enQTxPacket_txTail]
  cases tail : queue.txTail with
  | none =>
    refine ⟨[tx], ?_, by simp⟩
    simp
  | some oldest =>
    rw [tail] at cleared
    rw [Option.getD_some]
    cases head : queue.txHead with
    | none => exact ⟨shorter, cleared, inside⟩
    | some newest =>
      dsimp only
      by_cases same : newest = tx
      · subst same
        rw [Function.update_idem]
        exact ⟨shorter, cleared, inside⟩
      · obtain ⟨longer, linked, members⟩ := Linked.chain_link cleared
          (Function.update_self tx none queue.next) (Ne.symm same)
        rw [Function.update_comm (Ne.symm same)] at linked
        refine ⟨longer, linked, fun pbuf member => ?_⟩
        rcases members pbuf member with earlier | atEnd
        · exact inside pbuf earlier
        · exact Or.inr atEnd

/-- The newest pbuf is the one just queued, without a link. -/
theorem enQTxPacket_headStops (queue : TxQueue) (tx : PbufPtr) :
    (queue.enQTxPacket tx).HeadStops := by
  intro head here
  rw [enQTxPacket_txHead] at here
  cases here
  rw [enQTxPacket_next, Function.update_self]

/-- Unlinking from an empty queue does nothing. -/
theorem unlinkTail_empty {queue : TxQueue} (empty : queue.txTail = none) :
    queue.unlinkTail = (none, queue) := by
  simp [unlinkTail, empty]

/-- Unlinking changes no pbuf, only the old end of the queue. -/
@[simp] theorem unlinkTail_pbufs (queue : TxQueue) : queue.unlinkTail.2.pbufs = queue.pbufs := by
  unfold unlinkTail
  split
  · split <;> rfl
  · rfl

/-- Taking the oldest pbuf off leaves all links, its own included: it is cleared in a step
of its own. -/
@[simp] theorem unlinkTail_next (queue : TxQueue) : queue.unlinkTail.2.next = queue.next := by
  funext pbuf
  simp [next]

/-- The pbuf removed is the one at `TxTail`. -/
@[simp] theorem unlinkTail_fst (queue : TxQueue) : queue.unlinkTail.1 = queue.txTail := by
  unfold unlinkTail
  split
  next tail here => split <;> exact here.symm
  next here => exact here.symm

/-- Unlinking removes the oldest pbuf of a whole queue and leaves it whole. -/
theorem unlinkTail_intact {queue : TxQueue} {oldest : PbufPtr} {rest : List PbufPtr}
    (intact : queue.Intact (oldest :: rest)) : queue.unlinkTail.2.Intact rest := by
  obtain ⟨⟨tail, chain⟩, ends⟩ := intact
  cases rest with
  | nil =>
    have head : queue.txHead = some oldest := by simpa using ends
    exact ⟨by simp [Queued, unlinkTail, tail, head], by simp [unlinkTail, tail, head]⟩
  | cons second others =>
    have unique := Linked.chain_nodup (show queue.Queued (oldest :: second :: others) from ⟨tail, chain⟩)
    have apart : queue.txTail ≠ queue.txHead := by
      rw [tail, ends, List.getLast?_cons_cons]
      intro same
      exact (List.nodup_cons.mp unique).1 (List.mem_of_getLast? same.symm)
    have result : queue.unlinkTail.2 = { queue with txTail := queue.next oldest } := by
      unfold unlinkTail
      simp only [tail] at apart ⊢
      simp [apart]
    rw [result]
    exact ⟨chain, by simpa [List.getLast?_cons_cons] using ends⟩

/-- Unlinking from any queue keeps it finite and adds nothing. -/
theorem unlinkTail_queued {queue : TxQueue} {oldest : PbufPtr} {rest : List PbufPtr}
    (queued : queue.Queued (oldest :: rest)) :
    ∃ shorter, queue.unlinkTail.2.Queued shorter ∧ shorter <+: rest := by
  obtain ⟨tail, chain⟩ := queued
  unfold Queued
  rw [unlinkTail_next]
  by_cases last : some oldest = queue.txHead
  · exact ⟨[], by simp [unlinkTail, tail, ← last], List.nil_prefix⟩
  · exact ⟨rest, by simpa [unlinkTail, tail, last] using chain, List.prefix_refl _⟩

/-- Behind the newest pbuf nothing is linked, also when the oldest is taken off. -/
theorem unlinkTail_headStops {queue : TxQueue} (stops : queue.HeadStops) :
    queue.unlinkTail.2.HeadStops := by
  intro head here
  rw [unlinkTail_next]
  apply stops head
  unfold unlinkTail at here
  split at here
  · split at here
    · simp at here
    · exact here
  · exact here

/-- Clearing the link of a pbuf outside a whole queue, or of its newest one,
leaves the queue whole. -/
theorem setNext_none_intact {queue : TxQueue} {pbufs : List PbufPtr} {pbuf : PbufPtr}
    (intact : queue.Intact pbufs) (harmless : pbuf ∈ pbufs → queue.txHead = some pbuf) :
    (queue.setNext pbuf none).Intact pbufs := by
  refine ⟨?_, intact.ends⟩
  unfold Queued
  rw [setNext_next]
  by_cases member : pbuf ∈ pbufs
  · have stop : queue.next pbuf = none := intact.headStops pbuf (harmless member)
    rw [← stop, Function.update_eq_self]
    exact intact.queued
  · exact (Linked.chain_update_outside none member).mpr intact.queued

/-- Clearing a link, whichever it is, links nothing behind the newest pbuf. -/
theorem setNext_none_headStops {queue : TxQueue} (pbuf : PbufPtr) (stops : queue.HeadStops) :
    (queue.setNext pbuf none).HeadStops := by
  intro head here
  rw [setNext_next]
  by_cases same : head = pbuf
  · subst same
    exact Function.update_self head none queue.next
  · rw [Function.update_of_ne same]
    exact stops head here

/-- Storing a pbuf with its old link changes no link. -/
theorem store_next (queue : TxQueue) (address : PbufPtr) (pbuf : Pbuf)
    (same : pbuf.next = queue.next address) : (queue.store address pbuf).next = queue.next := by
  funext tested
  by_cases here : tested = address
  · subst here
    simpa [next, store] using same
  · simp [next, store, here]

/-- Taking a reference leaves all links. -/
@[simp] theorem pbufRef_next (queue : TxQueue) (pbuf : PbufPtr) :
    (queue.pbufRef pbuf).next = queue.next := store_next _ _ _ rfl

/-- Giving a reference back leaves all links, also when it was the last one. -/
@[simp] theorem pbufFree_next (queue : TxQueue) (pbuf : PbufPtr) :
    (queue.pbufFree pbuf).next = queue.next := store_next _ _ _ rfl

/-- A store that leaves the content of the pbuf it goes to leaves that of all. -/
theorem store_content {queue : TxQueue} {address tested : PbufPtr} {pbuf : Pbuf}
    (same : tested = address → pbuf.content = (queue.pbufs address).content) :
    ((queue.store address pbuf).pbufs tested).content = (queue.pbufs tested).content := by
  by_cases here : tested = address
  · subst here
    simpa [TxQueue.store] using same rfl
  · simp [TxQueue.store, here]

/-- Taking a reference leaves the content of every pbuf. -/
@[simp] theorem pbufRef_content (queue : TxQueue) (pbuf tested : PbufPtr) :
    ((queue.pbufRef pbuf).pbufs tested).content = (queue.pbufs tested).content :=
  store_content fun _ => rfl

/-- So does giving one back. -/
@[simp] theorem pbufFree_content (queue : TxQueue) (pbuf tested : PbufPtr) :
    ((queue.pbufFree pbuf).pbufs tested).content = (queue.pbufs tested).content :=
  store_content fun _ => rfl

/-- So does the change of a link. -/
@[simp] theorem setNext_content (queue : TxQueue) (pbuf tested : PbufPtr)
    (link : Option PbufPtr) :
    ((queue.setNext pbuf link).pbufs tested).content = (queue.pbufs tested).content :=
  store_content fun _ => rfl

/-- Queueing leaves the content of every pbuf, that of the queued one included. -/
@[simp] theorem enQTxPacket_content (queue : TxQueue) (tx tested : PbufPtr) :
    ((queue.enQTxPacket tx).pbufs tested).content = (queue.pbufs tested).content :=
  enQTxPacket_field Pbuf.content (fun _ _ => rfl) queue tx tested

end TxQueue
end Ps2Eth.Smap
