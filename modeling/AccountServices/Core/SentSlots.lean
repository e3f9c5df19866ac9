import AccountServices.Gateway.Mapper
import AccountServices.Core.HeldSlots

/-!
# The slots that are sent

An index goes into the downstream queue once: the service pushes the slot that a client handed over
with its call, or one that it has just allocated. What the gateway makes of a slot stays what the
client wrote, through every update of the book, until the execution engine marks the order as its
parent; such an order is not sent.
-/

set_option autoImplicit false

namespace AccountServices

open Foundation

/-! ## What an update leaves to the broker -/

/-- The broker would get from `r'` what it would get from `r`, unless the engine has marked `r'`; a
mark is not taken back. -/
def OrderRequest.CarriedBy (r r' : OrderRequest) : Prop :=
  r'.executionState = .none →
    r.executionState = .none ∧ mapOrderRequestToBroker r' = mapOrderRequestToBroker r

theorem OrderRequest.CarriedBy.refl (r : OrderRequest) : r.CarriedBy r := fun h => ⟨h, rfl⟩

theorem OrderRequest.CarriedBy.trans {r r' r'' : OrderRequest} (h : r.CarriedBy r')
    (h' : r'.CarriedBy r'') : r.CarriedBy r'' := by
  intro hnone
  obtain ⟨hnone', hmap'⟩ := h' hnone
  obtain ⟨hnone'', hmap⟩ := h hnone'
  exact ⟨hnone'', hmap'.trans hmap⟩

namespace OrderBook

variable {b b' b'' : OrderBook} {orderId : InternalOrderId}

/-- Every order of the new book is one of the old book, with its slot, and carries its request. -/
def CarriedBy (b b' : OrderBook) : Prop :=
  ∀ k e', b'.findOrder k = some e' →
    ∃ e, b.findOrder k = some e ∧ e.shmOrderIndex = e'.shmOrderIndex ∧
      e.request.CarriedBy e'.request

theorem carriedBy_of_same (h : ∀ k, b'.findOrder k = b.findOrder k) : b.CarriedBy b' :=
  fun k e he => ⟨e, (h k).symm.trans he, rfl, .refl _⟩

theorem CarriedBy.refl (b : OrderBook) : b.CarriedBy b := carriedBy_of_same fun _ => rfl

theorem CarriedBy.trans (h : b.CarriedBy b') (h' : b'.CarriedBy b'') : b.CarriedBy b'' := by
  intro k e'' he''
  obtain ⟨e', he', hslot', hcarried'⟩ := h' k e'' he''
  obtain ⟨e, he, hslot, hcarried⟩ := h k e' he'
  exact ⟨e, he, hslot.trans hslot', hcarried.trans hcarried'⟩

/-- One entry is written. -/
theorem carriedBy_modifyOrder {f : OrderEntry → OrderEntry}
    (hf : ∀ e, b.findOrder orderId = some e →
      (f e).shmOrderIndex = e.shmOrderIndex ∧ e.request.CarriedBy (f e).request) :
    b.CarriedBy (b.modifyOrder orderId f) := by
  intro k e' he'
  rw [findOrder_modifyOrder] at he'
  split at he'
  next hk =>
    subst hk
    obtain ⟨e, he, rfl⟩ := Option.map_eq_some_iff.1 he'
    obtain ⟨hslot, hcarried⟩ := hf e he
    exact ⟨e, he, hslot.symm, hcarried⟩
  next => exact ⟨e', he', rfl, .refl _⟩

/-- One entry is replaced. -/
theorem carriedBy_replace {e e' : OrderEntry} (he : b.findOrder orderId = some e)
    (hslot : e'.shmOrderIndex = e.shmOrderIndex) (hcarried : e.request.CarriedBy e'.request) :
    b.CarriedBy (b.modifyOrder orderId fun _ => e') :=
  carriedBy_modifyOrder fun _ he₀ => Option.some.inj (he.symm.trans he₀) ▸ ⟨hslot, hcarried⟩

theorem carriedBy_refreshParentFromChildren (b : OrderBook) (parentId : InternalOrderId) :
    b.CarriedBy (b.refreshParentFromChildren parentId).1 := by
  rw [refreshParentFromChildren]
  split
  · exact .refl b
  split
  · exact .refl b
  next parent hparent =>
    split
    · exact .refl b
    · simp only
      split
      · exact .refl b
      · exact carriedBy_replace hparent rfl fun hnone => ⟨hnone, rfl⟩

theorem carriedBy_refreshParentOf (b : OrderBook) (orderId : InternalOrderId) :
    b.CarriedBy (b.refreshParentOf orderId).1 := by
  rw [refreshParentOf]
  split
  · split
    · exact .refl b
    · exact carriedBy_refreshParentFromChildren b _
  · exact .refl b

theorem carriedBy_updateState (b : OrderBook) (orderId : InternalOrderId) (state : OrderState)
    (now : TimestampNs) : b.CarriedBy (b.updateState orderId state now).book := by
  rw [updateState]
  split
  · exact .refl b
  next entry hentry =>
    have hwritten : b.CarriedBy (b.modifyOrder orderId fun _ => withState entry state now) :=
      carriedBy_replace hentry rfl fun hnone => ⟨hnone, rfl⟩
    refine (hwritten.trans (carriedBy_of_same fun k => ?_)).trans
      (carriedBy_refreshParentOf _ orderId)
    rw [latchSplitError]
    split <;> rfl

theorem carriedBy_updateTrade (b : OrderBook) (orderId : InternalOrderId)
    (vol : Volume) (px : DPrice)
    (val fee : DValue) (now : TimestampNs) :
    b.CarriedBy (b.updateTrade orderId vol px val fee now).book := by
  rw [updateTrade]
  split
  · exact .refl b
  next entry hentry =>
    have hwritten :
        b.CarriedBy (b.modifyOrder orderId fun _ => withTrade entry vol px val fee now) :=
      carriedBy_replace hentry rfl fun hnone => ⟨hnone, rfl⟩
    exact hwritten.trans (carriedBy_refreshParentOf _ orderId)

theorem carriedBy_markManagedParent (b : OrderBook) (parentId : InternalOrderId) :
    b.CarriedBy (b.markManagedParent parentId).book := by
  rw [markManagedParent]
  split
  · exact .refl b
  · exact carriedBy_of_same fun _ => rfl

/-- The view of a session marks the parent. -/
theorem carriedBy_syncManagedParentView (b : OrderBook) (parentId : InternalOrderId)
    {view : ManagedParentView}
    (hmarks : view.executionState ≠ .none) (state : OrderState) (now : TimestampNs) :
    b.CarriedBy (b.syncManagedParentView parentId view state now).book := by
  rw [syncManagedParentView]
  split
  · exact .refl b
  next parent hparent =>
    simp only
    split
    · exact carriedBy_of_same fun _ => rfl
    · have hmirror : b.CarriedBy (b.modifyOrder parentId fun _ =>
          { parent with
            request := mirroredRequest parent.request view state, lastUpdateNs := now }) :=
        carriedBy_replace hparent rfl fun hnone => absurd hnone hmarks
      exact hmirror.trans (carriedBy_of_same fun _ => rfl)

/-- What follows the storing of a new order carries it and the others. -/
theorem carriedBy_addOrder_stored {entry : OrderEntry} {now : TimestampNs}
    (h : (b.addOrder entry now).ok = true) :
    (b.stored entry now).CarriedBy (b.addOrder entry now).book := by
  obtain ⟨h₁, h₂, h₃⟩ := (addOrder_ok_iff b entry now).1 h
  rw [addOrder]
  simp only
  rw [if_neg h₁, if_neg (by simp [h₂]), if_neg (by simpa using h₃)]
  simp only
  split
  next =>
    split
    · exact carriedBy_of_same fun _ => rfl
    · have hlink : (b.stored entry now).CarriedBy ((b.stored entry now).linkChild
          entry.request.internalOrderId (storedEntry entry now).parentOrderId) :=
        carriedBy_of_same fun _ => rfl
      exact (hlink.trans (carriedBy_refreshParentFromChildren _ _)).trans
        (carriedBy_of_same fun _ => rfl)
  next => exact carriedBy_of_same fun _ => rfl

/-- An order of the book after an addition: the new one, or one that was there. -/
theorem carriedBy_addOrder {entry : OrderEntry} {now : TimestampNs}
    (h : (b.addOrder entry now).ok = true) {k : InternalOrderId} {e' : OrderEntry}
    (he' : (b.addOrder entry now).book.findOrder k = some e') :
    (e'.shmOrderIndex = entry.shmOrderIndex ∧ entry.request.CarriedBy e'.request) ∨
      ∃ e, b.findOrder k = some e ∧ e.shmOrderIndex = e'.shmOrderIndex ∧
        e.request.CarriedBy e'.request := by
  obtain ⟨-, h₂, h₃⟩ := (addOrder_ok_iff b entry now).1 h
  obtain ⟨e, he, hslot, hcarried⟩ := carriedBy_addOrder_stored h k e' he'
  have hfind : (b.stored entry now).findOrder k =
      (b.table.insert entry.request.internalOrderId (storedEntry entry now)).find? k := by
    rw [findOrder, stored]
    rw [table_registerOrder]
  rw [hfind, SlotTable.find?_insert h₂ h₃] at he
  split at he
  · obtain rfl := Option.some.inj he
    obtain ⟨remain, hrequest⟩ := request_storedEntry entry now
    have hstored : entry.request.CarriedBy (storedEntry entry now).request := by
      rw [hrequest]
      exact fun hnone => ⟨hnone, rfl⟩
    exact Or.inl ⟨hslot.symm, hstored.trans hcarried⟩
  · exact Or.inr ⟨e, he, hslot, hcarried⟩

end OrderBook

/-- A session marks its parent with every view. -/
theorem Session.marks_parentView (s : Session) : s.parentView.executionState ≠ .none := by
  change s.deriveExecutionState ≠ .none
  rw [deriveExecutionState]
  repeat' split
  all_goals simp

/-! ## What was sent -/

/-- Whether the service takes a request as it is: it has its id and its key. -/
def OrderRequest.Complete (r : OrderRequest) : Prop := r.internalOrderId ≠ 0 ∧ r.lacksKey = false

/-- The pool mirrors the book. No index was pushed twice, and none in `fresh`. The slots in `taken`,
which clients have handed over, carry what was written to them. -/
structure World.SendsOnce (held fresh taken : Set OrderIndex) (wrote : OrderIndex → OrderRequest)
    (w : World) : Prop where
  mirrored : w.Mirrored held
  once : w.pushed.Nodup
  known : ∀ shm, w.ordersShm = some shm → ∀ i, i ∈ w.pushed ∨ i ∈ fresh ∨ i ∈ taken →
    shm.indexExists i = true
  apart : ∀ i ∈ w.pushed, i ∉ fresh
  carried : ∀ shm, w.ordersShm = some shm → ∀ i ∈ taken, (wrote i).Complete →
    (wrote i).CarriedBy (shm.slots i).request

namespace World

variable {w : World} {held held' fresh taken : Set OrderIndex} {wrote : OrderIndex → OrderRequest}

theorem SendsOnce.mono {fresh' taken' : Set OrderIndex} (h : w.SendsOnce held fresh taken wrote)
    (hheld : held' ⊆ held)
    (hfresh : fresh' ⊆ fresh) (htaken : taken' ⊆ taken) :
    w.SendsOnce held' fresh' taken' wrote where
  mirrored := h.mirrored.mono hheld
  once := h.once
  known shm hshm i hi := h.known shm hshm i (hi.imp_right (Or.imp (@hfresh i) (@htaken i)))
  apart i hi hmem := h.apart i hi (hfresh hmem)
  carried shm hshm i hi := h.carried shm hshm i (htaken hi)

theorem SendsOnce.congr {v : World} (h : w.SendsOnce held fresh taken wrote)
    (hfind : ∀ k, v.book.findOrder k = w.book.findOrder k) (hshm : v.ordersShm = w.ordersShm)
    (hpushed : v.pushed = w.pushed) : v.SendsOnce held fresh taken wrote where
  mirrored := h.mirrored.congr hfind hshm
  once := hpushed ▸ h.once
  known shm heq i hi := h.known shm (hshm ▸ heq) i (hpushed ▸ hi)
  apart i hi := h.apart i (hpushed ▸ hi)
  carried shm heq := h.carried shm (hshm ▸ heq)

/-- What an operation of the book leaves in the slots: its notes carry what was written. -/
theorem SendsOnce.notifications (h : w.SendsOnce held fresh taken wrote) {v : World}
    (hshm : v.ordersShm = w.ordersShm) (hpushed : v.pushed = w.pushed) (now : TimestampNs)
    (op : OrderBook → BookOutcome) (hafter : (v.applyBook now op).Mirrored held')
    (hnotes : ∀ note ∈ (op v.book).notes, note.1.HasSlot → note.1.shmOrderIndex ∈ taken →
      (wrote note.1.shmOrderIndex).Complete →
        (wrote note.1.shmOrderIndex).CarriedBy note.1.request) :
    (v.applyBook now op).SendsOnce held' fresh taken wrote := by
  obtain ⟨shm, hmirrored⟩ := h.mirrored
  obtain ⟨shm', hfold, hexists, hslots⟩ := ordersShm_notifications (w := { v with
    book := (op v.book).book, errors := v.errors ++ (op v.book).errors }) now (op v.book).notes
      (hshm.trans hmirrored.attached)
  have hfold : (v.applyBook now op).ordersShm = some shm' := hfold
  have hsame : (v.applyBook now op).pushed = w.pushed := (v.pushed_applyBook now op).trans hpushed
  refine ⟨hafter, hsame ▸ h.once, fun shm₁ hshm₁ i hi => ?_, fun i hi => h.apart i (hsame ▸ hi),
    fun shm₁ hshm₁ i hi hcomplete => ?_⟩
  · obtain rfl := Option.some.inj (hfold.symm.trans hshm₁)
    rw [hexists]
    exact h.known shm hmirrored.attached i (hsame ▸ hi)
  · obtain rfl := Option.some.inj (hfold.symm.trans hshm₁)
    have hin := h.known shm hmirrored.attached i (Or.inr (Or.inr hi))
    rcases hslots i hin with ⟨-, hkept⟩ | ⟨note, hmem, rfl, hrequest⟩
    · rw [hkept]
      exact h.carried shm hmirrored.attached i hi hcomplete
    · rw [hrequest]
      exact hnotes note hmem (of_decide_eq_true hin).1 hi hcomplete

/-- A note about a live order, which carries what its slot held before. -/
theorem SendsOnce.carries_note (h : w.SendsOnce held fresh taken wrote) {k : InternalOrderId}
    {e e' : OrderEntry} (he : w.book.findOrder k = some e)
    (hslot : e.shmOrderIndex = e'.shmOrderIndex) (hcarried : e.request.CarriedBy e'.request)
    (hhas : e'.HasSlot) (hmem : e'.shmOrderIndex ∈ taken)
    (hcomplete : (wrote e'.shmOrderIndex).Complete) :
    (wrote e'.shmOrderIndex).CarriedBy e'.request := by
  obtain ⟨shm, hmirrored⟩ := h.mirrored
  have hhas₀ : e.HasSlot := by
    rw [OrderEntry.HasSlot, hslot]
    exact hhas
  have hslots := h.carried shm hmirrored.attached _ hmem hcomplete
  rw [← hslot, hmirrored.request k e (Set.notMem_empty k) he hhas₀] at hslots
  rw [← hslot]
  exact hslots.trans hcarried

/-- An update of the book. -/
theorem SendsOnce.announce (h : w.SendsOnce held fresh taken wrote) {v : World}
    (hshm : v.ordersShm = w.ordersShm) (hpushed : v.pushed = w.pushed) (now : TimestampNs)
    (op : OrderBook → BookOutcome) (hafter : (v.applyBook now op).Mirrored held')
    (hcurrent : ∀ note ∈ (op v.book).notes, ∃ k, (op v.book).book.findOrder k = some note.1)
    (hcarried : w.book.CarriedBy (op v.book).book) :
    (v.applyBook now op).SendsOnce held' fresh taken wrote := by
  refine h.notifications hshm hpushed now op hafter fun note hmem hhas hin hcomplete => ?_
  obtain ⟨k, hk⟩ := hcurrent note hmem
  obtain ⟨e, he, hslot, hkept⟩ := hcarried k note.1 hk
  exact h.carries_note he hslot hkept hhas hin hcomplete

/-- What was written to other slots does not matter. -/
theorem SendsOnce.rewrite {wrote' : OrderIndex → OrderRequest}
    (h : w.SendsOnce held fresh taken wrote)
    (hsame : ∀ i ∈ taken, wrote' i = wrote i) : w.SendsOnce held fresh taken wrote' := by
  refine ⟨h.mirrored, h.once, h.known, h.apart, fun shm hshm i hi hcomplete => ?_⟩
  rw [hsame i hi] at hcomplete ⊢
  exact h.carried shm hshm i hi hcomplete

/-- A client takes a slot. -/
theorem SendsOnce.allocate (h : w.SendsOnce held fresh taken wrote) {shm : OrdersShm}
    (hshm : w.ordersShm = some shm) (hroom : shm.nextIndex < shm.capacity)
    (hafter : World.Mirrored held' { w with ordersShm := some shm.tryAllocate.2 }) :
    shm.nextIndex ∉ taken ∧ World.SendsOnce held' (insert shm.nextIndex fresh) taken wrote
      { w with ordersShm := some shm.tryAllocate.2 } := by
  have hexists := (OrdersShm.indexExists_tryAllocate hroom).2
  obtain ⟨hnot, hslots, hkept⟩ := OrdersShm.tryAllocate_keeps hroom
  have hunknown : ¬(shm.nextIndex ∈ w.pushed ∨ shm.nextIndex ∈ fresh ∨ shm.nextIndex ∈ taken) :=
    fun hin =>
    Bool.noConfusion (hnot.symm.trans (h.known shm hshm _ hin))
  refine ⟨fun hin => hunknown (Or.inr (Or.inr hin)), hafter, h.once, fun shm' hshm' i hi =>
    ?_, fun i hi hin => ?_, fun shm' hshm' i hi hcomplete => ?_⟩
  · obtain rfl := Option.some.inj hshm'
    rcases hi with hi | (rfl | hi) | hi
    · exact (hkept i (h.known shm hshm i (Or.inl hi))).2
    · exact hexists
    · exact (hkept i (h.known shm hshm i (Or.inr (Or.inl hi)))).2
    · exact (hkept i (h.known shm hshm i (Or.inr (Or.inr hi)))).2
  · rcases hin with rfl | hin
    · exact hunknown (Or.inl hi)
    · exact h.apart i hi hin
  · obtain rfl := Option.some.inj hshm'
    rw [hslots]
    exact h.carried shm hshm i hi hcomplete

end World

namespace Service

open Program

variable {held fresh taken : Set OrderIndex} {wrote : OrderIndex → OrderRequest}

/-! ## The steps of a call -/

/-- A write to a slot about which nothing is claimed, or one that keeps the request. -/
theorem sends_mutateSlot {label : Action} {i : OrderIndex} {f : OrderSlot → OrderSlot}
    (hwrite : i ∈ held ∧ (i ∈ taken → ¬(wrote i).Complete) ∨
      ∀ slot, (f slot).request = slot.request) :
    Preserves (World.SendsOnce held fresh taken wrote)
      (onOrdersShm label false fun shm => shm.mutateSlot i f) := by
  intro w h
  have hafter : ((onOrdersShm label false fun shm => shm.mutateSlot i f).run w).2.Mirrored held :=
    mirrored_mutateSlot (hwrite.imp_left And.left) w h.mirrored
  obtain ⟨shm, hmirrored⟩ := h.mirrored
  simp only [onOrdersShm, run_atomic, hmirrored.attached] at hafter ⊢
  refine ⟨hafter, h.once, fun shm' hshm' j hj => ?_, h.apart, fun shm' hshm' j hj hcomplete => ?_⟩
  · obtain rfl := Option.some.inj hshm'
    rw [OrdersShm.indexExists_mutateSlot]
    exact h.known shm hmirrored.attached j hj
  · obtain rfl := Option.some.inj hshm'
    have hbefore := h.carried shm hmirrored.attached j hj hcomplete
    by_cases heq : j = i
    · subst heq
      rcases hwrite with ⟨-, hout⟩ | hkeep
      · exact absurd hcomplete (hout hj)
      · rw [OrdersShm.slots_mutateSlot_self f
          (h.known shm hmirrored.attached j (Or.inr (Or.inr hj))), hkeep]
        exact hbefore
    · rw [OrdersShm.slots_mutateSlot_of_ne shm f heq]
      exact hbefore

theorem sends_updateStage (index : OrderIndex) (stage : OrderSlotState) (now : TimestampNs) :
    Preserves (World.SendsOnce held fresh taken wrote) (updateStage index stage now) :=
  Preserves.bind (sends_mutateSlot (Or.inr fun _ => rfl)) fun _ => Preserves.pure _

theorem sends_recordError (error : ErrorStatus) :
    Preserves (World.SendsOnce held fresh taken wrote) (recordError error) :=
  Preserves.modify fun _ h => h.congr (fun _ => rfl) rfl rfl

theorem sends_allocateInternalOrderId :
    Preserves (World.SendsOnce held fresh taken wrote) allocateInternalOrderId := by
  refine Preserves.atomic fun w h => ?_
  obtain ⟨_, _, _, heq⟩ := w.allocateOrderId_eq
  rw [heq]
  exact h.congr (fun _ => rfl) rfl rfl

/-- An update of the book that keeps the mirror. -/
theorem sends_onBook {now : TimestampNs} {op : OrderBook → BookOutcome}
    (hmirrored : Preserves (World.Mirrored held) (onBook now op))
    (hcurrent : ∀ b : OrderBook, ∃ told, b.Announces told (op b))
    (hcarried : ∀ b : OrderBook, b.CarriedBy (op b).book) :
    Preserves (World.SendsOnce held fresh taken wrote) (onBook now op) := by
  intro w h
  have hafter := hmirrored w h.mirrored
  rw [run_onBook] at hafter ⊢
  obtain ⟨told, hannounces⟩ := hcurrent w.book
  exact h.announce rfl rfl now op hafter hannounces.current (hcarried w.book)

theorem sends_updateState (now : TimestampNs) (orderId : InternalOrderId) (state : OrderState) :
    Preserves (World.SendsOnce held fresh taken wrote) (updateState now orderId state) :=
  sends_onBook (mirrored_updateState now orderId state)
    (fun b => ⟨_, b.announces_updateState orderId state now⟩)
    fun b => b.carriedBy_updateState orderId state now

/-- An index that was not pushed is pushed, or the queue is full. -/
theorem sends_tryPush {index : OrderIndex} (hmem : index ∈ fresh) {w : World}
    (h : w.SendsOnce held fresh taken wrote) :
    ((tryPush index).run w).2.SendsOnce held (fresh \ {index}) taken wrote := by
  have hless : fresh \ {index} ⊆ fresh := Set.sdiff_subset
  have hkept := h.mono (subset_refl held) hless (subset_refl taken)
  simp only [tryPush, run_atomic]
  split
  · exact hkept
  next q _ =>
    split
    · -- the index joins those that were pushed
      refine ⟨hkept.mirrored.congr (fun _ => rfl) rfl, ?_, fun shm hshm i hi =>
        h.known shm hshm i ?_, ?_, hkept.carried⟩
      · rw [← List.concat_eq_append]
        exact List.Nodup.concat (fun hin => h.apart index hin hmem) h.once
      · rw [List.mem_append, List.mem_singleton] at hi
        rcases hi with (hi | rfl) | hi | hi
        · exact Or.inl hi
        · exact Or.inr (Or.inl hmem)
        · exact Or.inr (Or.inl (hless hi))
        · exact Or.inr (Or.inr hi)
      · intro i hi hin
        rw [List.mem_append, List.mem_singleton] at hi
        rcases hi with hi | rfl
        · exact h.apart i hi (hless hin)
        · exact hin.2 rfl
    · exact hkept.congr (fun _ => rfl) rfl rfl

theorem sends_sendToDownstream (now : TimestampNs) {index : OrderIndex}
    (hmem : index ∈ fresh) {w : World} (h : w.SendsOnce held fresh taken wrote) :
    ((sendToDownstream now index).run w).2.SendsOnce held (fresh \ {index}) taken wrote := by
  have hless : fresh \ {index} ⊆ fresh := Set.sdiff_subset
  have hrun : Ensures (sendToDownstream now index) w fun _ v =>
      v.SendsOnce held (fresh \ {index}) taken wrote := by
    refine Ensures.bind (Ensures.read ?_)
    split
    · refine Ensures.bind ?_
      exact (Preserves.bind (sends_updateStage _ _ _) fun _ => Preserves.pure _).ensures
        (sends_tryPush hmem h)
    · exact (Preserves.bind (sends_recordError _) fun _ => Preserves.pure _).ensures
        (h.mono (subset_refl held) hless (subset_refl taken))
  exact hrun

/-- The service takes a slot for an order of its own. -/
theorem sends_createInternalOrderSlot (now : TimestampNs) (request : OrderRequest) {w : World}
    (h : w.SendsOnce held fresh taken wrote) :
    Ensures (createInternalOrderSlot now request) w fun slot v =>
      v.SendsOnce held fresh taken wrote ∧ ∀ index, slot = some index →
        index ∉ held ∧ index ∉ fresh ∧ index ∉ taken ∧
          v.SendsOnce (insert index held) (insert index fresh) taken wrote := by
  have hcreate := ensures_createInternalOrderSlot now request h.mirrored
  obtain ⟨shm, hmirrored⟩ := h.mirrored
  have hattached := hmirrored.attached
  rw [Ensures] at hcreate ⊢
  rcases createInternalOrderSlot_cases now request hattached with
    hrun | ⟨shm', hrun, hnew, hexists, hkeeps⟩
  · rw [hrun]
    exact ⟨h, fun index hindex => absurd hindex (by simp)⟩
  -- The allocated slot is new: clients do not hold it, and nobody has pushed or taken it.
  · rw [hrun] at hcreate ⊢
    -- the slots that the service took keep their requests
    have hcarried : ∀ shm₁, some shm' = some shm₁ → ∀ i ∈ taken, (wrote i).Complete →
        (wrote i).CarriedBy (shm₁.slots i).request := by
      intro shm₁ heq i hi hcomplete
      obtain rfl := Option.some.inj heq
      rw [(hkeeps i (h.known shm hattached i (Or.inr (Or.inr hi)))).2]
      exact h.carried shm hattached i hi hcomplete
    -- what was pushed or taken before existed before
    have hunknown : ¬(shm.nextIndex ∈ w.pushed ∨ shm.nextIndex ∈ fresh ∨ shm.nextIndex ∈ taken) :=
      fun hin =>
      Bool.noConfusion (hnew.symm.trans (h.known shm hattached _ hin))
    have hknown : ∀ shm₁, some shm' = some shm₁ → ∀ i, i ∈ w.pushed ∨ i ∈ fresh ∨ i ∈ taken →
        shm₁.indexExists i = true := by
      intro shm₁ heq i hi
      obtain rfl := Option.some.inj heq
      exact (hkeeps i (h.known shm hattached i hi)).1
    refine ⟨⟨hcreate.1, h.once, hknown, h.apart, hcarried⟩, fun index hindex => ?_⟩
    obtain ⟨hheld, hinserted⟩ := hcreate.2 index hindex
    obtain rfl := Option.some.inj hindex
    refine ⟨hheld, fun hin => hunknown (Or.inr (Or.inl hin)), fun hin =>
      hunknown (Or.inr (Or.inr hin)), hinserted, h.once, ?_, fun i hi hin => ?_, hcarried⟩
    · rintro shm₁ hshm₁ i (hi | (rfl | hi) | hi)
      · exact hknown shm₁ hshm₁ i (Or.inl hi)
      · exact Option.some.inj hshm₁ ▸ hexists
      · exact hknown shm₁ hshm₁ i (Or.inr (Or.inl hi))
      · exact hknown shm₁ hshm₁ i (Or.inr (Or.inr hi))
    · rcases hin with rfl | hin
      · exact hunknown (Or.inl hi)
      · exact h.apart i hi hin

/-- An order enters the book with its slot, in which what was written is carried. -/
theorem sends_addOrder (now : TimestampNs) (entry : OrderEntry) {w : World}
    (h : w.SendsOnce held fresh taken wrote) (hmem : entry.shmOrderIndex ∈ held)
    (hcarried : entry.shmOrderIndex ∈ taken → (wrote entry.shmOrderIndex).Complete →
      (wrote entry.shmOrderIndex).CarriedBy entry.request) :
    ((addOrder now entry).run w).2.SendsOnce (held \ {entry.shmOrderIndex}) fresh taken wrote := by
  have hafter := mirrored_addOrder now entry h.mirrored hmem
  rw [addOrder, run_onBook] at hafter ⊢
  refine h.notifications rfl rfl now (fun b => b.addOrder entry now) hafter
    fun note hnote hhas hin hcomplete => ?_
  cases hok : (w.book.addOrder entry now).ok with
  | false =>
      rw [OrderBook.notes_addOrder_of_not_ok hok] at hnote
      exact absurd hnote List.not_mem_nil
  | true =>
      obtain ⟨k, hk⟩ := (OrderBook.announces_addOrder hok).current note hnote
      rcases OrderBook.carriedBy_addOrder hok hk with ⟨hslot, hkept⟩ | ⟨e, he, hslot, hkept⟩
      · rw [hslot] at hin hcomplete ⊢
        exact (hcarried hin hcomplete).trans hkept
      · exact h.carries_note he hslot hkept hhas hin hcomplete

theorem sends_enterInternalOrder (now : TimestampNs) (texts : PlaceTexts) (entry : OrderEntry)
    {w : World} (h : w.SendsOnce held fresh taken wrote) (hmem : entry.shmOrderIndex ∈ held)
    (hfresh : entry.shmOrderIndex ∈ fresh) (hout : entry.shmOrderIndex ∉ taken) :
    ((enterInternalOrder now texts entry).run w).2.SendsOnce (held \ {entry.shmOrderIndex})
      (fresh \ {entry.shmOrderIndex}) taken wrote := by
  have hadded := sends_addOrder now entry h hmem fun hin => absurd hin hout
  simp only [enterInternalOrder, run_bind]
  generalize (addOrder now entry).run w = out at hadded ⊢
  cases hok : out.1 with
  | false =>
      have hrest : Preserves (World.SendsOnce (held \ {entry.shmOrderIndex}) fresh taken wrote) (do
          updateStage entry.shmOrderIndex .queuePushFailed now
          recordError ⟨.order, .orderBookFull, "order_router", texts.notAdded⟩
          pure (false, entry) : Service (Bool × OrderEntry)) :=
        Preserves.bind (sends_updateStage _ _ _) fun _ =>
          Preserves.bind (sends_recordError _) fun _ => Preserves.pure _
      exact (hrest _ hadded).mono (subset_refl _) Set.sdiff_subset (subset_refl _)
  | true =>
      have hsent := sends_sendToDownstream now hfresh hadded
      simp only [if_true, run_bind]
      generalize (sendToDownstream now entry.shmOrderIndex).run out.2 = sent at hsent ⊢
      refine Preserves.ite ?_ ?_ _ hsent
      · exact Preserves.bind (sends_updateState _ _ _) fun _ => Preserves.pure _
      · exact Preserves.bind (sends_updateState _ _ _) fun _ =>
          Preserves.bind (sends_recordError _) fun _ => Preserves.pure _

theorem sends_placeInternalOrder (now : TimestampNs) (texts : PlaceTexts) {entry : OrderEntry}
    (hslot : entry.shmOrderIndex = kInvalidOrderIndex) :
    Preserves (World.SendsOnce held fresh taken wrote) (placeInternalOrder now texts entry) := by
  intro w h
  have hcreate := sends_createInternalOrderSlot now entry.request h
  simp only [placeInternalOrder, run_bind, if_pos hslot]
  cases hout : ((createInternalOrderSlot now entry.request).run w).1 with
  | none => exact Preserves.bind (sends_recordError _) (fun _ => Preserves.pure _) _ hcreate.1
  | some index =>
      obtain ⟨hheld, hfresh, htaken, hsends⟩ := hcreate.2 index hout
      have hentered :=
        sends_enterInternalOrder now texts { entry with shmOrderIndex := index } hsends
        (Set.mem_insert _ _) (Set.mem_insert _ _) htaken
      refine hentered.mono (fun i hi => ⟨Set.mem_insert_of_mem _ hi, ?_⟩)
        (fun i hi => ⟨Set.mem_insert_of_mem _ hi, ?_⟩) (subset_refl taken)
      · rintro rfl
        exact hheld hi
      · rintro rfl
        exact hfresh hi

/-- Every call that hands over no slot. -/
theorem sends_callRules (held fresh taken : Set OrderIndex) (wrote : OrderIndex → OrderRequest) :
    CallRules (World.SendsOnce held fresh taken wrote) where
  recordError := sends_recordError
  allocateInternalOrderId := sends_allocateInternalOrderId
  updateState := sends_updateState
  placeInternalOrder now texts _ hslot _ := sends_placeInternalOrder now texts hslot
  -- An engine step writes neither the book nor the pool.
  engine _ _ _ h := h.congr (fun _ => rfl) rfl rfl
  markManagedParent now parentId :=
    sends_onBook ((mirrored_handlerRules held).markManagedParent now parentId)
    (fun b => ⟨_, b.announces_markManagedParent parentId⟩) fun b =>
      b.carriedBy_markManagedParent parentId
  syncParentView s now := Preserves.bind
    (sends_onBook (mirrored_onBook fun b => b.announces_syncManagedParentView _ _ _ now)
      (fun b => ⟨_, b.announces_syncManagedParentView _ _ _ now⟩)
      fun b => b.carriedBy_syncManagedParentView _ s.marks_parentView _ now) fun _ =>
        Preserves.pure _
  beside h _ hbook hshm hpushed := h.congr (fun k => by rw [hbook]) hshm hpushed
  annotate orderId _ hrequest hindex := fun w h =>
    ⟨mirrored_modifyOrder orderId hrequest hindex w h.mirrored, h.once, h.known, h.apart, h.carried⟩
  -- The claim and the state are written together, and announced once.
  claimOrder now orderId claimed state := by
    intro w h
    have hafter := mirrored_claimOrder now orderId claimed state w h.mirrored
    rw [run_bind, run_modifyOrder, updateState, run_onBook] at hafter ⊢
    set v : World := { w with book := w.book.modifyOrder orderId fun e =>
      { e with request := { e.request with activeStrategyClaimed := claimed } } }
    have hclaimed : w.book.CarriedBy v.book :=
      OrderBook.carriedBy_modifyOrder fun e _ => ⟨rfl, fun hnone => ⟨hnone, rfl⟩⟩
    exact h.announce (v := v) rfl rfl now (fun b => b.updateState orderId state now) hafter
      (v.book.announces_updateState orderId state now).current
      (hclaimed.trans (v.book.carriedBy_updateState orderId state now))
  updateStage := sends_updateStage
  updateTrade now orderId vol px val fee :=
    sends_onBook (mirrored_updateTrade now orderId vol px val fee)
    (fun b => ⟨_, b.announces_updateTrade orderId vol px val fee now⟩)
      fun b => b.carriedBy_updateTrade orderId vol px val fee now
  -- The archived order is announced as it was in the book.
  archiveOrder now orderId := by
    intro w h
    have hafter := mirrored_archiveOrder now orderId w h.mirrored
    rw [archiveOrder, run_onBook] at hafter ⊢
    refine h.notifications rfl rfl now (fun b => b.archiveOrder orderId) hafter
      fun note hmem hhas hin hcomplete => ?_
    exact h.carries_note (OrderBook.findOrder_of_note_archiveOrder hmem) rfl
      (.refl _) hhas hin hcomplete

/-! ## Requests -/

/-- An order is routed: its own slot goes into the queue, or the slots of the cancels that it
becomes. -/
theorem sends_routeOrder (now : TimestampNs) {entry : OrderEntry}
    (hfresh : entry.shmOrderIndex ∈ fresh) {w : World} (h : w.SendsOnce held fresh taken wrote) :
    Ensures (routeOrder now entry) w fun _ v =>
      v.SendsOnce held (fresh \ {entry.shmOrderIndex}) taken wrote := by
  have hrules := sends_callRules held fresh taken wrote
  have hweaker : ∀ {α : Type} {p : Service α},
      Preserves (World.SendsOnce held fresh taken wrote) p →
      Ensures p w fun _ v => v.SendsOnce held (fresh \ {entry.shmOrderIndex})
        taken wrote := fun hp =>
    (hp.ensures h).mono fun _ v hv => hv.mono (subset_refl _) Set.sdiff_subset (subset_refl _)
  rw [routeOrder]
  split
  · exact hweaker (hrules.routeCancel (fun _ _ _ => trivial) (fun _ _ _ => trivial) _ _ _ _)
  split
  · exact hweaker (Preserves.bind (hrules.updateState _ _ _) fun _ =>
      Preserves.bind (hrules.recordError _) fun _ => Preserves.pure _)
  · refine Ensures.bind ?_
    have hrest : ∀ sent : Bool,
        Preserves (World.SendsOnce held (fresh \ {entry.shmOrderIndex}) taken wrote)
        (if sent = true then do
          let _ ← updateState now entry.request.internalOrderId .traderSubmitted
          pure true
        else do
          let _ ← updateState now entry.request.internalOrderId .traderError
          recordError ⟨.order, .queuePushFailed, "order_router",
            "failed to push order to downstream"⟩
          pure false : Service Bool) := fun sent =>
      Preserves.ite (Preserves.bind (sends_updateState _ _ _) fun _ => Preserves.pure _)
        (Preserves.bind (sends_updateState _ _ _) fun _ =>
          Preserves.bind (sends_recordError _) fun _ => Preserves.pure _)
    exact (hrest _).ensures (sends_sendToDownstream now hfresh h)

theorem sends_routeNewOrder (env : Env) {index : OrderIndex} {active : OrderEntry}
    (hslot : active.shmOrderIndex = index) (hfresh : index ∈ fresh) {w : World}
    (h : w.SendsOnce held fresh taken wrote) :
    Ensures (routeNewOrder env index active) w fun _ v =>
      v.SendsOnce held (fresh \ {index}) taken wrote := by
  subst hslot
  have hrules := sends_callRules held (fresh \ {active.shmOrderIndex}) taken wrote
  refine Ensures.bind
    (((sends_callRules held fresh taken wrote).reserveOrderResources active).ensures h |>.mono
    fun reserved v hv => ?_)
  split
  · refine Ensures.bind ((sends_routeOrder env.nowNs hfresh hv).mono fun routed u hu => ?_)
    exact (Preserves.ite (Preserves.pure _)
      (Preserves.bind (hrules.releaseOrderResources _) fun _ =>
      Preserves.bind (hrules.updateState _ _ _) fun _ =>
        Preserves.bind (hrules.updateStage _ _ _) fun _ => hrules.recordError _)).ensures hu
  · exact (Preserves.bind (hrules.updateState _ _ _) fun _ => hrules.updateStage _ _ _).ensures
      (hv.mono (subset_refl _) Set.sdiff_subset (subset_refl _))

/-- An order that has passed the risk check: the engine takes it, or it is routed. -/
theorem sends_dispatchOrder (cfg : Config) (env : Env) {index : OrderIndex}
    {orderId : InternalOrderId}
    (hfresh : index ∈ fresh) {w : World} (h : w.SendsOnce held fresh taken wrote)
    (hslot : ∀ e, w.book.findOrder orderId = some e → e.shmOrderIndex = index) :
    Ensures (dispatchOrder cfg env index orderId) w fun _ v =>
      v.SendsOnce held (fresh \ {index}) taken wrote := by
  refine Ensures.bind (Ensures.read ?_)
  cases hfound : w.book.findOrder orderId with
  | none => exact h.mono (subset_refl _) Set.sdiff_subset (subset_refl _)
  | some active =>
      simp only
      split
      · exact (((sends_callRules held fresh taken wrote).manageOrder cfg env index orderId).ensures
          h).mono fun _ v hv => hv.mono (subset_refl _) Set.sdiff_subset (subset_refl _)
      · exact sends_routeNewOrder env (hslot active hfound) hfresh h

/-- The steps between the book and the route leave an order in its slot. -/
theorem slot_updateState (now : TimestampNs) (orderId id : InternalOrderId) (state : OrderState)
    (index : OrderIndex) :
    Preserves (fun w : World => ∀ e, w.book.findOrder id = some e → e.shmOrderIndex = index)
      (updateState now orderId state) := by
  intro w h e' he'
  rw [updateState, run_onBook, World.book_applyBook] at he'
  obtain ⟨e, he, hslot, -⟩ := w.book.carriedBy_updateState orderId state now id e' he'
  exact hslot ▸ h e he

theorem slot_passesRisk (env : Env) (request : OrderRequest) (id : InternalOrderId)
    (index : OrderIndex) :
    Preserves (fun w : World => ∀ e, w.book.findOrder id = some e → e.shmOrderIndex = index)
      (passesRisk env request) := by
  refine Preserves.ite (Preserves.bind (Preserves.atomic fun w h => h) fun result =>
    Preserves.bind (fun w h e' he' => ?_) fun _ => Preserves.pure _) (Preserves.pure _)
  rw [run_modifyOrder] at he'
  obtain ⟨e, he, hslot, -⟩ :=
    OrderBook.carriedBy_modifyOrder (f := fun e => { e with riskResult := result.code })
    (fun e _ => ⟨rfl, .refl e.request⟩) id e' he'
  exact hslot ▸ h e he

theorem carriedBy_prepareOrderEstimate (cfg : Config) (request : OrderRequest) :
    request.CarriedBy (prepareOrderEstimate cfg request) := by
  rw [prepareOrderEstimate]
  split
  · exact .refl _
  split
  · exact .refl _
  split
  · exact .refl _
  · exact fun hnone => ⟨hnone, rfl⟩

/-- The id of a request that has none is written to its slot. -/
theorem sends_assignOrderId (env : Env) {index : OrderIndex} {request : OrderRequest}
    (hmem : index ∈ held)
    (hid : index ∈ taken → (wrote index).Complete → request.internalOrderId ≠ 0) {w : World}
    (h : w.SendsOnce held fresh taken wrote) :
    Ensures (assignOrderId env index request) w fun request' v =>
      v.SendsOnce held fresh taken wrote ∧ (request.internalOrderId ≠ 0 → request' = request) := by
  rw [assignOrderId]
  split
  next hzero =>
    have hwrite : Preserves (World.SendsOnce held fresh taken wrote) (do
        let orderId ← allocateInternalOrderId
        let request := { request with internalOrderId := orderId }
        let _ ← syncOrder index request env.nowNs
        pure request) :=
      Preserves.bind sends_allocateInternalOrderId fun _ =>
        Preserves.bind
          (sends_mutateSlot (Or.inl ⟨hmem, fun hin hcomplete => hid hin hcomplete hzero⟩))
          fun _ => Preserves.pure _
    exact (hwrite.ensures h).mono fun _ v hv => ⟨hv, fun hne => absurd hzero hne⟩
  next => exact Ensures.pure ⟨h, fun _ => rfl⟩

/-- A request that the service takes from a client. -/
theorem sends_admitOrder (cfg : Config) (env : Env) {index : OrderIndex} {request : OrderRequest}
    (hmem : index ∈ held) (hfresh : index ∈ fresh)
    (hrequest : index ∈ taken → (wrote index).Complete →
      request.internalOrderId ≠ 0 ∧ (wrote index).CarriedBy request)
    {w : World} (h : w.SendsOnce held fresh taken wrote) :
    Ensures (admitOrder cfg env index request) w fun _ v =>
      v.SendsOnce (held \ {index}) (fresh \ {index}) taken wrote := by
  have hrules := sends_callRules (held \ {index}) fresh taken wrote
  refine Ensures.bind
    ((sends_assignOrderId env hmem (fun hin hcomplete => (hrequest hin hcomplete).1) h).mono
    fun request' v ⟨hv, hsame⟩ => ?_)
  set complete := prepareOrderEstimate cfg request' with hprepared
  have hcarried : index ∈ taken → (wrote index).Complete → (wrote index).CarriedBy complete := by
    intro hin hcomplete
    obtain ⟨hid, hkept⟩ := hrequest hin hcomplete
    rw [hprepared, hsame hid]
    exact hkept.trans (carriedBy_prepareOrderEstimate cfg request)
  have hadded := sends_addOrder env.nowNs (requestEntry env index complete) hv hmem hcarried
  have hslot : ((addOrder env.nowNs (requestEntry env index complete)).run v).1 = true →
      ∀ e, ((addOrder env.nowNs (requestEntry env index complete)).run v).2.book.findOrder
        complete.internalOrderId = some e → e.shmOrderIndex = index := by
    rw [addOrder, run_onBook]
    intro hok e he
    rw [World.book_applyBook] at he
    have hfree : v.book.findOrder complete.internalOrderId = none :=
      ((OrderBook.addOrder_ok_iff _ _ _).1 hok).2.1
    rcases OrderBook.carriedBy_addOrder hok he with ⟨hslot, -⟩ | ⟨e₀, he₀, -⟩
    · exact hslot
    · exact absurd he₀ (by rw [hfree]; simp)
  refine Ensures.bind ?_
  rw [Ensures]
  generalize (addOrder env.nowNs (requestEntry env index complete)).run v = out at hadded hslot ⊢
  have hkept : ∀ {v : World}, v.SendsOnce (held \ {index}) fresh taken wrote →
      v.SendsOnce (held \ {index}) (fresh \ {index}) taken wrote := fun hv =>
    hv.mono (subset_refl _) Set.sdiff_subset (subset_refl _)
  -- the order keeps its slot up to the route
  have hstate :
      ∀ state, Preserves (fun u : World => u.SendsOnce (held \ {index}) fresh taken wrote ∧
      ∀ e, u.book.findOrder complete.internalOrderId = some e → e.shmOrderIndex = index)
        (updateState env.nowNs complete.internalOrderId state) := fun state u hu =>
    ⟨hrules.updateState _ _ _ u hu.1, slot_updateState _ _ _ _ _ u hu.2⟩
  have hrisk : Preserves (fun u : World => u.SendsOnce (held \ {index}) fresh taken wrote ∧
      ∀ e, u.book.findOrder complete.internalOrderId = some e → e.shmOrderIndex = index)
        (passesRisk env complete) := fun u hu =>
          ⟨hrules.passesRisk _ _ u hu.1, slot_passesRisk _ _ _ _ u hu.2⟩
  by_cases hok : out.1 = true
  · rw [if_pos hok]
    refine Ensures.bind (((hstate _).ensures ⟨hadded, hslot hok⟩).mono fun _ v₁ hv₁ => ?_)
    refine Ensures.bind ((hrisk.ensures hv₁).mono fun passed v₂ hv₂ => ?_)
    split
    · refine Ensures.bind (((hstate _).ensures hv₂).mono fun _ v₃ hv₃ => ?_)
      exact sends_dispatchOrder cfg env hfresh hv₃.1 hv₃.2
    · exact ((Preserves.bind (hrules.updateState _ _ _) fun _ => hrules.updateStage _ _ _).ensures
        hv₂.1).mono fun _ u hu => hkept hu
  · rw [if_neg hok]
    exact ((Preserves.bind (hrules.updateStage _ _ _) fun _ => hrules.recordError _).ensures
      hadded).mono fun _ u hu => hkept hu

/-- The slot of a call: it is pushed at most once, with what the client wrote. -/
theorem sends_handleOrderRequest (cfg : Config) (env : Env) {index : OrderIndex}
    {request : OrderRequest} (hmem : index ∈ held) (hfresh : index ∈ fresh)
    (hrequest : index ∈ taken → (wrote index).Complete → request = wrote index)
    {w : World} (h : w.SendsOnce held fresh taken wrote) :
    Ensures (handleOrderRequest cfg env index request) w fun _ v =>
      v.SendsOnce (held \ {index}) (fresh \ {index}) taken wrote := by
  rw [handleOrderRequest]
  split
  next hlacks =>
    -- a request without its key is not complete
    have hvoid : index ∈ taken → ¬(wrote index).Complete := by
      intro hin hcomplete
      have hkey := hcomplete.2
      rw [← hrequest hin hcomplete, hlacks] at hkey
      exact Bool.noConfusion hkey
    split
    · have hrefuse : Preserves (World.SendsOnce held fresh taken wrote) (do
          let _ ← syncOrder index { request with orderState := .traderError } env.nowNs
          updateStage index .queuePushFailed env.nowNs
          recordError ⟨.order, .invalidParam, "EventLoop",
            "invalid market/security_id for internal key"⟩) :=
        Preserves.bind (sends_mutateSlot (Or.inl ⟨hmem, hvoid⟩)) fun _ =>
          Preserves.bind (sends_updateStage _ _ _) fun _ => sends_recordError _
      exact (hrefuse.ensures h).mono fun _ v hv =>
        hv.mono Set.sdiff_subset Set.sdiff_subset (subset_refl _)
    · exact sends_admitOrder cfg env hmem hfresh
        (fun hin hcomplete => absurd hcomplete (hvoid hin)) h
  next =>
    refine sends_admitOrder cfg env hmem hfresh (fun hin hcomplete => ?_) h
    rw [hrequest hin hcomplete]
    exact ⟨hcomplete.1, .refl _⟩

/-- The service takes an index from the queue of its clients. -/
theorem sends_processUpstreamOrder (cfg : Config) (env : Env) {index : OrderIndex}
    (hmem : index ∈ held) (hfresh : index ∈ fresh) {w : World}
    (hwritten : ∀ shm, w.ordersShm = some shm → (shm.slots index).request = wrote index)
    (h : w.SendsOnce held fresh taken wrote) :
    ((processUpstreamOrder cfg env index).run w).2.SendsOnce (held \ {index}) (fresh \ {index})
      (insert index taken) wrote := by
  -- from now on the slot is one that was handed over
  have htaken : w.SendsOnce held fresh (insert index taken) wrote := by
    refine ⟨h.mirrored, h.once, fun shm hshm i hi => ?_, h.apart, fun shm hshm i hi hcomplete => ?_⟩
    · rcases hi with hi | hi | rfl | hi
      · exact h.known shm hshm i (Or.inl hi)
      · exact h.known shm hshm i (Or.inr (Or.inl hi))
      · exact h.known shm hshm i (Or.inr (Or.inl hfresh))
      · exact h.known shm hshm i (Or.inr (Or.inr hi))
    · rcases hi with rfl | hi
      · rw [hwritten shm hshm]
        exact .refl _
      · exact h.carried shm hshm i hi hcomplete
  simp only [processUpstreamOrder, run_bind, run_read]
  cases hsnapshot : w.ordersShm.bind fun shm => shm.readSnapshot index with
  | none =>
      exact (sends_recordError _ w htaken).mono Set.sdiff_subset Set.sdiff_subset (subset_refl _)
  | some slot =>
      obtain ⟨shm, hshm, hread⟩ := Option.bind_eq_some_iff.1 hsnapshot
      have hslot : slot.request = wrote index := by
        rw [OrdersShm.readSnapshot] at hread
        split at hread
        · rw [← Option.some.inj hread, hwritten shm hshm]
        · exact absurd hread (by simp)
      exact sends_handleOrderRequest cfg env hmem hfresh (fun _ _ => hslot)
        (sends_updateStage _ _ _ w htaken)

end Service

end AccountServices
