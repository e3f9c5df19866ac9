import AccountServices.Core.SlotMirror

/-!
# The slots that clients hold

A handler writes to the slots of live orders, to the slot of the request that it was called with,
and to slots that it allocates. The slots that clients hold are none of these, so they contain what
their clients wrote to them until the service is called with them.
-/

set_option autoImplicit false

namespace AccountServices

open Foundation

/-! ## What clients wrote -/

/-- The pool mirrors the book, and the slots in `kept`, which clients hold, contain the requests in
`wrote`. -/
structure World.Keeps (held kept : Set OrderIndex) (wrote : OrderIndex → OrderRequest) (w : World) :
    Prop where
  mirrored : w.Mirrored held
  contents : ∀ shm, w.ordersShm = some shm → ∀ i ∈ kept, (shm.slots i).request = wrote i

namespace World

variable {w : World} {held held' kept : Set OrderIndex} {wrote : OrderIndex → OrderRequest}

/-- A slot that a client holds exists. -/
theorem Mirrored.exists_held (h : w.Mirrored held) {shm : OrdersShm} (hshm : w.ordersShm = some shm)
    {i : OrderIndex} (hi : i ∈ held) : shm.indexExists i = true := by
  obtain ⟨shm', h⟩ := h
  obtain rfl := Option.some.inj (h.attached.symm.trans hshm)
  exact h.held_exists i hi

/-- What an operation of the book with its callbacks leaves in a slot that none of its notes is
about. -/
theorem Keeps.notifications (h : w.Keeps held kept wrote) {v : World}
    (hshm : v.ordersShm = w.ordersShm) (now : TimestampNs) (op : OrderBook → BookOutcome)
    (hafter : (v.applyBook now op).Mirrored held') (hkept : kept ⊆ held)
    (hnotes : ∀ note ∈ (op v.book).notes, note.1.HasSlot → note.1.shmOrderIndex ∉ kept) :
    (v.applyBook now op).Keeps held' kept wrote := by
  refine ⟨hafter, fun shm hshm' i hi => ?_⟩
  obtain ⟨shm₀, hmirrored⟩ := h.mirrored
  obtain ⟨shm', hfold, -, hslots⟩ := ordersShm_notifications (w := { v with
    book := (op v.book).book, errors := v.errors ++ (op v.book).errors }) now (op v.book).notes
      (hshm.trans hmirrored.attached)
  obtain rfl : shm' = shm := Option.some.inj (hfold.symm.trans hshm')
  have hexists := hmirrored.held_exists i (hkept hi)
  rcases hslots i hexists with ⟨-, hsame⟩ | ⟨note, hmem, rfl, -⟩
  · rw [hsame]
    exact h.contents shm₀ hmirrored.attached i hi
  · exact absurd hi (hnotes note hmem (of_decide_eq_true hexists).1)

/-- An operation whose notes are about live orders, which have their slots for themselves. -/
theorem Keeps.announce (h : w.Keeps held kept wrote) {v : World} (hshm : v.ordersShm = w.ordersShm)
    (now : TimestampNs) (op : OrderBook → BookOutcome)
    (hafter : (v.applyBook now op).Mirrored held') (hkept : kept ⊆ held) (hheld : kept ⊆ held')
    (hcurrent : ∀ note ∈ (op v.book).notes, ∃ k, (op v.book).book.findOrder k = some note.1) :
    (v.applyBook now op).Keeps held' kept wrote := by
  refine h.notifications hshm now op hafter hkept fun note hmem hhas hin => ?_
  obtain ⟨k, hk⟩ := hcurrent note hmem
  obtain ⟨shm, hmirrored⟩ := hafter
  exact hmirrored.slot_private k note.1 (by rw [book_applyBook]; exact hk) hhas (hheld hin)

theorem Keeps.mono (h : w.Keeps held kept wrote) (hsub : held' ⊆ held) : w.Keeps held' kept wrote :=
  ⟨h.mirrored.mono hsub, h.contents⟩

theorem Keeps.forget {kept' : Set OrderIndex} (h : w.Keeps held kept wrote) (hsub : kept' ⊆ kept) :
    w.Keeps held kept' wrote :=
  ⟨h.mirrored, fun shm hshm i hi => h.contents shm hshm i (hsub hi)⟩

theorem Keeps.congr {v : World} (h : w.Keeps held kept wrote)
    (hfind : ∀ k, v.book.findOrder k = w.book.findOrder k) (hshm : v.ordersShm = w.ordersShm) :
    v.Keeps held kept wrote :=
  ⟨h.mirrored.congr hfind hshm, fun shm heq => h.contents shm (hshm ▸ heq)⟩

/-- A slot that was just handed out is nobody else's. -/
theorem Keeps.allocate (h : w.Keeps held held wrote) {shm : OrdersShm}
    (hshm : w.ordersShm = some shm) (hroom : shm.nextIndex < shm.capacity) :
    shm.nextIndex ∉ held ∧ World.Keeps (insert shm.nextIndex held) (insert shm.nextIndex held)
      (Function.update wrote shm.nextIndex (shm.slots shm.nextIndex).request)
        { w with ordersShm := some shm.tryAllocate.2 } := by
  have hexists := (OrdersShm.indexExists_tryAllocate hroom).2
  obtain ⟨hnot, hslots, hkept⟩ := OrdersShm.tryAllocate_keeps hroom
  have hfresh : shm.nextIndex ∉ held := fun hmem =>
    Bool.noConfusion (hnot.symm.trans (h.mirrored.exists_held hshm hmem))
  refine ⟨hfresh, ?_, ?_⟩
  · refine (h.mirrored.others (v := { w with ordersShm := some shm.tryAllocate.2 }) hshm rfl rfl
      ⟨?_, ?_⟩).mono ?_
    · exact fun i hi => (hkept i hi).2
    · intro i _ _
      rw [hslots]
    · intro i hi
      rcases Set.mem_insert_iff.1 hi with rfl | hi
      · exact Or.inr ⟨hexists, hnot⟩
      · exact Or.inl hi
  · intro shm' hshm' i hi
    obtain rfl := Option.some.inj hshm'
    rw [hslots]
    rcases Set.mem_insert_iff.1 hi with rfl | hi
    · rw [Function.update_self]
    · have hne : i ≠ shm.nextIndex := by
        rintro rfl
        exact hfresh hi
      rw [Function.update_of_ne hne]
      exact h.contents shm hshm i hi

/-- A client writes a request to a slot that it holds. -/
theorem Keeps.write (h : w.Keeps held held wrote) {shm : OrdersShm} (hshm : w.ordersShm = some shm)
    {i : OrderIndex} (hi : i ∈ held) {f : OrderSlot → OrderSlot} {request : OrderRequest}
    (hf : ∀ slot, (f slot).request = request) :
    World.Keeps held held (Function.update wrote i request)
      { w with ordersShm := some (shm.mutateSlot i f).2 } := by
  have hexists := h.mirrored.exists_held hshm hi
  refine ⟨?_, fun shm' hshm' j hj => ?_⟩
  · obtain ⟨shm₀, hmirrored⟩ := h.mirrored
    obtain rfl := Option.some.inj (hmirrored.attached.symm.trans hshm)
    exact ⟨_, hmirrored.mutateSlot (Or.inl hi)⟩
  · obtain rfl := Option.some.inj hshm'
    by_cases heq : j = i
    · subst heq
      rw [OrdersShm.slots_mutateSlot_self f hexists, hf, Function.update_self]
    · rw [OrdersShm.slots_mutateSlot_of_ne shm f heq, Function.update_of_ne heq]
      exact h.contents shm hshm j hj

end World

namespace Service

open Program

variable {held kept : Set OrderIndex} {wrote : OrderIndex → OrderRequest}

/-- A write to a slot whose contents nobody relies on, or one that keeps the request. -/
theorem keeps_mutateSlot (hkept : kept ⊆ held) {label : Action} {i : OrderIndex}
    {f : OrderSlot → OrderSlot}
    (hwrite : i ∈ held ∧ i ∉ kept ∨ ∀ slot, (f slot).request = slot.request) :
    Preserves (World.Keeps held kept wrote)
      (onOrdersShm label false fun shm => shm.mutateSlot i f) := by
  intro w h
  refine ⟨mirrored_mutateSlot (hwrite.imp_left And.left) w h.mirrored, fun shm' hshm' j hj => ?_⟩
  obtain ⟨shm, hmirrored⟩ := h.mirrored
  simp only [onOrdersShm, run_atomic, hmirrored.attached, Option.some.injEq] at hshm'
  rw [← hshm', ← h.contents shm hmirrored.attached j hj]
  by_cases heq : j = i
  · subst heq
    rcases hwrite with ⟨-, hout⟩ | hkeep
    · exact absurd hj hout
    · rw [OrdersShm.slots_mutateSlot_self f (hmirrored.held_exists j (hkept hj)), hkeep]
  · rw [OrdersShm.slots_mutateSlot_of_ne shm f heq]

theorem keeps_updateStage (hkept : kept ⊆ held) (index : OrderIndex) (stage : OrderSlotState)
    (now : TimestampNs) : Preserves (World.Keeps held kept wrote) (updateStage index stage now) :=
  Preserves.bind (keeps_mutateSlot hkept (Or.inr fun _ => rfl)) fun _ => Preserves.pure _

theorem keeps_recordError (error : ErrorStatus) :
    Preserves (World.Keeps held kept wrote) (recordError error) :=
  Preserves.modify fun _ h => h.congr (fun _ => rfl) rfl

/-- An operation of the book that keeps the mirror and announces live orders. -/
theorem keeps_onBook (hkept : kept ⊆ held) {now : TimestampNs} {op : OrderBook → BookOutcome}
    (hmirrored : Preserves (World.Mirrored held) (onBook now op))
    (hcurrent : ∀ b : OrderBook, ∃ told, b.Announces told (op b)) :
    Preserves (World.Keeps held kept wrote) (onBook now op) := by
  intro w h
  have hafter := hmirrored w h.mirrored
  rw [run_onBook] at hafter ⊢
  obtain ⟨told, hannounces⟩ := hcurrent w.book
  exact h.announce rfl now op hafter hkept hkept hannounces.current

theorem keeps_updateState (hkept : kept ⊆ held) (now : TimestampNs) (orderId : InternalOrderId)
    (state : OrderState) :
    Preserves (World.Keeps held kept wrote) (updateState now orderId state) :=
  keeps_onBook hkept (mirrored_updateState now orderId state) fun b =>
    ⟨_, b.announces_updateState orderId state now⟩

theorem keeps_sendToDownstream (hkept : kept ⊆ held) (now : TimestampNs) (index : OrderIndex) :
    Preserves (World.Keeps held kept wrote) (sendToDownstream now index) := by
  refine Preserves.bind Preserves.read fun attached => Preserves.ite ?_ ?_
  · refine Preserves.bind (Preserves.atomic fun w h => ?_) fun pushed =>
      Preserves.bind (keeps_updateStage hkept _ _ _) fun _ => Preserves.pure _
    split
    · exact h
    · exact h.congr (fun _ => rfl) rfl
  · exact Preserves.bind (keeps_recordError _) fun _ => Preserves.pure _

theorem keeps_allocateInternalOrderId :
    Preserves (World.Keeps held kept wrote) allocateInternalOrderId := by
  refine Preserves.atomic fun w h => ?_
  obtain ⟨_, _, _, heq⟩ := w.allocateOrderId_eq
  rw [heq]
  exact h.congr (fun _ => rfl) rfl

/-- A new slot is not one of those that clients hold. -/
theorem keeps_createInternalOrderSlot (hkept : kept ⊆ held) (now : TimestampNs)
    (request : OrderRequest)
    {w : World} (h : w.Keeps held kept wrote) :
    Ensures (createInternalOrderSlot now request) w fun slot v =>
      v.Keeps held kept wrote ∧ ∀ index, slot = some index →
        index ∉ held ∧ v.Keeps (insert index held) kept wrote := by
  have hcreate := ensures_createInternalOrderSlot now request h.mirrored
  suffices hcontents :
      ∀ shm', ((createInternalOrderSlot now request).run w).2.ordersShm = some shm' →
      ∀ i ∈ kept, (shm'.slots i).request = wrote i from
    ⟨⟨hcreate.1, hcontents⟩, fun index hindex =>
      ⟨(hcreate.2 index hindex).1, (hcreate.2 index hindex).2, hcontents⟩⟩
  obtain ⟨shm, hmirrored⟩ := h.mirrored
  intro shm' hshm' i hi
  rw [← h.contents shm hmirrored.attached i hi]
  rcases createInternalOrderSlot_cases now request hmirrored.attached with
    hrun | ⟨shm'', hrun, -, -, hkeeps⟩
  · rw [hrun] at hshm'
    obtain rfl := Option.some.inj (hmirrored.attached.symm.trans hshm')
    rfl
  · rw [hrun] at hshm'
    obtain rfl := Option.some.inj hshm'
    rw [(hkeeps i (hmirrored.held_exists i (hkept hi))).2]

theorem keeps_addOrder (now : TimestampNs) (entry : OrderEntry) {w : World}
    (h : w.Keeps held kept wrote)
    (hkept : kept ⊆ held) (hmem : entry.shmOrderIndex ∈ held) (hout : entry.shmOrderIndex ∉ kept) :
    ((addOrder now entry).run w).2.Keeps (held \ {entry.shmOrderIndex}) kept wrote := by
  have hafter := mirrored_addOrder now entry h.mirrored hmem
  rw [addOrder, run_onBook] at hafter ⊢
  refine h.announce rfl now (fun b => b.addOrder entry now) hafter hkept ?_ ?_
  · exact fun i hi => ⟨hkept hi, fun heq => hout (Set.mem_singleton_iff.1 heq ▸ hi)⟩
  · intro note hnote
    cases hok : (w.book.addOrder entry now).ok with
    | true => exact (OrderBook.announces_addOrder hok).current note hnote
    | false =>
        rw [OrderBook.notes_addOrder_of_not_ok hok] at hnote
        exact absurd hnote List.not_mem_nil

theorem keeps_enterInternalOrder (now : TimestampNs) (texts : PlaceTexts) (entry : OrderEntry)
    {w : World} (h : w.Keeps held kept wrote) (hkept : kept ⊆ held)
    (hmem : entry.shmOrderIndex ∈ held)
    (hout : entry.shmOrderIndex ∉ kept) :
    ((enterInternalOrder now texts entry).run w).2.Keeps
      (held \ {entry.shmOrderIndex}) kept wrote := by
  have hadded := keeps_addOrder now entry h hkept hmem hout
  have hkept' : kept ⊆ held \ {entry.shmOrderIndex} :=
    fun i hi => ⟨hkept hi, fun heq => hout (Set.mem_singleton_iff.1 heq ▸ hi)⟩
  simp only [enterInternalOrder, run_bind]
  refine Preserves.ite ?_ ?_ _ hadded
  · refine Preserves.bind (keeps_sendToDownstream hkept' _ _) fun sent => Preserves.ite ?_ ?_
    · exact Preserves.bind (keeps_updateState hkept' _ _ _) fun _ => Preserves.pure _
    · exact Preserves.bind (keeps_updateState hkept' _ _ _) fun _ =>
        Preserves.bind (keeps_recordError _) fun _ => Preserves.pure _
  · exact Preserves.bind (keeps_updateStage hkept' _ _ _) fun _ =>
      Preserves.bind (keeps_recordError _) fun _ => Preserves.pure _

theorem keeps_placeInternalOrder (hkept : kept ⊆ held) (now : TimestampNs) (texts : PlaceTexts)
    {entry : OrderEntry} (hslot : entry.shmOrderIndex = kInvalidOrderIndex) :
    Preserves (World.Keeps held kept wrote) (placeInternalOrder now texts entry) := by
  intro w h
  have hcreate := keeps_createInternalOrderSlot hkept now entry.request h
  simp only [placeInternalOrder, run_bind, if_pos hslot]
  cases hout : ((createInternalOrderSlot now entry.request).run w).1 with
  | none => exact Preserves.bind (keeps_recordError _) (fun _ => Preserves.pure _) _ hcreate.1
  | some index =>
      obtain ⟨hfresh, hkeeps⟩ := hcreate.2 index hout
      have hentered :=
        keeps_enterInternalOrder now texts { entry with shmOrderIndex := index } hkeeps
        (fun i hi => Set.mem_insert_of_mem _ (hkept hi)) (Set.mem_insert _ _) fun hin =>
          hfresh (hkept hin)
      refine hentered.mono fun i hi => ⟨Set.mem_insert_of_mem _ hi, ?_⟩
      rintro rfl
      exact hfresh hi

/-- The handlers leave the slots that clients hold as they are. -/
theorem keeps_handlerRules (hkept : kept ⊆ held) : HandlerRules (World.Keeps held kept wrote) where
  recordError := keeps_recordError
  allocateInternalOrderId := keeps_allocateInternalOrderId
  updateState := keeps_updateState hkept
  sendToDownstream := keeps_sendToDownstream hkept
  placeInternalOrder now texts _ hslot _ := keeps_placeInternalOrder hkept now texts hslot
  engine _ _ _ h := h.congr (fun _ => rfl) rfl
  markManagedParent now parentId :=
    keeps_onBook hkept ((mirrored_handlerRules held).markManagedParent now parentId) fun b =>
      ⟨_, b.announces_markManagedParent parentId⟩
  syncParentView _ now := Preserves.bind
    (keeps_onBook hkept (mirrored_onBook fun b => b.announces_syncManagedParentView _ _ _ now)
      fun b =>
      ⟨_, b.announces_syncManagedParentView _ _ _ now⟩) fun _ => Preserves.pure _
  beside h _ hbook hshm _ := h.congr (fun k => by rw [hbook]) hshm
  annotate orderId _ hrequest hindex := fun w h =>
    ⟨mirrored_modifyOrder orderId hrequest hindex w h.mirrored, h.contents⟩
  -- The claim and the state are written together, and announced once.
  claimOrder now orderId claimed state := by
    intro w h
    have hafter := mirrored_claimOrder now orderId claimed state w h.mirrored
    rw [run_bind, run_modifyOrder, updateState, run_onBook] at hafter ⊢
    set v : World := { w with book := w.book.modifyOrder orderId fun e =>
      { e with request := { e.request with activeStrategyClaimed := claimed } } }
    exact h.announce (v := v) rfl now (fun b => b.updateState orderId state now) hafter hkept hkept
      (v.book.announces_updateState orderId state now).current
  updateStage := keeps_updateStage hkept
  updateTrade now orderId vol px val fee := keeps_onBook hkept
    (mirrored_updateTrade now orderId vol px val fee) fun b =>
      ⟨_, b.announces_updateTrade orderId vol px val fee now⟩
  -- The archived order is announced as it was in the book, with a slot that clients do not hold.
  archiveOrder now orderId := by
    intro w h
    have hafter := mirrored_archiveOrder now orderId w h.mirrored
    rw [archiveOrder, run_onBook] at hafter ⊢
    refine h.notifications rfl now (fun b => b.archiveOrder orderId) hafter hkept
      fun note hmem hhas hin => ?_
    have hlive := OrderBook.findOrder_of_note_archiveOrder hmem
    obtain ⟨shm, hmirrored⟩ := h.mirrored
    exact hmirrored.slot_private orderId note.1 hlive hhas (hkept hin)

/-! ## Requests -/

/-- A request takes its slot from the client; the other slots of clients stay. -/
theorem keeps_handleOrderRequest (hkept : kept ⊆ held) (cfg : Config) (env : Env)
    {index : OrderIndex}
    (request : OrderRequest) (hmem : index ∈ held) (hout : index ∉ kept) {w : World}
    (h : w.Keeps held kept wrote) :
    ((handleOrderRequest cfg env index request).run w).2.Keeps (held \ {index}) kept wrote := by
  have hkept' : kept ⊆ held \ {index} :=
    fun i hi => ⟨hkept hi, fun heq => hout (Set.mem_singleton_iff.1 heq ▸ hi)⟩
  refine (keeps_handlerRules hkept').handleOrderRequest cfg env
    (fun w hw => hw.mono Set.sdiff_subset)
    (fun request => keeps_mutateSlot hkept (Or.inl ⟨hmem, hout⟩)) keeps_allocateInternalOrderId
    (fun entry w hentry hw => ?_) h
  rw [← hentry]
  exact keeps_addOrder env.nowNs entry hw hkept (hentry ▸ hmem) (hentry ▸ hout)

/-- The service takes an index from the queue of its clients: it finds what the client wrote. -/
theorem keeps_processUpstreamOrder (hkept : kept ⊆ held) (cfg : Config) (env : Env)
    {index : OrderIndex}
    (hmem : index ∈ held) (hout : index ∉ kept) {w : World} (h : w.Keeps held kept wrote) :
    ((processUpstreamOrder cfg env index).run w).2.Keeps (held \ {index}) kept wrote := by
  simp only [processUpstreamOrder, run_bind, run_read]
  cases w.ordersShm.bind fun shm => shm.readSnapshot index with
  | none => exact (keeps_recordError _ w h).mono Set.sdiff_subset
  | some slot =>
      exact keeps_handleOrderRequest hkept cfg env slot.request hmem hout
        (keeps_updateStage hkept _ _ _ w h)

end Service

end AccountServices
