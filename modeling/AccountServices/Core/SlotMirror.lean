import AccountServices.Order.Announcements
import AccountServices.Core.Interleaving
import AccountServices.Core.HandlerRules

/-!
# The order pool mirrors the book

The change callback copies what the book announces into the slots of the pool. A live order is the
only one that writes its slot: a slot comes from a client, who hands it over once, or from the
allocator, who never hands out the same slot twice. So after every call the slot of a live order
holds the request that the book holds. `held` are the slots that clients have and may still write.
-/

set_option autoImplicit false

namespace AccountServices

open Foundation

/-- Whether an order has a slot in the pool. -/
def OrderEntry.HasSlot (e : OrderEntry) : Prop := e.shmOrderIndex ≠ kInvalidOrderIndex

/-- The pool mirrors the book, up to the orders in `stale`. -/
structure World.MirroredIn (w : World) (shm : OrdersShm) (stale : Set InternalOrderId)
    (held : Set OrderIndex) : Prop where
  attached : w.ordersShm = some shm
  held_exists : ∀ i ∈ held, shm.indexExists i = true
  slot_exists : ∀ k e, w.book.findOrder k = some e → e.HasSlot →
    shm.indexExists e.shmOrderIndex = true
  slot_private : ∀ k e, w.book.findOrder k = some e → e.HasSlot → e.shmOrderIndex ∉ held
  slot_distinct : ∀ k k' e e', w.book.findOrder k = some e → w.book.findOrder k' = some e' →
    e.HasSlot → e.shmOrderIndex = e'.shmOrderIndex → k = k'
  request : ∀ k e, k ∉ stale → w.book.findOrder k = some e → e.HasSlot →
    (shm.slots e.shmOrderIndex).request = e.request

/-- The pool mirrors the book. -/
def World.Mirrored (held : Set OrderIndex) (w : World) : Prop := ∃ shm, w.MirroredIn shm ∅ held

/-! ## The change callback -/

namespace World

variable {w : World} {shm : OrdersShm} {held : Set OrderIndex}

/-- The callback writes the request of the entry to its slot. -/
theorem ordersShm_notify (hshm : w.ordersShm = some shm) (now : TimestampNs)
    (note : OrderEntry × BookEvent) :
    ∃ f : OrderSlot → OrderSlot, (∀ slot, (f slot).request = note.1.request) ∧
      (w.notify now note).ordersShm = some (shm.mutateSlot note.1.shmOrderIndex f).2 := by
  simp only [notify, Service.onOrderBookChanged]
  rw [Program.run_bind, Program.run_read]
  have hattached : w.ordersShm.isSome = true := by rw [hshm]; rfl
  by_cases hinvalid : note.1.shmOrderIndex = kInvalidOrderIndex
  · rw [if_pos (Or.inr hinvalid)]
    refine ⟨fun slot => { slot with request := note.1.request }, fun _ => rfl, ?_⟩
    have hmissing : ¬ shm.indexExists note.1.shmOrderIndex = true :=
      fun h => (of_decide_eq_true h).1 hinvalid
    rw [OrdersShm.mutateSlot, if_neg hmissing]
    exact hshm
  · rw [if_neg (fun h => h.elim (fun h => h hattached) hinvalid), Program.run_bind]
    have hrecord : ∀ (synced : Bool) (error : ErrorStatus) (v : World),
        ((if synced = true then (pure () : Service Unit) else Service.recordError error).run
          v).2.ordersShm = v.ordersShm := by
      intro synced error v
      cases synced <;> rfl
    rw [hrecord]
    have hwrite : ∀ stage : OrderSlotState,
        ((Service.writeOrder note.1.shmOrderIndex note.1.request stage .accountInternal now).run
          w).2.ordersShm = some (shm.mutateSlot note.1.shmOrderIndex fun _ =>
            { request := note.1.request, stage := stage, source := .accountInternal,
              lastUpdateNs := now }).2 := by
      intro stage
      simp only [Service.writeOrder, Service.onOrdersShm, Program.run_atomic, hshm]
      rfl
    -- All three branches write the request; they differ in the stage.
    split
    · exact ⟨_, fun _ => rfl, hwrite .terminal⟩
    · split
      · exact ⟨_, fun _ => rfl, hwrite .riskRejected⟩
      · refine ⟨fun slot => { slot with request := note.1.request, lastUpdateNs := now }, fun _ =>
          rfl, ?_⟩
        simp only [Service.syncOrder, Service.onOrdersShm, Program.run_atomic, hshm]
        rfl

/-- What the pool holds after a series of notes: a slot that no note is about is untouched, and the
others hold the request of one of their notes. -/
theorem ordersShm_notifications (now : TimestampNs) (notes : List (OrderEntry × BookEvent))
    (hshm : w.ordersShm = some shm) :
    ∃ shm', (notes.foldl (fun w note => w.notify now note) w).ordersShm = some shm' ∧
      (∀ i, shm'.indexExists i = shm.indexExists i) ∧
      ∀ i, shm.indexExists i = true →
        ((∀ note ∈ notes, note.1.shmOrderIndex ≠ i) ∧
          (shm'.slots i).request = (shm.slots i).request) ∨
          ∃ note ∈ notes, note.1.shmOrderIndex = i ∧ (shm'.slots i).request = note.1.request := by
  induction notes generalizing w shm with
  | nil => exact ⟨shm, hshm, fun _ => rfl, fun i _ =>
      Or.inl ⟨fun _ h => absurd h List.not_mem_nil, rfl⟩⟩
  | cons note notes ih =>
      obtain ⟨f, hf, hnotify⟩ := ordersShm_notify hshm now note
      obtain ⟨shm', hfold, hexists, hslots⟩ := ih hnotify
      refine ⟨shm', hfold, fun i => ?_, fun i hi => ?_⟩
      · rw [hexists, OrdersShm.indexExists_mutateSlot]
      · have hi' : (shm.mutateSlot note.1.shmOrderIndex f).2.indexExists i = true := by
          rw [OrdersShm.indexExists_mutateSlot, hi]
        rcases hslots i hi' with ⟨hnone, hsame⟩ | ⟨later, hmem, hindex, hrequest⟩
        · by_cases heq : note.1.shmOrderIndex = i
          · subst heq
            refine Or.inr ⟨note, List.mem_cons_self, rfl, ?_⟩
            rw [hsame, OrdersShm.slots_mutateSlot_self f hi, hf]
          · refine Or.inl ⟨?_, ?_⟩
            · intro later hmem
              rcases List.mem_cons.1 hmem with rfl | hmem
              · exact heq
              · exact hnone later hmem
            · rw [hsame, OrdersShm.slots_mutateSlot_of_ne shm f (Ne.symm heq)]
        · exact Or.inr ⟨later, List.mem_cons_of_mem note hmem, hindex, hrequest⟩

/-- A book whose orders have the slots of live orders is mirrored as far as the requests agree. -/
theorem MirroredIn.withBook {stale stale' : Set InternalOrderId} (h : w.MirroredIn shm stale held)
    {b : OrderBook} (hfrom : ∀ k e, b.findOrder k = some e → ∃ e₀, w.book.findOrder k = some e₀ ∧
      e₀.shmOrderIndex = e.shmOrderIndex ∧ (k ∉ stale' → k ∉ stale ∧ e₀.request = e.request)) :
    MirroredIn { w with book := b } shm stale' held := by
  have hslot : ∀ {e e₀ : OrderEntry}, e₀.shmOrderIndex = e.shmOrderIndex →
      e.HasSlot → e₀.HasSlot := by
    intro e e₀ hindex hhas
    rw [OrderEntry.HasSlot, hindex]
    exact hhas
  refine ⟨h.attached, h.held_exists, ?_, ?_, ?_, ?_⟩
  · intro k e he hhas
    obtain ⟨e₀, he₀, hindex, -⟩ := hfrom k e he
    exact hindex ▸ h.slot_exists k e₀ he₀ (hslot hindex hhas)
  · intro k e he hhas
    obtain ⟨e₀, he₀, hindex, -⟩ := hfrom k e he
    exact hindex ▸ h.slot_private k e₀ he₀ (hslot hindex hhas)
  · intro k k' e e' he he' hhas heq
    obtain ⟨e₀, he₀, hindex, -⟩ := hfrom k e he
    obtain ⟨e₀', he₀', hindex', -⟩ := hfrom k' e' he'
    exact h.slot_distinct k k' e₀ e₀' he₀ he₀' (hslot hindex hhas)
      ((hindex.trans heq).trans hindex'.symm)
  · intro k e hstale he hhas
    obtain ⟨e₀, he₀, hindex, hsame⟩ := hfrom k e he
    obtain ⟨hstale₀, hrequest⟩ := hsame hstale
    rw [← hindex, ← hrequest]
    exact h.request k e₀ hstale₀ he₀ (hslot hindex hhas)

/-- Notes that carry current requests, those of all stale orders among them, bring the pool up to
date. -/
theorem MirroredIn.notifications {stale : Set InternalOrderId} (h : w.MirroredIn shm stale held)
    (now : TimestampNs) {notes : List (OrderEntry × BookEvent)}
    (hcurrent : ∀ note ∈ notes, ∀ k e, w.book.findOrder k = some e → e.HasSlot →
      e.shmOrderIndex = note.1.shmOrderIndex → note.1.request = e.request)
    (hheard : ∀ k ∈ stale, ∀ e, w.book.findOrder k = some e → ∃ event, (e, event) ∈ notes) :
    (notes.foldl (fun w note => w.notify now note) w).Mirrored held := by
  obtain ⟨shm', hfold, hexists, hslots⟩ := ordersShm_notifications now notes h.attached
  have hbook : (notes.foldl (fun w note => w.notify now note) w).book = w.book := by
    clear hfold hheard hcurrent hslots h
    induction notes generalizing w with
    | nil => rfl
    | cons note notes ih =>
        obtain ⟨shm, errors, hnotify⟩ := w.notify_eq now note
        rw [List.foldl_cons, ih, hnotify]
  refine ⟨shm', hfold, fun i hi => (hexists i).trans (h.held_exists i hi), ?_, ?_, ?_, ?_⟩
  all_goals rw [hbook]
  · exact fun k e he hhas => (hexists _).trans (h.slot_exists k e he hhas)
  · exact h.slot_private
  · exact h.slot_distinct
  intro k e _ he hhas
  rcases hslots e.shmOrderIndex (h.slot_exists k e he hhas) with
    ⟨hnone, hsame⟩ | ⟨note, hmem, hnote, hwritten⟩
  · -- Nothing was announced about this slot, so the order was not stale.
    have hfresh : k ∉ stale := by
      intro hstale
      obtain ⟨event, hmem⟩ := hheard k hstale e he
      exact hnone (e, event) hmem rfl
    rw [hsame]
    exact h.request k e hfresh he hhas
  · rw [hwritten]
    exact hcurrent note hmem k e he hhas hnote.symm

/-- A book operation that announces what was stale brings the pool up to date. -/
theorem MirroredIn.applyBook {b : OrderBook} {told : Set InternalOrderId}
    (h : MirroredIn { w with book := b } shm told held) (op : OrderBook → BookOutcome)
    (hannounces : b.Announces told (op w.book)) (now : TimestampNs) :
    (w.applyBook now op).Mirrored held := by
  -- Over the new book, exactly the orders with a note are stale.
  have hnew : MirroredIn { w with book := (op w.book).book } shm
      {k | ∃ e event, (op w.book).book.findOrder k = some e ∧
        (e, event) ∈ (op w.book).notes} held := by
    refine MirroredIn.withBook h fun k e he => ?_
    obtain ⟨e₀, he₀, hindex⟩ := hannounces.slot k e he
    refine ⟨e₀, he₀, hindex, fun hstale => ?_⟩
    rcases hannounces.heard k e he with ⟨event, hmem⟩ | ⟨htold, hkept⟩
    · exact absurd ⟨e, event, he, hmem⟩ hstale
    · have hsame : e₀ = e := Option.some.inj (he₀.symm.trans hkept)
      exact ⟨htold, congrArg OrderEntry.request hsame⟩
  have hfront : MirroredIn
      { w with book := (op w.book).book, errors := w.errors ++ (op w.book).errors } shm _ held :=
    ⟨hnew.attached, hnew.held_exists, hnew.slot_exists, hnew.slot_private,
      hnew.slot_distinct, hnew.request⟩
  refine hfront.notifications now ?_ ?_
  · -- A note about the slot of a live order is about that order.
    intro note hmem k e he hhas hindex
    obtain ⟨k', hk'⟩ := hannounces.current note hmem
    have hkey : k = k' := hnew.slot_distinct k k' e note.1 he hk' hhas hindex
    subst hkey
    have hsame : note.1 = e := Option.some.inj (hk'.symm.trans he)
    rw [hsame]
  · rintro k ⟨e', event, he', hmem⟩ e he
    have hsame : e' = e := Option.some.inj (he'.symm.trans he)
    exact ⟨event, hsame ▸ hmem⟩

theorem MirroredIn.announce {told : Set InternalOrderId} (h : w.MirroredIn shm told held)
    (op : OrderBook → BookOutcome) (hannounces : w.book.Announces told (op w.book))
    (now : TimestampNs) :
    (w.applyBook now op).Mirrored held :=
  MirroredIn.applyBook h op hannounces now

/-- An archived order leaves its slot with its last request. -/
theorem Mirrored.archive (h : w.Mirrored held) (orderId : InternalOrderId) (now : TimestampNs) :
    (w.applyBook now fun b => b.archiveOrder orderId).Mirrored held := by
  obtain ⟨shm, h⟩ := h
  have hlive : ∀ k e, (w.book.archiveOrder orderId).book.findOrder k = some e →
      k ≠ orderId ∧ w.book.findOrder k = some e := by
    intro k e he
    rw [OrderBook.findOrder_archiveOrder] at he
    split at he
    · exact absurd he (by simp)
    next hne => exact ⟨hne, he⟩
  have hnew : MirroredIn { w with book := (w.book.archiveOrder orderId).book } shm ∅ held :=
    h.withBook fun k e he => ⟨e, (hlive k e he).2, rfl, fun hstale => ⟨hstale, rfl⟩⟩
  have hfront : MirroredIn
      { w with
        book := (w.book.archiveOrder orderId).book
        errors := w.errors ++ (w.book.archiveOrder orderId).errors } shm ∅ held :=
    ⟨hnew.attached, hnew.held_exists, hnew.slot_exists, hnew.slot_private,
      hnew.slot_distinct, hnew.request⟩
  refine hfront.notifications now ?_ fun k hk => absurd hk (Set.notMem_empty k)
  -- The one note is about the archived order, with which no live order shares its slot.
  intro note hmem k e he hhas hindex
  have harchived := OrderBook.findOrder_of_note_archiveOrder hmem
  obtain ⟨hne, hbefore⟩ := hlive k e he
  exact absurd (h.slot_distinct k orderId e note.1 hbefore harchived hhas hindex) hne

/-! ## Steps beside the callback -/

/-- The mirror is about the entries of the book and about the pool. -/
theorem Mirrored.congr {v : World} (h : w.Mirrored held)
    (hfind : ∀ k, v.book.findOrder k = w.book.findOrder k) (hshm : v.ordersShm = w.ordersShm) :
    v.Mirrored held := by
  obtain ⟨shm, h⟩ := h
  refine ⟨shm, hshm.trans h.attached, h.held_exists, ?_, ?_, ?_, ?_⟩
  all_goals simp only [hfind]
  · exact h.slot_exists
  · exact h.slot_private
  · exact h.slot_distinct
  · exact h.request

theorem Mirrored.mono {held' : Set OrderIndex} (h : w.Mirrored held) (hsub : held' ⊆ held) :
    w.Mirrored held' := by
  obtain ⟨shm, h⟩ := h
  exact ⟨shm, h.attached, fun i hi => h.held_exists i (hsub hi), h.slot_exists,
    fun k e he hhas hmem => h.slot_private k e he hhas (hsub hmem), h.slot_distinct, h.request⟩

/-- A write to an entry leaves at most that order stale. -/
theorem MirroredIn.modifyOrder {stale : Set InternalOrderId} (h : w.MirroredIn shm ∅ held)
    (orderId : InternalOrderId) {f : OrderEntry → OrderEntry}
    (hindex : ∀ e, (f e).shmOrderIndex = e.shmOrderIndex)
    (hrequest : orderId ∉ stale → ∀ e, (f e).request = e.request) :
    MirroredIn { w with book := w.book.modifyOrder orderId f } shm stale held := by
  refine h.withBook fun k e he => ?_
  rw [OrderBook.findOrder_modifyOrder] at he
  split at he
  next heq =>
    rw [Option.map_eq_some_iff] at he
    obtain ⟨e₀, he₀, rfl⟩ := he
    exact ⟨e₀, heq ▸ he₀, (hindex e₀).symm,
      fun hstale => ⟨Set.notMem_empty k, (hrequest (heq ▸ hstale) e₀).symm⟩⟩
  next => exact ⟨e, he, rfl, fun _ => ⟨Set.notMem_empty k, rfl⟩⟩

/-- A write to a slot that clients hold, or one that keeps the request. -/
theorem MirroredIn.mutateSlot {stale : Set InternalOrderId} (h : w.MirroredIn shm stale held)
    {i : OrderIndex} {f : OrderSlot → OrderSlot}
    (hwrite : i ∈ held ∨ ∀ slot, (f slot).request = slot.request) :
    MirroredIn { w with ordersShm := some (shm.mutateSlot i f).2 }
      (shm.mutateSlot i f).2 stale held := by
  have hexists : ∀ j, (shm.mutateSlot i f).2.indexExists j = shm.indexExists j :=
    shm.indexExists_mutateSlot i f
  refine ⟨rfl, fun j hj => (hexists j).trans (h.held_exists j hj),
    fun k e he hhas => (hexists _).trans (h.slot_exists k e he hhas), h.slot_private,
      h.slot_distinct, ?_⟩
  intro k e hstale he hhas
  rw [← h.request k e hstale he hhas]
  by_cases heq : e.shmOrderIndex = i
  · rcases hwrite with hheld | hkeep
    · exact absurd (heq ▸ hheld) (h.slot_private k e he hhas)
    · subst heq
      rw [OrdersShm.slots_mutateSlot_self f (h.slot_exists k e he hhas), hkeep]
  · rw [OrdersShm.slots_mutateSlot_of_ne shm f heq]

end World

namespace Service

open Program

variable {held : Set OrderIndex}

/-! ## The router and the engine -/

/-- A mutation of a slot that clients hold, or one that keeps the request. -/
theorem mirrored_mutateSlot {label : Action} {i : OrderIndex} {f : OrderSlot → OrderSlot}
    (hwrite : i ∈ held ∨ ∀ slot, (f slot).request = slot.request) :
    Preserves (World.Mirrored held) (onOrdersShm label false fun shm => shm.mutateSlot i f) := by
  rintro w ⟨shm, h⟩
  simp only [onOrdersShm, run_atomic, h.attached]
  exact ⟨_, h.mutateSlot hwrite⟩

theorem mirrored_updateStage (index : OrderIndex) (stage : OrderSlotState) (now : TimestampNs) :
    Preserves (World.Mirrored held) (updateStage index stage now) :=
  Preserves.bind (mirrored_mutateSlot (Or.inr fun _ => rfl)) fun _ => Preserves.pure _

/-- An operation of the book that announces what it changes. -/
theorem mirrored_onBook {now : TimestampNs} {op : OrderBook → BookOutcome}
    (hannounces : ∀ b : OrderBook, b.Announces ∅ (op b)) :
    Preserves (World.Mirrored held) (onBook now op) := by
  rintro w ⟨shm, h⟩
  rw [run_onBook]
  exact h.announce op (hannounces w.book) now

theorem mirrored_updateState (now : TimestampNs) (orderId : InternalOrderId) (state : OrderState) :
    Preserves (World.Mirrored held) (updateState now orderId state) :=
  mirrored_onBook fun b => (b.announces_updateState orderId state now).mono (Set.empty_subset _)

theorem mirrored_updateTrade (now : TimestampNs) (orderId : InternalOrderId)
    (vol : Volume) (px : DPrice)
    (val fee : DValue) : Preserves (World.Mirrored held) (updateTrade now orderId vol px val fee) :=
  mirrored_onBook fun b => (b.announces_updateTrade orderId vol px val fee now).mono
    (Set.empty_subset _)

theorem mirrored_recordError (error : ErrorStatus) :
    Preserves (World.Mirrored held) (recordError error) :=
  Preserves.modify fun _ h => h.congr (fun _ => rfl) rfl

theorem mirrored_sendToDownstream (now : TimestampNs) (index : OrderIndex) :
    Preserves (World.Mirrored held) (sendToDownstream now index) := by
  refine Preserves.bind Preserves.read fun attached => Preserves.ite ?_ ?_
  · refine Preserves.bind (Preserves.atomic fun w h => ?_) fun pushed =>
      Preserves.bind (mirrored_updateStage _ _ _) fun _ => Preserves.pure _
    split
    · exact h
    · exact h.congr (fun _ => rfl) rfl
  · exact Preserves.bind (mirrored_recordError _) fun _ => Preserves.pure _

theorem mirrored_allocateInternalOrderId :
    Preserves (World.Mirrored held) allocateInternalOrderId := by
  refine Preserves.atomic fun w h => ?_
  obtain ⟨_, _, _, heq⟩ := w.allocateOrderId_eq
  rw [heq]
  exact h.congr (fun _ => rfl) rfl

/-- A slot of the service: the next one, if there is one, and the slots that exist stay as they
are. -/
theorem createInternalOrderSlot_cases (now : TimestampNs) (request : OrderRequest)
    {w : World} {shm : OrdersShm} (hshm : w.ordersShm = some shm) :
    (createInternalOrderSlot now request).run w = (none, w) ∨
      ∃ shm', (createInternalOrderSlot now request).run w =
          (some shm.nextIndex, { w with ordersShm := some shm' }) ∧
        shm.indexExists shm.nextIndex = false ∧ shm'.indexExists shm.nextIndex = true ∧
          ∀ i, shm.indexExists i = true → shm'.indexExists i = true ∧
            shm'.slots i = shm.slots i := by
  simp only [createInternalOrderSlot, run_bind, onOrdersShm, run_atomic, hshm]
  by_cases hroom : shm.nextIndex < shm.capacity
  · obtain ⟨hallocate, hexists⟩ := OrdersShm.indexExists_tryAllocate hroom
    obtain ⟨hnot, hslots, hkept⟩ := OrdersShm.tryAllocate_keeps hroom
    refine Or.inr
      ⟨(shm.tryAllocate.2.writeOrder shm.nextIndex request .upstreamDequeued
      .accountInternal now).2, ?_, hnot, ?_, fun i hi => ?_⟩
    · rw [hallocate]
      simp only [run_bind, writeOrder, onOrdersShm, run_atomic, run_pure]
      have hwritten :
          (shm.tryAllocate.2.writeOrder shm.nextIndex request .upstreamDequeued
          .accountInternal now).1 = true := (OrdersShm.mutateSlot_fst _ _ _).trans hexists
      exact Prod.ext (if_pos hwritten) rfl
    · rw [OrdersShm.writeOrder, OrdersShm.indexExists_mutateSlot]
      exact hexists
    · rw [OrdersShm.writeOrder, OrdersShm.indexExists_mutateSlot,
        OrdersShm.slots_mutateSlot_of_ne _ _ (hkept i hi).1, hslots]
      exact ⟨(hkept i hi).2, rfl⟩
  · have hnone : shm.tryAllocate = (none, shm) := dif_neg hroom
    rw [hnone]
    exact Or.inl (Prod.ext rfl (by rw [← hshm]; rfl))

/-- The allocator hands out a slot that nobody has. -/
theorem ensures_createInternalOrderSlot (now : TimestampNs) (request : OrderRequest) {w : World}
    (h : w.Mirrored held) : Ensures (createInternalOrderSlot now request) w fun slot v =>
      v.Mirrored held ∧ ∀ index, slot = some index → index ∉ held ∧
        v.Mirrored (insert index held) := by
  obtain ⟨shm, hmirrored⟩ := h
  rw [Ensures]
  rcases createInternalOrderSlot_cases now request hmirrored.attached with
    hrun | ⟨shm', hrun, hnew, hexists, hkept⟩
  · rw [hrun]
    exact ⟨⟨shm, hmirrored⟩, fun index hindex => absurd hindex (by simp)⟩
  · rw [hrun]
    have hold : ∀ i, shm.indexExists i = true → i ≠ shm.nextIndex := by
      rintro i hi rfl
      exact Bool.noConfusion (hnew.symm.trans hi)
    have hafter : World.Mirrored (insert shm.nextIndex held) { w with ordersShm := some shm' } := by
      refine ⟨shm', rfl, ?_, ?_, ?_, hmirrored.slot_distinct, ?_⟩
      · intro i hi
        rcases Set.mem_insert_iff.1 hi with rfl | hi
        · exact hexists
        · exact (hkept i (hmirrored.held_exists i hi)).1
      · exact fun k e he hhas => (hkept _ (hmirrored.slot_exists k e he hhas)).1
      · intro k e he hhas hmem
        rcases Set.mem_insert_iff.1 hmem with heq | hmem
        · exact hold _ (hmirrored.slot_exists k e he hhas) heq
        · exact hmirrored.slot_private k e he hhas hmem
      · intro k e hstale he hhas
        rw [(hkept _ (hmirrored.slot_exists k e he hhas)).2]
        exact hmirrored.request k e hstale he hhas
    refine ⟨hafter.mono (Set.subset_insert _ _), fun index hindex => ?_⟩
    obtain rfl := Option.some.inj hindex
    exact ⟨fun hmem => hold _ (hmirrored.held_exists _ hmem) rfl, hafter⟩

/-- An order with a slot that nobody has enters the book; the slot is its own from then on. -/
theorem mirrored_addOrder (now : TimestampNs) (entry : OrderEntry) {w : World} (h : w.Mirrored held)
    (hmem : entry.shmOrderIndex ∈ held) :
    ((addOrder now entry).run w).2.Mirrored (held \ {entry.shmOrderIndex}) := by
  rw [addOrder, run_onBook]
  cases hok : (w.book.addOrder entry now).ok with
  -- A refused entry announces nothing, and its slot stays with nobody.
  | false =>
      have hquiet : w.book.Announces ∅ (w.book.addOrder entry now) :=
        OrderBook.announces_silently (fun k => by rw [OrderBook.addOrder_of_not_ok hok])
          (OrderBook.notes_addOrder_of_not_ok hok)
      obtain ⟨shm, h⟩ := h
      exact (h.announce (fun b => b.addOrder entry now) hquiet now).mono Set.sdiff_subset
  | true =>
      obtain ⟨h₁, h₂, h₃⟩ := (OrderBook.addOrder_ok_iff _ _ _).1 hok
      obtain ⟨shm, h⟩ := h
      -- Registered, the order takes its slot with it; what the book announces then is copied.
      have hstored : ∀ k, (w.book.stored entry now).findOrder k =
          if k = entry.request.internalOrderId then some (OrderBook.storedEntry entry now)
          else w.book.findOrder k := by
        intro k
        simp only [OrderBook.findOrder, OrderBook.stored]
        rw [OrderBook.table_registerOrder]
        exact SlotTable.find?_insert h₂ h₃ k
      have hcase : ∀ k e, (w.book.stored entry now).findOrder k = some e →
          (k = entry.request.internalOrderId ∧ e.shmOrderIndex = entry.shmOrderIndex) ∨
            (k ≠ entry.request.internalOrderId ∧ w.book.findOrder k = some e) := by
        intro k e he
        rw [hstored] at he
        split at he
        next heq => exact Or.inl ⟨heq, Option.some.inj he ▸ rfl⟩
        next hne => exact Or.inr ⟨hne, he⟩
      suffices hnew : World.MirroredIn { w with book := w.book.stored entry now } shm
          {entry.request.internalOrderId} (held \ {entry.shmOrderIndex}) from
        World.MirroredIn.applyBook hnew (fun b => b.addOrder entry now)
          (OrderBook.announces_addOrder hok) now
      refine ⟨h.attached, fun i hi => h.held_exists i hi.1, ?_, ?_, ?_, ?_⟩
      -- its slot exists
      · intro k e he hhas
        rcases hcase k e he with ⟨-, hindex⟩ | ⟨-, he⟩
        · exact hindex ▸ h.held_exists _ hmem
        · exact h.slot_exists k e he hhas
      -- its slot is no longer one that clients hold
      · intro k e he hhas hin
        rcases hcase k e he with ⟨-, hindex⟩ | ⟨-, he⟩
        · exact hin.2 (Set.mem_singleton_iff.2 hindex)
        · exact h.slot_private k e he hhas hin.1
      · -- The slot of the new order was in `held`, so no live order has it.
        intro k k' e e' he he' hhas heq
        rcases hcase k e he with ⟨hk, hindex⟩ | ⟨-, he⟩
        · rcases hcase k' e' he' with ⟨hk', -⟩ | ⟨-, he'⟩
          · rw [hk, hk']
          · have hhas' : e'.HasSlot := by rw [OrderEntry.HasSlot, ← heq]; exact hhas
            exact absurd (by rw [← heq, hindex]; exact hmem) (h.slot_private k' e' he' hhas')
        · rcases hcase k' e' he' with ⟨-, hindex'⟩ | ⟨-, he'⟩
          · exact absurd (by rw [heq, hindex']; exact hmem) (h.slot_private k e he hhas)
          · exact h.slot_distinct k k' e e' he he' hhas heq
      -- only the new order waits for its first copy
      · intro k e hstale he hhas
        rcases hcase k e he with ⟨hk, -⟩ | ⟨-, he⟩
        · exact absurd (Set.mem_singleton_iff.2 hk) hstale
        · exact h.request k e (Set.notMem_empty k) he hhas

theorem mirrored_enterInternalOrder (now : TimestampNs) (texts : PlaceTexts) (entry : OrderEntry)
    {w : World} (h : w.Mirrored held) (hmem : entry.shmOrderIndex ∈ held) :
    ((enterInternalOrder now texts entry).run w).2.Mirrored (held \ {entry.shmOrderIndex}) := by
  have hadded := mirrored_addOrder now entry h hmem
  simp only [enterInternalOrder, run_bind]
  refine Preserves.ite ?_ ?_ _ hadded
  · refine Preserves.bind (mirrored_sendToDownstream _ _) fun sent => Preserves.ite ?_ ?_
    · exact Preserves.bind (mirrored_updateState _ _ _) fun _ => Preserves.pure _
    · exact Preserves.bind (mirrored_updateState _ _ _) fun _ =>
        Preserves.bind (mirrored_recordError _) fun _ => Preserves.pure _
  · exact Preserves.bind (mirrored_updateStage _ _ _) fun _ =>
      Preserves.bind (mirrored_recordError _) fun _ => Preserves.pure _

theorem mirrored_placeInternalOrder (now : TimestampNs) (texts : PlaceTexts) {entry : OrderEntry}
    (hslot : entry.shmOrderIndex = kInvalidOrderIndex) :
    Preserves (World.Mirrored held) (placeInternalOrder now texts entry) := by
  intro w h
  have hcreate := ensures_createInternalOrderSlot now entry.request h
  simp only [placeInternalOrder, run_bind, if_pos hslot]
  cases hout : ((createInternalOrderSlot now entry.request).run w).1 with
  | none => exact Preserves.bind (mirrored_recordError _) (fun _ => Preserves.pure _) _ hcreate.1
  | some index =>
      obtain ⟨hfresh, hmirrored⟩ := hcreate.2 index hout
      refine (mirrored_enterInternalOrder now texts { entry with shmOrderIndex := index } hmirrored
        (Set.mem_insert _ _)).mono fun i hi => ⟨Set.mem_insert_of_mem _ hi, ?_⟩
      rintro rfl
      exact hfresh hi

/-! ## The handlers -/

/-- The notes that the event loop makes in an entry beside its request. -/
theorem mirrored_modifyOrder (orderId : InternalOrderId) {f : OrderEntry → OrderEntry}
    (hrequest : ∀ e, (f e).request = e.request)
    (hindex : ∀ e, (f e).shmOrderIndex = e.shmOrderIndex) :
    Preserves (World.Mirrored held) (modifyOrder orderId f) := by
  rintro w ⟨shm, h⟩
  exact ⟨shm, h.modifyOrder orderId hindex fun _ => hrequest⟩

/-- The claim mark is written past the book; the new state that follows announces it. -/
theorem mirrored_claimOrder (now : TimestampNs) (orderId : InternalOrderId) (claimed : Bool)
    (state : OrderState) : Preserves (World.Mirrored held) (do
      modifyOrder orderId fun e =>
        { e with request := { e.request with activeStrategyClaimed := claimed } }
      updateState now orderId state) := by
  rintro w ⟨shm, h⟩
  rw [run_bind, run_modifyOrder, updateState, run_onBook]
  set v : World := { w with book := w.book.modifyOrder orderId fun e =>
    { e with request := { e.request with activeStrategyClaimed := claimed } } }
  have hstale : v.MirroredIn shm {orderId} held :=
    h.modifyOrder orderId (fun _ => rfl) fun hne => absurd (Set.mem_singleton orderId) hne
  exact hstale.announce (fun b => b.updateState orderId state now)
    (v.book.announces_updateState orderId state now) now

theorem mirrored_archiveOrder (now : TimestampNs) (orderId : InternalOrderId) :
    Preserves (World.Mirrored held) (archiveOrder now orderId) := by
  intro w h
  rw [archiveOrder, run_onBook]
  exact h.archive orderId now

/-- Whatever the handlers do, the pool mirrors the book afterwards. -/
theorem mirrored_handlerRules (held : Set OrderIndex) : HandlerRules (World.Mirrored held) where
  recordError := mirrored_recordError
  allocateInternalOrderId := mirrored_allocateInternalOrderId
  updateState := mirrored_updateState
  sendToDownstream := mirrored_sendToDownstream
  placeInternalOrder now texts _ hslot _ := mirrored_placeInternalOrder now texts hslot
  engine _ _ _ h := h.congr (fun _ => rfl) rfl
  markManagedParent _ parentId := mirrored_onBook fun b => b.announces_markManagedParent parentId
  syncParentView _ now := Preserves.bind
    (mirrored_onBook fun b => b.announces_syncManagedParentView _ _ _ now) fun _ => Preserves.pure _
  beside h _ hbook hshm _ := h.congr (fun k => by rw [hbook]) hshm
  annotate orderId _ hrequest hindex := mirrored_modifyOrder orderId hrequest hindex
  claimOrder := mirrored_claimOrder
  updateStage := mirrored_updateStage
  updateTrade := mirrored_updateTrade
  archiveOrder := mirrored_archiveOrder

/-- A request with a slot that a client has handed over. -/
theorem mirrored_handleOrderRequest (cfg : Config) (env : Env) {index : OrderIndex}
    (request : OrderRequest) (hmem : index ∈ held) {w : World} (h : w.Mirrored held) :
    ((handleOrderRequest cfg env index request).run w).2.Mirrored (held \ {index}) := by
  refine (mirrored_handlerRules (held \ {index})).handleOrderRequest cfg env
    (fun w hw => hw.mono Set.sdiff_subset) (fun request => mirrored_mutateSlot (Or.inl hmem))
    mirrored_allocateInternalOrderId (fun entry w hentry hw => ?_) h
  rw [← hentry]
  exact mirrored_addOrder env.nowNs entry hw (hentry ▸ hmem)

end Service

/-! ## The service among its clients -/

/-- What the other processes do to the pool between two calls: they allocate slots, clients write to
the slots that they hold, and the gateway moves stages. -/
structure OrdersShm.WrittenBy (held : Set OrderIndex) (shm shm' : OrdersShm) : Prop where
  grows : ∀ i, shm.indexExists i = true → shm'.indexExists i = true
  request : ∀ i, i ∉ held → shm.indexExists i = true →
    (shm'.slots i).request = (shm.slots i).request

/-- The states of the service among its clients, with the slots that clients hold. A client pushes
the index of a slot that it holds, and holds it no longer once the service has taken it. Nothing but
the book is asked to stay while other processes run. -/
inductive World.Served (cfg : Config) : World → Set OrderIndex → Prop where
  | start {w : World} {shm : OrdersShm} {held : Set OrderIndex} (hbook : w.book = OrderBook.empty)
      (hshm : w.ordersShm = some shm) (hheld : ∀ i ∈ held, shm.indexExists i = true) :
        Served cfg w held
  | call {w : World} {held : Set OrderIndex} (h : Served cfg w held) (env : Env) (event : Event)
      (htaken : event.taken ⊆ held) : Served cfg (w.step cfg (env, event)) (held \ event.taken)
  | others {w v : World} {shm shm' : OrdersShm} {held : Set OrderIndex} (h : Served cfg w held)
      (hshm : w.ordersShm = some shm) (hshm' : v.ordersShm = some shm') (hbook : v.book = w.book)
      (hwritten : shm.WrittenBy held shm') :
      Served cfg v (held ∪ {i | shm'.indexExists i = true ∧ shm.indexExists i = false})

/-- One call. -/
theorem World.Mirrored.step {w : World} {held : Set OrderIndex} (h : w.Mirrored held) (cfg : Config)
    (env : Env) {event : Event} (htaken : event.taken ⊆ held) :
    (w.step cfg (env, event)).Mirrored (held \ event.taken) := by
  have hnone : event.taken = ∅ →
      (w.step cfg (env, event)).Mirrored (held \ event.taken) := fun hempty =>
    ((Service.mirrored_handlerRules held).program cfg env hempty w h).mono Set.sdiff_subset
  cases event with
  | orderRequest index request =>
      exact Service.mirrored_handleOrderRequest cfg env request
        (Set.singleton_subset_iff.1 htaken) h
  | tradeResponse r => exact hnone rfl
  | engineTick nowNs => exact hnone rfl
  | pendingArchives nowNs => exact hnone rfl
  | routeCancel origId cancelId time => exact hnone rfl

/-- The other processes. -/
theorem World.Mirrored.others {w v : World} {shm shm' : OrdersShm} {held : Set OrderIndex}
    (h : w.Mirrored held) (hshm : w.ordersShm = some shm) (hshm' : v.ordersShm = some shm')
    (hbook : v.book = w.book) (hwritten : shm.WrittenBy held shm') :
    v.Mirrored (held ∪ {i | shm'.indexExists i = true ∧ shm.indexExists i = false}) := by
  obtain ⟨shm₀, h⟩ := h
  have heq : shm₀ = shm := Option.some.inj (h.attached.symm.trans hshm)
  subst heq
  refine ⟨shm', hshm', ?_, ?_, ?_, ?_, ?_⟩
  · rintro i (hi | ⟨hi, -⟩)
    · exact hwritten.grows i (h.held_exists i hi)
    · exact hi
  all_goals rw [hbook]
  · exact fun k e he hhas => hwritten.grows _ (h.slot_exists k e he hhas)
  · rintro k e he hhas (hmem | ⟨-, hmissing⟩)
    · exact h.slot_private k e he hhas hmem
    · exact Bool.noConfusion (hmissing.symm.trans (h.slot_exists k e he hhas))
  · exact h.slot_distinct
  · intro k e hstale he hhas
    rw [hwritten.request _ (h.slot_private k e he hhas) (h.slot_exists k e he hhas)]
    exact h.request k e hstale he hhas

theorem World.Served.mirrored {cfg : Config} {w : World} {held : Set OrderIndex}
    (h : w.Served cfg held) : w.Mirrored held := by
  induction h with
  | @start w shm held hbook hshm hheld =>
      have hempty : ∀ k, w.book.findOrder k = none := by
        intro k
        rw [hbook]
        rfl
      refine ⟨shm, hshm, hheld, ?_, ?_, ?_, ?_⟩
      all_goals simp [hempty]
  | call _ env event htaken ih => exact ih.step _ env htaken
  | others _ hshm hshm' hbook hwritten ih => exact ih.others hshm hshm' hbook hwritten

/-- After every call the slot of a live order holds its request, and no two live orders share a
slot. -/
theorem orders_shm_mirrors_book {cfg : Config} {w : World} {held : Set OrderIndex}
    (h : w.Served cfg held) :
    ∃ shm, w.ordersShm = some shm ∧
      (∀ orderId e, w.book.findOrder orderId = some e → e.HasSlot →
        (shm.readSnapshot e.shmOrderIndex).map (·.request) = some e.request) ∧
      ∀ orderId orderId' e e', w.book.findOrder orderId = some e →
        w.book.findOrder orderId' = some e' →
        e.HasSlot → e.shmOrderIndex = e'.shmOrderIndex → orderId = orderId' := by
  obtain ⟨shm, hmirrored⟩ := h.mirrored
  refine ⟨shm, hmirrored.attached, fun orderId e he hhas => ?_, hmirrored.slot_distinct⟩
  rw [OrdersShm.readSnapshot, if_pos (hmirrored.slot_exists orderId e he hhas), Option.map_some,
    hmirrored.request orderId e (Set.notMem_empty orderId) he hhas]

/-- The gateway marks the order in the first slot as taken. -/
def World.afterDequeue (w : World) : World :=
  { w with ordersShm := w.ordersShm.map fun shm => (shm.updateStage 0 .downstreamDequeued 1).2 }

/-- Two clients hand over a buy order each, the gateway takes the first one in between, and then it
reports a fill of 40 shares. -/
def twoServed : World :=
  ((((World.start { totalAsset := 10000, available := 10000 } {}
    (OrdersShm.ofClients [.ofClient 7 .buy 100 10, .ofClient 8 .buy 100 10])).step {}
      ({}, .orderRequest 0 (.ofClient 7 .buy 100 10))).afterDequeue).step {}
        ({}, .orderRequest 1 (.ofClient 8 .buy 100 10))).step {}
          ({}, .tradeResponse
            { internalOrderId := 7, tradeSide := .buy, newState := .marketAccepted
              volumeTraded := 40, dpriceTraded := 10, dvalueTraded := 400 })

theorem World.Served.afterDequeue {cfg : Config} {w : World} {held : Set OrderIndex}
    (h : w.Served cfg held) : ∃ more, w.afterDequeue.Served cfg (held ∪ more) := by
  obtain ⟨shm, hmirrored⟩ := h.mirrored
  refine ⟨_, h.others hmirrored.attached
    (by rw [World.afterDequeue, hmirrored.attached, Option.map_some]) rfl ?_⟩
  constructor
  · intro i hi
    exact (shm.indexExists_mutateSlot 0 _ i).trans hi
  · intro i _ hi
    by_cases hzero : i = 0
    · subst hzero
      rw [OrdersShm.updateStage, OrdersShm.slots_mutateSlot_self _ hi]
    · rw [OrdersShm.updateStage, OrdersShm.slots_mutateSlot_of_ne _ _ hzero]

/-- Both orders, the first one with its fill, as the monitors see them. -/
theorem orders_shm_mirrors_two_orders :
    ∃ shm, twoServed.ordersShm = some shm ∧
      (shm.readSnapshot 0).map (·.request) = (twoServed.book.findOrder 7).map (·.request) ∧
      (shm.readSnapshot 1).map (·.request) = (twoServed.book.findOrder 8).map (·.request) ∧
      (shm.readSnapshot 0).map (·.request.volumeTraded) = some 40 := by
  -- Both orders are in slots that clients hold.
  have hstart : (World.start { totalAsset := 10000, available := 10000 } {}
      (OrdersShm.ofClients [.ofClient 7 .buy 100 10, .ofClient 8 .buy 100 10])).Served {}
        {0, 1} := by
    refine World.Served.start rfl rfl ?_
    rintro i (rfl | rfl)
    all_goals decide
  -- Each order is handed over by the client that holds its slot, the gateway in between stamps the
  -- first one.
  have hplaced := hstart.call {} (.orderRequest 0 (.ofClient 7 .buy 100 10)) (by
    rintro i rfl
    exact Or.inl rfl)
  obtain ⟨more, hdequeued⟩ := hplaced.afterDequeue
  have hboth := hdequeued.call {} (.orderRequest 1 (.ofClient 8 .buy 100 10)) (by
    rintro i rfl
    exact Or.inl ⟨Or.inr rfl, fun htaken => absurd (Set.mem_singleton_iff.1 htaken) (by decide)⟩)
  have hserved := hboth.call {} (.tradeResponse
    { internalOrderId := 7, tradeSide := .buy, newState := .marketAccepted
      volumeTraded := 40, dpriceTraded := 10, dvalueTraded := 400 }) (Set.empty_subset _)
  obtain ⟨shm, hshm, hrequest, -⟩ := orders_shm_mirrors_book hserved
  -- A book entry of the run is shown as it is.
  have hshown : ∀ orderId index, index ≠ kInvalidOrderIndex →
      (twoServed.book.findOrder orderId).map (·.shmOrderIndex) = some index →
      (shm.readSnapshot index).map (·.request) =
        (twoServed.book.findOrder orderId).map (·.request) := by
    intro orderId index hvalid hindex
    obtain ⟨e, he, rfl⟩ := Option.map_eq_some_iff.1 hindex
    rw [he, Option.map_some]
    exact hrequest orderId e he hvalid
  have hfirst := hshown 7 0 (by decide) (by decide)
  refine ⟨shm, hshm, hfirst, hshown 8 1 (by decide) (by decide), ?_⟩
  have htraded : (twoServed.book.findOrder 7).map (·.request.volumeTraded) = some 40 := by decide
  have hcopied := congrArg (Option.map OrderRequest.volumeTraded) hfirst
  rw [Option.map_map, Option.map_map] at hcopied
  exact hcopied.trans htraded

end AccountServices
