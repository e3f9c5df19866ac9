import AccountServices.Order.Handover
import AccountServices.Order.LatestSnapshots

/-!
# Crashes between two steps

The service can stop after any of its steps. The pool and the queue outlive it, the gateway goes on,
and the service that comes up again rebuilds its book from the pool: it takes the slots that are
marked as queued or dequeued. An index is pushed before its slot is marked, so a crash between the
two leaves an order that the gateway will send and that recovery does not take, unless the gateway
stamps the slot first. In every other state that an interleaving reaches, recovery finds all orders
that were handed over and are not terminal, as long as the slot of such an order leaves the two
stages only when the order is terminal.
-/

set_option autoImplicit false

namespace AccountServices

open Foundation

/-- A step of `process_orders`. -/
inductive GatewayMove where
  | pop
  | read
  | stamp (now : TimestampNs)

/-- A step of one of the processes around the pool. Clients and the service allocate slots and write
to them: `write` is `orders_shm_write_order`, `sync` is `orders_shm_sync_order`, and `setStage` is
`orders_shm_update_stage` outside `send_to_downstream`, whose two steps are `push` and `mark`. An
update of the book reaches the pool through these writes only. -/
inductive PoolStep where
  | allocate
  | write (index : OrderIndex) (request : OrderRequest) (stage : OrderSlotState)
      (source : OrderSlotSource) (now : TimestampNs)
  | sync (index : OrderIndex) (request : OrderRequest) (now : TimestampNs)
  | setStage (index : OrderIndex) (stage : OrderSlotState) (now : TimestampNs)
  | push (index : OrderIndex)
  | mark (now : TimestampNs)
  | gateway (move : GatewayMove)
  | crash

namespace Recovery

/-- A slot that recovery takes. -/
theorem eligibleSlot_iff (shm : OrdersShm) (orderId : InternalOrderId) (index : OrderIndex) :
    EligibleSlot shm (fun _ => true) orderId index ↔
      shm.indexExists index = true ∧ eligible (shm.slots index) = true ∧
        (shm.slots index).request.internalOrderId = orderId := by
  have hstage : ∀ stage : OrderSlotState, stage.isRecoverable = true ↔
      stage = .downstreamQueued ∨ stage = .downstreamDequeued := by
    intro stage
    cases stage <;> simp [OrderSlotState.isRecoverable]
  rw [indexExists_iff]
  simp only [eligible, Bool.and_eq_true, decide_eq_true_eq, Bool.not_eq_true', hstage]
  constructor
  · intro h
    exact ⟨h.allocated, ⟨⟨h.stage, h.id ▸ h.id_ne_zero⟩, h.state⟩, h.id⟩
  · rintro ⟨hallocated, ⟨⟨hstage, hzero⟩, hstate⟩, hid⟩
    exact ⟨hallocated, rfl, hstage, hid, hid ▸ hzero, hstate⟩

end Recovery

namespace Handover

/-- The service writes to the pool, or a client does. -/
def onShm (h : Handover) (f : OrdersShm → OrdersShm) : Handover := { h with shm := f h.shm }

def move (h : Handover) : GatewayMove → Handover
  | .pop => h.pop
  | .read => h.read
  | .stamp now => h.stamp now

/-- The service stops; what it had under way is lost. -/
def crash (h : Handover) : Handover := { h with sending := none }

/-- One step; a step that its process cannot take now changes nothing. -/
def poolStep (h : Handover) : PoolStep → Handover
  | .allocate => h.onShm fun shm => shm.tryAllocate.2
  | .write index request stage source now =>
      h.onShm fun shm => (shm.writeOrder index request stage source now).2
  | .sync index request now => h.onShm fun shm => (shm.syncOrder index request now).2
  | .setStage index stage now => h.onShm fun shm => (shm.updateStage index stage now).2
  | .push index => h.push index
  | .mark now => h.mark now
  | .gateway m => h.move m
  | .crash => h.crash

/-- The order was handed over and is not terminal. -/
def Underway (h : Handover) (index : OrderIndex) : Prop :=
  index ∈ h.pushed ∧ (h.shm.slots index).request.orderState.isTerminal = false

/-- If the service stops here, the rebuilt book has every order that is under way, whatever the
gateway does until then, and in whatever order the candidates are restored. -/
def RecoversAll (h : Handover) : Prop :=
  ∀ (moves : List GatewayMove) (items : List (InternalOrderId × RecoveredOrderCandidate))
    (upstreamNextOrderId : Option InternalOrderId) (now : TimestampNs),
    Recovery.Iterates (moves.foldl move h).shm (fun _ => true) items →
    ∀ index, h.Underway index →
      ((Recovery.recoverInOrder items upstreamNextOrderId now OrderBook.empty).findOrder
        (h.shm.slots index).request.internalOrderId).isSome = true

/-! ## The condition of a step -/

/-- A slot of an order that was handed over: it is in a stage that recovery takes, or the order is
terminal. -/
def Traceable (slot : OrderSlot) : Prop :=
  slot.request.orderState.isTerminal = false → slot.stage.isRecoverable = true

/-- A write to the slot of an order that was handed over keeps its id, and takes it out of the
stages that recovery takes only when the order is terminal. -/
def Keeps (h : Handover) (index : OrderIndex) (slot : OrderSlot) : Prop :=
  index ∈ h.pushed →
    slot.request.internalOrderId = (h.shm.slots index).request.internalOrderId ∧ Traceable slot

/-- No push waits for its mark, or its order is terminal, or the gateway has stamped its slot. -/
def Marked (h : Handover) : Prop :=
  ∀ index, h.sending = some (index, .downstreamQueued) → Traceable (h.shm.slots index)

/-- The condition of a step: an order is handed over once and under an id, writes to its slot keep
it traceable, and the service does not stop while a push waits for its mark. -/
def Guarded (h : Handover) : PoolStep → Prop
  | .write index request stage source now =>
      h.Keeps index { request := request, stage := stage, source := source, lastUpdateNs := now }
  | .sync index request now =>
      h.Keeps index { h.shm.slots index with request := request, lastUpdateNs := now }
  | .setStage index stage now =>
      h.Keeps index { h.shm.slots index with stage := stage, lastUpdateNs := now }
  | .push index => h.shm.indexExists index = true ∧ index ∉ h.pushed ∧
      (h.shm.slots index).request.internalOrderId ≠ 0
  | .crash => h.Marked
  | _ => True

/-- Recovery takes a slot with the id of the order whose push waits for its mark. -/
def Covered (h : Handover) : Prop :=
  ∀ index, h.sending = some (index, .downstreamQueued) → h.Underway index →
    ∃ other, h.shm.indexExists other = true ∧ Recovery.eligible (h.shm.slots other) = true ∧
      (h.shm.slots other).request.internalOrderId = (h.shm.slots index).request.internalOrderId

/-! ## The steps of the code -/

/-- The write that the change callback makes for a note. -/
def noteStep (now : TimestampNs) (note : OrderEntry × BookEvent) : PoolStep :=
  if note.2 = .archived ∨ note.1.request.orderState.isTerminal = true then
    .write note.1.shmOrderIndex note.1.request .terminal .accountInternal now
  else .sync note.1.shmOrderIndex note.1.request now

/-- What the book announces reaches the pool in one step. -/
theorem ordersShm_notify_eq {w : World} {h : Handover} (hshm : w.ordersShm = some h.shm)
    (now : TimestampNs) (note : OrderEntry × BookEvent) :
    (w.notify now note).ordersShm = some (h.poolStep (noteStep now note)).shm := by
  have hattached : w.ordersShm.isSome = true := by
    rw [hshm]
    rfl
  have hrecord : ∀ (synced : Bool) (error : ErrorStatus) (v : World),
      ((if synced = true then (pure () : Service Unit) else Service.recordError error).run
        v).2.ordersShm = v.ordersShm := by
    intro synced error v
    cases synced <;> rfl
  simp only [World.notify, Service.onOrderBookChanged, noteStep]
  rw [Program.run_bind, Program.run_read]
  by_cases hinvalid : note.1.shmOrderIndex = kInvalidOrderIndex
  · -- there is no such slot, so that the step changes nothing either
    have hmissing : ¬ h.shm.indexExists note.1.shmOrderIndex = true :=
      fun hexists => (of_decide_eq_true hexists).1 hinvalid
    rw [if_pos (Or.inr hinvalid)]
    split
    · simp only [poolStep, onShm, OrdersShm.writeOrder, OrdersShm.mutateSlot, if_neg hmissing]
      exact hshm
    · simp only [poolStep, onShm, OrdersShm.syncOrder, OrdersShm.mutateSlot, if_neg hmissing]
      exact hshm
  · rw [if_neg fun habsent => habsent.elim (fun hdetached => hdetached hattached) hinvalid,
      Program.run_bind, hrecord]
    split
    · simp only [Service.writeOrder, Service.onOrdersShm, Program.run_atomic, hshm]
      rfl
    next hopen =>
      have hother : ¬ note.1.request.orderState = .riskControllerRejected := by
        intro heq
        exact hopen (Or.inr (by rw [heq]; rfl))
      rw [if_neg hother]
      simp only [Service.syncOrder, Service.onOrdersShm, Program.run_atomic, hshm]
      rfl

/-- This step is guarded if the note is about the order of the slot, only a terminal order is
archived, and no order whose slot is closed is open again. -/
theorem guarded_noteStep {h : Handover} (now : TimestampNs) {note : OrderEntry × BookEvent}
    (hid : note.1.request.internalOrderId =
      (h.shm.slots note.1.shmOrderIndex).request.internalOrderId)
    (harchived : note.2 = .archived → note.1.request.orderState.isTerminal = true)
    (hclosed : note.1.request.orderState.isTerminal = false →
      (h.stageOf note.1.shmOrderIndex).isRecoverable = true) :
    h.Guarded (noteStep now note) := by
  rw [noteStep]
  split
  next hterminal =>
    have hstate : note.1.request.orderState.isTerminal = true := hterminal.elim harchived id
    exact fun _ => ⟨hid, fun hopen => Bool.noConfusion (hopen.symm.trans hstate)⟩
  next => exact fun _ => ⟨hid, hclosed⟩

/-! ## What every interleaving keeps -/

variable {h : Handover} {index : OrderIndex}

/-- An index that was pushed has a slot with an id, which is traceable once the push is marked. -/
structure Sound (h : Handover) : Prop where
  allocated : ∀ i ∈ h.pushed, h.shm.indexExists i = true
  id_ne_zero : ∀ i ∈ h.pushed, (h.shm.slots i).request.internalOrderId ≠ 0
  sending : ∀ i stage, h.sending = some (i, stage) →
    (stage = .downstreamQueued ∧ i ∈ h.pushed) ∨ (stage = .queuePushFailed ∧ i ∉ h.pushed)
  traceable : ∀ i ∈ h.pushed, (∀ stage, h.sending ≠ some (i, stage)) → Traceable (h.shm.slots i)

namespace Sound

/-- A change of the pool that keeps the slots of pushed indices as they are, or traceable under
their ids. -/
theorem onShm (hh : h.Sound) {shm : OrdersShm}
    (hexists : ∀ i, h.shm.indexExists i = true → shm.indexExists i = true)
    (hslots : ∀ i ∈ h.pushed, shm.slots i = h.shm.slots i ∨
      (shm.slots i).request.internalOrderId = (h.shm.slots i).request.internalOrderId ∧
        Traceable (shm.slots i)) :
    Sound { h with shm := shm } := by
  refine ⟨fun i hi => hexists i (hh.allocated i hi), ?_, hh.sending, ?_⟩
  · intro i hi
    rcases hslots i hi with hsame | ⟨hid, -⟩
    · simp only [hsame]
      exact hh.id_ne_zero i hi
    · simp only [hid]
      exact hh.id_ne_zero i hi
  · intro i hi hidle
    rcases hslots i hi with hsame | ⟨-, htraceable⟩
    · simp only [hsame]
      exact hh.traceable i hi hidle
    · exact htraceable

/-- A write to one slot. -/
theorem mutateSlot (hh : h.Sound) (f : OrderSlot → OrderSlot)
    (hkeeps : h.Keeps index (f (h.shm.slots index))) :
    Sound { h with shm := (h.shm.mutateSlot index f).2 } := by
  refine hh.onShm (fun i hi => ?_) fun i hi => ?_
  · rw [OrdersShm.indexExists_mutateSlot]
    exact hi
  · by_cases heq : i = index
    · subst heq
      rw [OrdersShm.slots_mutateSlot_self f (hh.allocated i hi)]
      exact Or.inr (hkeeps hi)
    · exact Or.inl (OrdersShm.slots_mutateSlot_of_ne h.shm f heq)

theorem allocate (hh : h.Sound) : Sound { h with shm := h.shm.tryAllocate.2 } := by
  refine hh.onShm (fun i hi => ?_) fun i _ => Or.inl ?_
  · rw [Recovery.indexExists_iff] at hi ⊢
    simp only [OrdersShm.tryAllocate]
    split
    next hroom =>
      have hlt := UInt32.lt_iff_toNat_lt.1 hroom
      have hcapacity := h.shm.capacity.toNat_lt
      rw [UInt32.lt_iff_toNat_lt] at hi ⊢
      rw [UInt32.toNat_add, Nat.mod_eq_of_lt (by simp only [UInt32.reduceToNat]; omega)]
      simp only [UInt32.reduceToNat]
      omega
    next => exact hi
  · simp only [OrdersShm.tryAllocate]
    split <;> rfl

theorem push (hh : h.Sound) (hexists : h.shm.indexExists index = true) (hnew : index ∉ h.pushed)
    (hid : (h.shm.slots index).request.internalOrderId ≠ 0) : (h.push index).Sound := by
  cases hsending : h.sending with
  | some pending =>
      simp only [Handover.push, hsending]
      exact hh
  | none =>
      have hidle : ∀ i stage, h.sending ≠ some (i, stage) := by simp [hsending]
      simp only [Handover.push, hsending]
      split
      · have hpushed : ∀ i, i ∈ h.pushed ++ [index] ↔ i ∈ h.pushed ∨ i = index := by simp
        refine ⟨?_, ?_, ?_, ?_⟩
        · intro i hi
          rcases (hpushed i).1 hi with hold | rfl
          · exact hh.allocated i hold
          · exact hexists
        · intro i hi
          rcases (hpushed i).1 hi with hold | rfl
          · exact hh.id_ne_zero i hold
          · exact hid
        · intro i stage hi
          simp only [Option.some.injEq, Prod.mk.injEq] at hi
          exact Or.inl ⟨hi.2.symm, (hpushed i).2 (Or.inr hi.1.symm)⟩
        · -- the new index waits for its mark
          intro i hi hwaits
          rcases (hpushed i).1 hi with hold | rfl
          · exact hh.traceable i hold (hidle i)
          · exact absurd rfl (hwaits .downstreamQueued)
      · refine ⟨hh.allocated, hh.id_ne_zero, ?_, fun i hi _ => hh.traceable i hi (hidle i)⟩
        intro i stage hi
        simp only [Option.some.injEq, Prod.mk.injEq] at hi
        exact Or.inr ⟨hi.2.symm, hi.1 ▸ hnew⟩

/-- The service has no step of its own to finish: a push is marked now, or the service has
stopped. -/
theorem settled (hh : h.Sound) (hmarked : h.Marked) : Sound { h with sending := none } := by
  refine ⟨hh.allocated, hh.id_ne_zero, fun i stage hi => absurd hi (by simp), ?_⟩
  intro i hi _
  by_cases hsending : ∃ stage, h.sending = some (i, stage)
  · obtain ⟨stage, hsending⟩ := hsending
    rcases hh.sending i stage hsending with ⟨rfl, -⟩ | ⟨-, hnot⟩
    · exact hmarked i hsending
    · exact absurd hi hnot
  · exact hh.traceable i hi fun stage heq => hsending ⟨stage, heq⟩

theorem mark (hh : h.Sound) (now : TimestampNs) : (h.mark now).Sound := by
  cases hsending : h.sending with
  | none =>
      simp only [Handover.mark, hsending]
      exact hh
  | some pending =>
      obtain ⟨index, stage⟩ := pending
      simp only [Handover.mark, hsending]
      have hwritten : Sound { h with shm := (h.shm.updateStage index stage now).2 } := by
        refine hh.mutateSlot _ fun hi => ⟨rfl, fun _ => ?_⟩
        rcases hh.sending index stage hsending with ⟨rfl, -⟩ | ⟨-, hnot⟩
        · rfl
        · exact absurd hi hnot
      refine hwritten.settled fun i hi => ?_
      -- the slot of the index is marked as queued
      have heq : some (index, stage) = some (i, .downstreamQueued) := hsending.symm.trans hi
      simp only [Option.some.injEq, Prod.mk.injEq] at heq
      obtain ⟨rfl, rfl⟩ := heq
      have hpushed : index ∈ h.pushed := by
        rcases hh.sending index _ hsending with ⟨-, hpushed⟩ | ⟨habsurd, -⟩
        · exact hpushed
        · exact absurd habsurd (by decide)
      intro _
      simp only [OrdersShm.updateStage,
        OrdersShm.slots_mutateSlot_self _ (hh.allocated index hpushed)]
      rfl

end Sound

/-- A move of the gateway leaves the service and what it has pushed alone, and changes slots at most
by a stamp. -/
structure Stamps (h h' : Handover) : Prop where
  pushed : h'.pushed = h.pushed
  sending : h'.sending = h.sending
  allocated : ∀ i, h'.shm.indexExists i = h.shm.indexExists i
  slots : ∀ i, h'.shm.slots i = h.shm.slots i ∨
    ∃ now, h'.shm.slots i = { h.shm.slots i with stage := .downstreamDequeued, lastUpdateNs := now }

theorem Stamps.refl (h : Handover) : h.Stamps h := ⟨rfl, rfl, fun _ => rfl, fun _ => Or.inl rfl⟩

theorem Stamps.trans {h₁ h₂ h₃ : Handover} (h₁₂ : h₁.Stamps h₂) (h₂₃ : h₂.Stamps h₃) :
    h₁.Stamps h₃ := by
  refine ⟨h₂₃.pushed.trans h₁₂.pushed, h₂₃.sending.trans h₁₂.sending,
    fun i => (h₂₃.allocated i).trans (h₁₂.allocated i), fun i => ?_⟩
  rcases h₂₃.slots i with hsame | ⟨now, hstamp⟩
  · rw [hsame]
    exact h₁₂.slots i
  · refine Or.inr ⟨now, ?_⟩
    rw [hstamp]
    rcases h₁₂.slots i with hsame | ⟨earlier, hearlier⟩
    · rw [hsame]
    · rw [hearlier]

theorem stamps_move (h : Handover) (m : GatewayMove) : h.Stamps (h.move m) := by
  cases m with
  | pop =>
      simp only [move, Handover.pop]
      split
      · exact Stamps.refl h
      split
      · exact Stamps.refl h
      · exact ⟨rfl, rfl, fun _ => rfl, fun _ => Or.inl rfl⟩
  | read =>
      simp only [move, Handover.read]
      split
      · split
        · exact ⟨rfl, rfl, fun _ => rfl, fun _ => Or.inl rfl⟩
        · exact ⟨rfl, rfl, fun _ => rfl, fun _ => Or.inl rfl⟩
      · exact Stamps.refl h
  | stamp now =>
      simp only [move, Handover.stamp]
      split
      next index _ =>
        refine ⟨rfl, rfl, fun i => OrdersShm.indexExists_mutateSlot _ _ _ i, fun i => ?_⟩
        by_cases heq : i = index ∧ h.shm.indexExists index = true
        · obtain ⟨rfl, hexists⟩ := heq
          exact Or.inr ⟨now, OrdersShm.slots_mutateSlot_self _ hexists⟩
        · refine Or.inl ?_
          by_cases hi : i = index
          · have hmissing : ¬ h.shm.indexExists index = true := fun hexists => heq ⟨hi, hexists⟩
            simp only [OrdersShm.updateStage, OrdersShm.mutateSlot, if_neg hmissing]
          · exact OrdersShm.slots_mutateSlot_of_ne _ _ hi
      next => exact Stamps.refl h

theorem stamps_moves (h : Handover) (moves : List GatewayMove) : h.Stamps (moves.foldl move h) := by
  induction moves generalizing h with
  | nil => exact Stamps.refl h
  | cons m moves ih => exact (h.stamps_move m).trans (ih (h.move m))

/-- A slot that recovery takes is still one after the gateway has moved. -/
theorem Stamps.eligible {h' : Handover} (hstamps : h.Stamps h') {i : OrderIndex}
    (heligible : Recovery.eligible (h.shm.slots i) = true) :
    Recovery.eligible (h'.shm.slots i) = true ∧
      (h'.shm.slots i).request.internalOrderId = (h.shm.slots i).request.internalOrderId := by
  rcases hstamps.slots i with hsame | ⟨now, hstamp⟩
  · rw [hsame]
    exact ⟨heligible, rfl⟩
  · rw [hstamp]
    simp only [Recovery.eligible, Bool.and_eq_true] at heligible
    simp only [Recovery.eligible, heligible, OrderSlotState.isRecoverable, Bool.and_self, and_self]

theorem Sound.move (hh : h.Sound) (m : GatewayMove) : (h.move m).Sound := by
  have hstamps := h.stamps_move m
  have hslots : Sound { h with shm := (h.move m).shm } := by
    refine hh.onShm (fun i hi => (hstamps.allocated i).trans hi) fun i _ => ?_
    rcases hstamps.slots i with hsame | ⟨now, hstamp⟩
    · exact Or.inl hsame
    · rw [hstamp]
      exact Or.inr ⟨rfl, fun _ => rfl⟩
  refine ⟨?_, ?_, ?_, ?_⟩
  · rw [hstamps.pushed]
    exact hslots.allocated
  · rw [hstamps.pushed]
    exact hslots.id_ne_zero
  · rw [hstamps.pushed, hstamps.sending]
    exact hslots.sending
  · rw [hstamps.pushed, hstamps.sending]
    exact hslots.traceable

/-- Every guarded step keeps what was handed over traceable. -/
theorem Sound.step (hh : h.Sound) {s : PoolStep} (hguarded : h.Guarded s) :
    (h.poolStep s).Sound := by
  cases s with
  | allocate => exact hh.allocate
  | write index request stage source now => exact hh.mutateSlot _ hguarded
  | sync index request now => exact hh.mutateSlot _ hguarded
  | setStage index stage now => exact hh.mutateSlot _ hguarded
  | push index => exact hh.push hguarded.1 hguarded.2.1 hguarded.2.2
  | mark now => exact hh.mark now
  | gateway m => exact hh.move m
  | crash => exact hh.settled hguarded

theorem sound_start (shm : OrdersShm) (buffer : Nat → OrderIndex) : (start shm buffer).Sound :=
  ⟨fun i hi => absurd hi List.not_mem_nil, fun i hi => absurd hi List.not_mem_nil,
    fun i stage hi => absurd hi (by simp [start]), fun i hi => absurd hi List.not_mem_nil⟩

/-! ## The rebuilt book -/

/-- The recovered book has an entry for the id if and only if recovery takes a slot with it. -/
theorem isSome_findOrder_iff {shm : OrdersShm}
    {items : List (InternalOrderId × RecoveredOrderCandidate)}
    (hitems : Recovery.Iterates shm (fun _ => true) items)
    (upstreamNextOrderId : Option InternalOrderId)
    (now : TimestampNs) (orderId : InternalOrderId) :
    ((Recovery.recoverInOrder items upstreamNextOrderId now OrderBook.empty).findOrder
      orderId).isSome = true ↔
      ∃ other, shm.indexExists other = true ∧ Recovery.eligible (shm.slots other) = true ∧
        (shm.slots other).request.internalOrderId = orderId := by
  rw [Recovery.isSome_findOrder_recoverInOrder_iff hitems]
  simp only [Recovery.eligibleSlot_iff]

/-- In a state that guarded steps reach, a crash loses no order if and only if it does not fall
between a push and its mark, or recovery takes a slot with the id of the order all the same. -/
theorem Sound.recoversAll_iff (hh : h.Sound) : h.RecoversAll ↔ h.Covered := by
  constructor
  · intro hall index hsending hunderway
    -- the gateway stands still until the recovery
    have hfound := hall [] _ none 0 (List.Perm.refl _) index hunderway
    exact (isSome_findOrder_iff (List.Perm.refl _) none 0 _).1 hfound
  · intro hcovered moves items upstreamNextOrderId now hitems index hunderway
    have htaken : ∃ other, h.shm.indexExists other = true ∧
        Recovery.eligible (h.shm.slots other) = true ∧
        (h.shm.slots other).request.internalOrderId =
          (h.shm.slots index).request.internalOrderId := by
      by_cases hsending : ∃ stage, h.sending = some (index, stage)
      · obtain ⟨stage, hsending⟩ := hsending
        rcases hh.sending index stage hsending with ⟨rfl, -⟩ | ⟨-, hnot⟩
        · exact hcovered index hsending hunderway
        · exact absurd hunderway.1 hnot
      · have hstage :=
          hh.traceable index hunderway.1 (fun stage heq => hsending ⟨stage, heq⟩) hunderway.2
        refine ⟨index, hh.allocated index hunderway.1, ?_, rfl⟩
        rw [Recovery.eligible, hstage, hunderway.2]
        simpa using hh.id_ne_zero index hunderway.1
    obtain ⟨other, hexists, heligible, hid⟩ := htaken
    have hstamps := h.stamps_moves moves
    obtain ⟨heligible', hid'⟩ := hstamps.eligible heligible
    exact (isSome_findOrder_iff hitems upstreamNextOrderId now _).2
      ⟨other, (hstamps.allocated other).trans hexists, heligible', hid'.trans hid⟩

/-- Crash recovery misses no order: in every state of every interleaving whose steps are guarded,
the book that is rebuilt after a crash has every order that was handed over and is not terminal, if
and only if the crash does not fall between a push and its mark, or recovery takes a slot with the
id of that order. -/
theorem crash_misses_none_iff {shm : OrdersShm} {buffer : Nat → OrderIndex} {steps : List PoolStep}
    (hguarded : StepsMeet poolStep Guarded (start shm buffer) steps) :
    ∀ h ∈ trace poolStep (start shm buffer) steps, h.RecoversAll ↔ h.Covered := by
  intro h hmem
  have hh := trace_invariant Sound (fun h s hh hs => hh.step hs)
    (sound_start shm buffer) hguarded h hmem
  exact hh.recoversAll_iff

end Handover

/-- A pool with room for four orders. -/
def crashPool : OrdersShm where
  capacity := 4
  nextIndex := 0
  slots := fun _ => {}
  capacity_le := by decide
  nextIndex_le := by decide

/-- A client places an order, and the service accepts it and hands it over. -/
def acceptedSteps : List PoolStep :=
  [.allocate, .write 0 (OrderRequest.ofClient 1 .buy 100 10) .upstreamQueued .user 1,
    .setStage 0 .upstreamDequeued 2,
    .sync 0 { OrderRequest.ofClient 1 .buy 100 10 with orderState := .riskControllerAccepted } 3,
      .push 0]

theorem guarded_acceptedSteps :
    StepsMeet Handover.poolStep Handover.Guarded
      (Handover.start crashPool fun _ => 0) acceptedSteps := by
  refine ⟨trivial, ?_, ?_, ?_, ⟨by decide, List.not_mem_nil, by decide⟩, trivial⟩
  · exact fun hpushed => absurd hpushed List.not_mem_nil
  · exact fun hpushed => absurd hpushed List.not_mem_nil
  · exact fun hpushed => absurd hpushed List.not_mem_nil

/-- The service stops right after the push: the order is in the queue, and the rebuilt book is
empty. -/
theorem crash_misses_pushed :
    StepsMeet Handover.poolStep Handover.Guarded
      (Handover.start crashPool fun _ => 0) acceptedSteps ∧
      ¬ ∀ h ∈ trace Handover.poolStep (Handover.start crashPool fun _ => 0) acceptedSteps,
        h.RecoversAll := by
  refine ⟨guarded_acceptedSteps, fun hall => ?_⟩
  have hlast := hall _ (foldl_mem_trace Handover.poolStep _ acceptedSteps)
  have hnone : Recovery.Iterates
      (acceptedSteps.foldl Handover.poolStep (Handover.start crashPool fun _ => 0)).shm
        (fun _ => true) [] :=
    List.Perm.refl _
  have hfound := hlast [] [] none 0 hnone 0 ⟨by decide, by decide⟩
  exact absurd hfound (by decide)

/-- The service marks the slot before it stops. -/
def markedSteps : List PoolStep := acceptedSteps ++ [.mark 4]

theorem crash_misses_none_marked :
    StepsMeet Handover.poolStep Handover.Guarded (Handover.start crashPool fun _ => 0) markedSteps ∧
      (markedSteps.foldl Handover.poolStep (Handover.start crashPool fun _ => 0)).RecoversAll := by
  have hguarded : StepsMeet Handover.poolStep Handover.Guarded (Handover.start crashPool fun _ => 0)
      markedSteps := by
    obtain ⟨h₁, h₂, h₃, h₄, h₅, -⟩ := guarded_acceptedSteps
    exact ⟨h₁, h₂, h₃, h₄, h₅, trivial, trivial⟩
  have hidle :
      (markedSteps.foldl Handover.poolStep (Handover.start crashPool fun _ => 0)).sending =
      none := by
    decide
  refine ⟨hguarded, ?_⟩
  refine (Handover.crash_misses_none_iff hguarded _ (foldl_mem_trace _ _ _)).2
    fun index hsending => ?_
  exact absurd (hidle.symm.trans hsending) (by simp)

end AccountServices
