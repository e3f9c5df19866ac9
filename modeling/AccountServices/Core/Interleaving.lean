import AccountServices.Foundation.Interference
import AccountServices.Order.Router
import AccountServices.Order.BookTerms

/-!
# The service beside the gateway

The gateway is another process. It pops the queue to which the service pushes, and it writes the
stage of the slots that it has taken, at any moment between two steps of the service. Neither
touches what the service keeps to itself, so a handler sees its own book, sessions and counters as
it left them, and a router that has room does not lose it.
-/

set_option autoImplicit false

namespace AccountServices

open Foundation

/-! ## The steps of the gateway -/

/-- A step of `process_orders` on the memory that it shares with the service. -/
inductive World.GatewayStep : World → World → Prop
  | pop {w : World} {q : SpscQueue OrderIndex 18} (h : w.downstream = some q) :
      GatewayStep w { w with downstream := some q.tryPop.2 }
  | dequeue {w : World} {shm : OrdersShm} (index : OrderIndex) (now : TimestampNs)
      (h : w.ordersShm = some shm) :
      GatewayStep w { w with ordersShm := some (shm.updateStage index .downstreamDequeued now).2 }

/-- Any number of steps of the gateway. -/
def World.Gateway (_ : Action) (w v : World) : Prop := Relation.ReflTransGen World.GatewayStep w v

/-- What the gateway does while a handler runs. -/
abbrev Schedule := Interference World.Gateway

/-- The gateway stands still. -/
def Schedule.idle : Schedule := Interference.idle fun _ _ => Relation.ReflTransGen.refl

/-- The worlds differ in the shared memory and in the logs only. -/
def World.Apart (w u : World) : Prop :=
  u = { w with
    ordersShm := u.ordersShm, downstream := u.downstream, errors := u.errors, pushed := u.pushed }

namespace World.Apart

variable {w u v : World}

theorem refl (w : World) : w.Apart w := rfl

theorem book (h : w.Apart u) : u.book = w.book := (congrArg World.book h).trans rfl

theorem sessions (h : w.Apart u) : u.sessions = w.sessions := (congrArg World.sessions h).trans rfl

theorem childTrace (h : w.Apart u) : u.childTrace = w.childTrace :=
  (congrArg World.childTrace h).trans rfl

theorem gatewayStep (h : w.Apart u) (hstep : u.GatewayStep v) : w.Apart v := by
  cases hstep with
  | pop hq =>
      rw [Apart] at h ⊢
      rw [h]
  | dequeue index now hshm =>
      rw [Apart] at h ⊢
      rw [h]

end World.Apart

/-! ## Properties of the shared memory that last -/

/-- A property of the shared memory that neither the gateway nor a write to a slot ends. -/
structure Lasting (M : Option OrdersShm → Option (SpscQueue OrderIndex 18) → Prop) : Prop where
  pop : ∀ {pool : Option OrdersShm} {q : SpscQueue OrderIndex 18},
    M pool (some q) → M pool (some q.tryPop.2)
  write : ∀ {shm : OrdersShm} {queue : Option (SpscQueue OrderIndex 18)} (index : OrderIndex)
    (f : OrderSlot → OrderSlot), M (some shm) queue → M (some (shm.mutateSlot index f).2) queue

/-- The world is `w` beside the shared memory, which satisfies `M`. -/
def World.Amid (w : World) (M : Option OrdersShm → Option (SpscQueue OrderIndex 18) → Prop)
    (u : World) : Prop :=
  w.Apart u ∧ M u.ordersShm u.downstream

section Amid

variable {M : Option OrdersShm → Option (SpscQueue OrderIndex 18) → Prop}

theorem World.Amid.steady (hM : Lasting M) (w : World) : Steady World.Gateway (w.Amid M) := by
  intro l u v hsteps h
  induction hsteps with
  | refl => exact h
  | tail _ hstep ih =>
      refine ⟨ih.1.gatewayStep hstep, ?_⟩
      cases hstep with
      | pop hq => exact hM.pop (hq ▸ ih.2)
      | dequeue index now hshm => exact hM.write index _ (hshm ▸ ih.2)

end Amid

/-- The gateway leaves alone what the service keeps to itself. -/
theorem World.apart_gateway {l : Action} {w v : World} (h : World.Gateway l w v) : w.Apart v := by
  induction h with
  | refl => exact World.Apart.refl w
  | tail _ hstep ih => exact ih.gatewayStep hstep

namespace Service

open Program

variable {M : Option OrdersShm → Option (SpscQueue OrderIndex 18) → Prop} (hM : Lasting M)

include hM

/-- A read of what the service keeps to itself. -/
theorem triple_read {α : Type} {l : Action} {f : World → α} (w : World)
    (hf : ∀ u : World, w.Apart u → f u = f w) :
    Triple World.Gateway (w.Amid M) (Program.read l f) fun a u => a = f w ∧ w.Amid M u :=
  Triple.read (World.Amid.steady hM w) fun u hu => ⟨hf u hu.1, hu⟩

theorem triple_recordError (w : World) (error : ErrorStatus) :
    Triple World.Gateway (w.Amid M) (recordError error) fun _ => w.Amid M := by
  refine Triple.modify (World.Amid.steady hM w) fun u hu => ⟨?_, hu.2⟩
  have h := hu.1
  rw [World.Apart] at h ⊢
  rw [h]

/-- The records are written after those of `w`. -/
theorem triple_recordTrace (w : World) (records : List ChildTrace) :
    Triple World.Gateway (w.Amid M) (recordTrace records) fun _ =>
      World.Amid { w with childTrace := w.childTrace ++ records } M := by
  refine Triple.modify (World.Amid.steady hM w) fun u hu => ⟨?_, hu.2⟩
  have h := hu.1
  rw [World.Apart] at h ⊢
  rw [h]

/-- A write to a slot. -/
theorem triple_mutateSlot (w : World) (l : Action) (index : OrderIndex)
    (f : OrderSlot → OrderSlot) :
    Triple World.Gateway (w.Amid M) (onOrdersShm l false fun shm => shm.mutateSlot index f)
      fun ok u =>
      w.Amid M u ∧ ∀ shm, u.ordersShm = some shm → ok = shm.indexExists index := by
  refine Triple.atomic (World.Amid.steady hM w) fun _ u _ hu => ?_
  have h := hu.1
  cases hshm : u.ordersShm with
  | none =>
      refine ⟨?_, ?_⟩
      · simpa [hshm] using hu
      · intro shm heq
        exact absurd heq (by simp [hshm])
  | some shm =>
      simp only
      refine ⟨⟨?_, ?_⟩, ?_⟩
      · rw [World.Apart] at h ⊢
        rw [h]
      · exact hM.write index f (hshm ▸ hu.2)
      · intro shm' heq
        rw [Option.some.injEq] at heq
        rw [← heq, OrdersShm.mutateSlot_fst, OrdersShm.indexExists_mutateSlot]

theorem triple_updateStage (w : World) (index : OrderIndex) (stage : OrderSlotState)
    (now : TimestampNs) :
    Triple World.Gateway (w.Amid M) (updateStage index stage now) fun _ => w.Amid M :=
  Triple.bind (triple_mutateSlot hM w _ index _) fun _ => Triple.pure fun _ h => h.1

theorem triple_onOrderBookChanged (w : World) (now : TimestampNs) (entry : OrderEntry)
    (event : BookEvent) :
    Triple World.Gateway (w.Amid M) (onOrderBookChanged now entry event) fun _ => w.Amid M := by
  refine Triple.bind (R := fun _ => w.Amid M) (Triple.read (World.Amid.steady hM w) fun u hu => hu)
    fun attached => ?_
  refine Triple.ite (fun _ => Triple.pure fun _ h => h) fun _ => ?_
  refine Triple.bind (R := fun _ => w.Amid M) ?_ fun synced =>
    Triple.ite (fun _ => Triple.pure fun _ h => h) fun _ => triple_recordError hM w _
  have hwrite : ∀ (l : Action) (index : OrderIndex) (f : OrderSlot → OrderSlot),
      Triple World.Gateway (w.Amid M) (onOrdersShm l false fun shm => shm.mutateSlot index f)
        fun _ => w.Amid M := fun l index f => (triple_mutateSlot hM w l index f).mono
          (fun _ h => h) fun _ _ h => h.1
  exact Triple.ite (fun _ => hwrite _ _ _) fun _ => Triple.ite (fun _ => hwrite _ _ _) fun _ =>
    hwrite _ _ _

/-- A book operation with its callbacks. -/
theorem triple_onBook (w : World) (now : TimestampNs) (op : OrderBook → BookOutcome) :
    Triple World.Gateway (w.Amid M) (onBook now op) fun ok u =>
      ok = (op w.book).ok ∧ World.Amid { w with book := (op w.book).book } M u := by
  refine Triple.bind (R := fun out u => out = op w.book ∧
    World.Amid { w with book := (op w.book).book } M u) ?_ ?_
  · refine Triple.atomic (World.Amid.steady hM w) fun _ u _ hu => ⟨?_, ?_, hu.2⟩
    · rw [hu.1.book]
    · have h := hu.1
      rw [World.Apart] at h ⊢
      rw [h]
  · intro out
    refine Triple.pure_and fun hout => ?_
    refine Triple.bind (Triple.forEach (fun note : OrderEntry × BookEvent =>
      triple_onOrderBookChanged hM _ now note.1 note.2) _) fun _ => ?_
    exact Triple.pure fun u hu => ⟨hout ▸ rfl, hu⟩

end Service

/-! ## Room for one more order -/

/-- The ring has a free cell. -/
def SpscQueue.HasRoom {α : Type} {k : Nat} (q : SpscQueue α k) : Prop :=
  (q.head + 1) &&& (2 ^ k - 1) ≠ q.tail

/-- A pop does not take room away. -/
theorem SpscQueue.HasRoom.tryPop {α : Type} {k : Nat} {q : SpscQueue α k} (h : q.HasRoom) :
    q.tryPop.2.HasRoom := by
  rw [SpscQueue.tryPop]
  split
  · exact h
  next hne =>
    rw [HasRoom] at h ⊢
    have h₁ := q.head_lt
    have h₂ := q.tail_lt
    simp only
    rw [and_mask_eq (by omega), and_mask_eq (by omega)]
    split <;> split <;> omega

/-- The pool has a slot left, and the queue a cell. -/
def HasRoom (pool : Option OrdersShm) (queue : Option (SpscQueue OrderIndex 18)) : Prop :=
  (∃ shm, pool = some shm ∧ shm.nextIndex < shm.capacity) ∧ ∃ q, queue = some q ∧ q.HasRoom

/-- The slot is handed out, and the queue has a cell left. -/
def SlotReady (index : OrderIndex) (pool : Option OrdersShm)
    (queue : Option (SpscQueue OrderIndex 18)) : Prop :=
  (∃ shm, pool = some shm ∧ shm.indexExists index = true) ∧ ∃ q, queue = some q ∧ q.HasRoom

variable {routes : Prop}

theorem lasting_hasRoom : Lasting fun pool queue => routes → HasRoom pool queue where
  pop h hroutes := by
    obtain ⟨hpool, q, hq, hroom⟩ := h hroutes
    rw [Option.some.injEq] at hq
    exact ⟨hpool, _, rfl, hq ▸ hroom.tryPop⟩
  write index f h hroutes := by
    obtain ⟨⟨shm, hshm, hlt⟩, hqueue⟩ := h hroutes
    rw [Option.some.injEq] at hshm
    refine ⟨⟨_, rfl, ?_⟩, hqueue⟩
    rw [OrdersShm.nextIndex_mutateSlot, OrdersShm.capacity_mutateSlot, hshm]
    exact hlt

theorem lasting_slotReady (index : OrderIndex) : Lasting fun pool queue => routes →
    SlotReady index pool queue where
  pop h hroutes := by
    obtain ⟨hpool, q, hq, hroom⟩ := h hroutes
    rw [Option.some.injEq] at hq
    exact ⟨hpool, _, rfl, hq ▸ hroom.tryPop⟩
  write i f h hroutes := by
    obtain ⟨⟨shm, hshm, hexists⟩, hqueue⟩ := h hroutes
    rw [Option.some.injEq] at hshm
    refine ⟨⟨_, rfl, ?_⟩, hqueue⟩
    rw [OrdersShm.indexExists_mutateSlot, hshm]
    exact hexists

/-- A slot that was just handed out exists. -/
theorem OrdersShm.indexExists_tryAllocate {shm : OrdersShm} (h : shm.nextIndex < shm.capacity) :
    shm.tryAllocate.1 = some shm.nextIndex ∧
      shm.tryAllocate.2.indexExists shm.nextIndex = true := by
  have hlt := UInt32.lt_iff_toNat_lt.1 h
  have hcap := shm.capacity_le
  rw [tryAllocate]
  rw [dif_pos h]
  refine ⟨rfl, ?_⟩
  simp only [indexExists, decide_eq_true_eq]
  refine ⟨?_, ?_, h⟩
  · intro heq
    rw [heq] at hlt
    have : kInvalidOrderIndex.toNat < kMaxActiveOrders := by omega
    exact absurd this (by decide)
  · rw [UInt32.lt_iff_toNat_lt, UInt32.toNat_add]
    simp only [UInt32.reduceToNat]
    have : kMaxActiveOrders < 2 ^ 32 := by decide
    omega

/-- An allocation hands out a slot that did not exist, and leaves those that did as they are. -/
theorem OrdersShm.tryAllocate_keeps {shm : OrdersShm} (hroom : shm.nextIndex < shm.capacity) :
    shm.indexExists shm.nextIndex = false ∧ shm.tryAllocate.2.slots = shm.slots ∧
      ∀ i, shm.indexExists i = true → i ≠ shm.nextIndex ∧
        shm.tryAllocate.2.indexExists i = true := by
  have hallocate : shm.tryAllocate.2.capacity = shm.capacity ∧
      shm.tryAllocate.2.slots = shm.slots := by
    simp only [tryAllocate, dif_pos hroom, and_self]
  have hnext := (of_decide_eq_true (OrdersShm.indexExists_tryAllocate hroom).2).2.1
  refine ⟨by simp [indexExists], hallocate.2, fun i hi => ?_⟩
  obtain ⟨hvalid, hlt, hcapacity⟩ := of_decide_eq_true hi
  refine ⟨?_, ?_⟩
  · rintro rfl
    exact absurd hlt (UInt32.lt_irrefl _)
  · simp only [indexExists, decide_eq_true_eq, hallocate.1]
    exact ⟨hvalid, UInt32.lt_trans hlt hnext, hcapacity⟩

/-! ## The router -/

/-- Nothing is known of the shared memory. -/
def anyMemory (_ : Option OrdersShm) (_ : Option (SpscQueue OrderIndex 18)) : Prop := True

theorem lasting_anyMemory : Lasting anyMemory := ⟨fun _ => trivial, fun _ _ _ => trivial⟩

theorem World.Amid.forget {w u : World}
    {M : Option OrdersShm → Option (SpscQueue OrderIndex 18) → Prop}
    (h : w.Amid M u) : w.Amid anyMemory u := ⟨h.1, trivial⟩

namespace Service

open Program

/-- A slot, if there is one. -/
theorem triple_createInternalOrderSlot (w : World) (now : TimestampNs) (request : OrderRequest) :
    Triple World.Gateway (w.Amid fun pool queue => routes → HasRoom pool queue)
      (createInternalOrderSlot now request) fun slot u =>
        match slot with
        | none => ¬ routes ∧ w.Amid anyMemory u
        | some index => w.Amid (fun pool queue => routes → SlotReady index pool queue) u := by
  refine Triple.bind (R := fun slot u => match slot with
    | none => ¬ routes ∧ w.Amid anyMemory u
    | some index => w.Amid (fun pool queue => routes → SlotReady index pool queue) u) ?_ ?_
  -- The allocation: the gateway allocates nothing, so a pool with room keeps it until then.
  · refine Triple.atomic (World.Amid.steady lasting_hasRoom w) fun _ u _ hu => ?_
    obtain ⟨hapart, hroom⟩ := hu
    cases hshm : u.ordersShm with
    | none =>
        refine ⟨fun hroutes => ?_, hapart, trivial⟩
        obtain ⟨⟨shm, heq, -⟩, -⟩ := hroom hroutes
        exact absurd heq (by simp [hshm])
    | some shm =>
        simp only
        have hother : w.Apart { u with ordersShm := some shm.tryAllocate.2 } := by
          rw [World.Apart] at hapart ⊢
          rw [hapart]
        by_cases hlt : shm.nextIndex < shm.capacity
        · obtain ⟨hsome, hexists⟩ := OrdersShm.indexExists_tryAllocate hlt
          rw [hsome]
          exact ⟨hother, fun hroutes => ⟨⟨_, rfl, hexists⟩, (hroom hroutes).2⟩⟩
        · have hnone : shm.tryAllocate.1 = none := by
            rw [OrdersShm.tryAllocate]
            rw [dif_neg hlt]
          rw [hnone]
          refine ⟨fun hroutes => ?_, hother, trivial⟩
          obtain ⟨⟨shm', heq, hlt'⟩, -⟩ := hroom hroutes
          rw [hshm, Option.some.injEq] at heq
          exact hlt (heq ▸ hlt')
  -- The write: a slot that was allocated exists, whatever the gateway does.
  · intro slot
    cases slot with
    | none => exact Triple.pure fun u hu => hu
    | some index =>
        refine Triple.bind (triple_mutateSlot (lasting_slotReady index) w _ index _) fun written =>
          ?_
        refine Triple.pure fun u hu => ?_
        obtain ⟨hamid, hwritten⟩ := hu
        cases written with
        | true => exact hamid
        | false =>
            refine ⟨fun hroutes => ?_, hamid.forget⟩
            obtain ⟨⟨shm, hshm, hexists⟩, -⟩ := hamid.2 hroutes
            exact absurd ((hwritten shm hshm).trans hexists) Bool.false_ne_true

/-- The push of an index. -/
theorem triple_sendToDownstream (w : World) (now : TimestampNs) (index : OrderIndex) :
    Triple World.Gateway (w.Amid fun pool queue => routes → SlotReady index pool queue)
      (sendToDownstream now index) fun sent u => (sent = false → ¬ routes) ∧
        w.Amid anyMemory u := by
  have hlasting : Lasting fun pool queue => routes → SlotReady index pool queue :=
    lasting_slotReady index
  have hsteady := World.Amid.steady hlasting w
  refine Triple.bind (R := fun attached u => (attached = false → ¬ routes) ∧
    w.Amid (fun pool queue => routes → SlotReady index pool queue) u) ?_ fun attached => ?_
  -- The two objects stay attached once they are.
  · refine Triple.read hsteady fun u hu => ⟨fun hdetached hroutes => ?_, hu⟩
    obtain ⟨⟨shm, hshm, -⟩, q, hq, -⟩ := hu.2 hroutes
    rw [hshm, hq] at hdetached
    exact absurd hdetached (by simp)
  · refine Triple.pure_and fun hattached => Triple.ite (fun _ => ?_) fun hdetached => ?_
    · refine Triple.bind (R := fun sent u => (sent = false → ¬ routes) ∧ w.Amid anyMemory u) ?_
        fun sent => ?_
      -- The push: the service is the only producer, so the room in the queue stays until here.
      · refine Triple.atomic hsteady fun _ u _ hu => ?_
        obtain ⟨hapart, hready⟩ := hu
        cases hq : u.downstream with
        | none =>
            refine ⟨fun _ hroutes => ?_, hapart, trivial⟩
            obtain ⟨-, q, heq, -⟩ := hready hroutes
            exact absurd heq (by simp [hq])
        | some q =>
            refine ⟨fun hrefused hroutes => ?_, ?_, trivial⟩
            · obtain ⟨-, q', heq, hroom⟩ := hready hroutes
              rw [hq, Option.some.injEq] at heq
              exact Bool.false_ne_true (hrefused.symm.trans
                ((SpscQueue.tryPush_true_iff q index).2 (heq ▸ hroom)))
            · rw [World.Apart] at hapart ⊢
              rw [hapart]
      · refine Triple.pure_and fun hsent => ?_
        refine Triple.bind (triple_updateStage lasting_anyMemory w index _ now) fun _ => ?_
        exact Triple.pure fun u hu => ⟨hsent, hu⟩
    -- Not attached.
    · refine Triple.mono (Triple.bind (triple_recordError lasting_anyMemory w _) fun _ =>
        Triple.pure (Q := fun (_ : Bool) u => w.Amid anyMemory u) fun u hu => hu)
          (fun u hu => hu.forget) ?_
      exact fun sent u hu => ⟨fun _ => hattached (by simpa using hdetached), hu⟩

end Service

/-- What the router makes of an order that it places: it is sent, or it stays in the book in error,
or it does not enter the book. -/
inductive World.Placed (now : TimestampNs) (routes : Prop) (w : World) (entry : OrderEntry) :
    Bool → World → Prop
  | sent (hok : (w.book.addOrder entry now).ok = true) :
      Placed now routes w entry true { w with
        book := ((w.book.addOrder entry now).book.updateState entry.request.internalOrderId
          .traderSubmitted now).book }
  | unsent (hrefused : ¬ routes) (hok : (w.book.addOrder entry now).ok = true) :
      Placed now routes w entry false { w with
        book := ((w.book.addOrder entry now).book.updateState entry.request.internalOrderId
          .traderError now).book }
  | shut (hrefused : ¬ routes) : Placed now routes w entry false w

/-- The router can place one more order. -/
def World.Routes (w : World) : Prop :=
  HasRoom w.ordersShm w.downstream ∧ w.allocateOrderId.1 ≠ 0 ∧
    w.book.findOrder w.allocateOrderId.1 = none ∧ w.book.table.free ≠ []

theorem World.Apart.allocateOrderId {w u : World} (h : w.Apart u) :
    u.allocateOrderId.1 = w.allocateOrderId.1 ∧ w.allocateOrderId.2.Apart u.allocateOrderId.2 ∧
      u.allocateOrderId.2.ordersShm = u.ordersShm ∧
        u.allocateOrderId.2.downstream = u.downstream := by
  rw [World.Apart] at h ⊢
  rw [h]
  simp only [World.allocateOrderId]
  cases w.upstreamNextOrderId with
  | none => exact ⟨rfl, rfl, rfl, rfl⟩
  | some next => exact ⟨rfl, rfl, rfl, rfl⟩

/-- The entry that `submit_internal_order` places. -/
def OrderEntry.internal (entry : OrderEntry) (now : TimestampNs) (orderId : InternalOrderId)
    (index : OrderIndex) : OrderEntry :=
  let submitTimeNs := if entry.submitTimeNs = 0 then now else entry.submitTimeNs
  { entry with
    request := { entry.request with internalOrderId := orderId, orderState := .traderPending }
    submitTimeNs := submitTimeNs
    lastUpdateNs := if entry.lastUpdateNs = 0 then submitTimeNs else entry.lastUpdateNs
    shmOrderIndex := index }

namespace Service

open Program

theorem triple_enterInternalOrder (w : World) (now : TimestampNs) (texts : PlaceTexts)
    (entry : OrderEntry) (hadd : routes → (w.book.addOrder entry now).ok = true) :
    Triple World.Gateway
      (w.Amid fun pool queue => routes → SlotReady entry.shmOrderIndex pool queue)
      (enterInternalOrder now texts entry) fun out u =>
        out.2 = entry ∧ ∃ v, w.Placed now routes entry out.1 v ∧ v.Amid anyMemory u := by
  refine Triple.bind (triple_onBook (lasting_slotReady _) w now fun b => b.addOrder entry now)
    fun added => ?_
  refine Triple.pure_and fun hadded => Triple.ite (fun htrue => ?_) fun hfalse => ?_
  · have hok : (w.book.addOrder entry now).ok = true := hadded.symm.trans htrue
    refine Triple.bind (triple_sendToDownstream _ now entry.shmOrderIndex) fun sent => ?_
    refine Triple.pure_and fun hsent => Triple.ite (fun _ => ?_) fun hnot => ?_
    · refine Triple.bind (triple_onBook lasting_anyMemory _ now _) fun _ =>
        Triple.pure fun u hu => ?_
      exact ⟨rfl, _, .sent hok, hu.2⟩
    · have hrefused : ¬ routes := hsent (by simpa using hnot)
      refine Triple.bind (triple_onBook lasting_anyMemory _ now _) fun _ => ?_
      refine Triple.pure_and fun _ => ?_
      refine Triple.bind (triple_recordError lasting_anyMemory _ _) fun _ =>
        Triple.pure fun u hu => ?_
      exact ⟨rfl, _, .unsent hrefused hok, hu⟩
  · have hno : ¬ (w.book.addOrder entry now).ok = true := fun hok => hfalse (hadded.trans hok)
    have hbook : { w with book := (w.book.addOrder entry now).book } = w := by
      rw [OrderBook.addOrder_of_not_ok (Bool.eq_false_of_not_eq_true hno)]
    rw [hbook]
    refine Triple.mono (Triple.bind (triple_updateStage lasting_anyMemory w _ _ now) fun _ =>
      Triple.bind (triple_recordError lasting_anyMemory w _) fun _ => Triple.pure
        (Q := fun out u => out = (false, entry) ∧ w.Amid anyMemory u) fun u hu => ⟨rfl, hu⟩)
      (fun u hu => hu.forget) ?_
    rintro _ u ⟨rfl, hu⟩
    exact ⟨rfl, w, .shut fun hroutes => hno (hadd hroutes), hu⟩

theorem triple_placeInternalOrder (w : World) (now : TimestampNs) (texts : PlaceTexts)
    {entry : OrderEntry} (hslot : entry.shmOrderIndex = kInvalidOrderIndex)
    (hadd : routes →
      ∀ index, (w.book.addOrder { entry with shmOrderIndex := index } now).ok = true) :
    Triple World.Gateway (w.Amid fun pool queue => routes → HasRoom pool queue)
      (placeInternalOrder now texts entry) fun out u =>
        ∃ index v, out.2 = { entry with shmOrderIndex := index } ∧
          w.Placed now routes out.2 out.1 v ∧ v.Amid anyMemory u := by
  rw [placeInternalOrder]
  rw [if_pos hslot]
  refine Triple.bind (triple_createInternalOrderSlot w now entry.request) fun slot => ?_
  cases slot with
  | none =>
      refine Triple.pure_and fun hrefused => ?_
      refine Triple.bind (triple_recordError lasting_anyMemory w _) fun _ =>
        Triple.pure fun u hu => ?_
      exact ⟨entry.shmOrderIndex, w, rfl, .shut hrefused, hu⟩
  | some index =>
      refine (triple_enterInternalOrder w now texts { entry with shmOrderIndex := index }
        fun hroutes => hadd hroutes index).mono (fun u hu => hu) ?_
      rintro out u ⟨hout, v, hplaced, hu⟩
      exact ⟨index, v, hout, hout ▸ hplaced, hu⟩

/-- The submission of an order without an id: it draws one and is placed under it. -/
theorem triple_submitInternalOrder (w : World) (now : TimestampNs) {entry : OrderEntry}
    (hid : entry.request.internalOrderId = 0) (hslot : entry.shmOrderIndex = kInvalidOrderIndex)
    (hroutes : routes → w.Routes) :
    Triple World.Gateway (w.Amid fun pool queue => routes → HasRoom pool queue)
      (submitInternalOrder now entry) fun out u =>
        ∃ index v, out.2 = entry.internal now w.allocateOrderId.1 index ∧
          w.allocateOrderId.2.Placed now routes out.2 out.1 v ∧ v.Amid anyMemory u := by
  rw [submitInternalOrder]
  rw [if_pos hid]
  refine Triple.bind (R := fun orderId u => orderId = w.allocateOrderId.1 ∧
    w.allocateOrderId.2.Amid (fun pool queue => routes → HasRoom pool queue) u) ?_ ?_
  · refine Triple.atomic (World.Amid.steady lasting_hasRoom w) fun _ u _ hu => ?_
    obtain ⟨hfst, hapart, hpool, hqueue⟩ := hu.1.allocateOrderId
    refine ⟨hfst, hapart, ?_⟩
    rw [hpool, hqueue]
    exact hu.2
  · intro orderId
    refine Triple.pure_and fun horderId => ?_
    subst horderId
    refine triple_placeInternalOrder w.allocateOrderId.2 now _ hslot fun hr index => ?_
    obtain ⟨-, hzero, hnone, hfree⟩ := hroutes hr
    obtain ⟨_, next, _, heq⟩ := w.allocateOrderId_eq
    rw [OrderBook.addOrder_ok_iff, heq]
    exact ⟨hzero, hnone, hfree⟩

end Service

end AccountServices
