import AccountServices.Common.SecurityIdentity

/-!
# The order pool in shared memory

`shm/orders_shm.hpp`: an append-only pool of order slots, written by the clients, the account
service and the gateway. A slot is protected by a sequence lock; every mutation and every read of a
slot is one atomic step here, so the sequence number has no counterpart. The allocator hands out
slots in order and never reuses one.
-/

set_option autoImplicit false

namespace AccountServices

/-- `OrderSlot`, without the sequence number. -/
structure OrderSlot where
  lastUpdateNs : TimestampNs := 0
  stage : OrderSlotState := .empty
  source : OrderSlotSource := .unknown
  request : OrderRequest := {}
  deriving DecidableEq

/-- `orders_shm_layout`: the allocation bound never passes the capacity, and the capacity is at most
the number of slots of the layout. -/
structure OrdersShm where
  capacity : OrderIndex
  nextIndex : OrderIndex
  slots : OrderIndex → OrderSlot
  capacity_le : capacity.toNat ≤ kMaxActiveOrders
  nextIndex_le : nextIndex ≤ capacity

namespace OrdersShm

/-- `orders_shm_index_exists`. -/
def indexExists (shm : OrdersShm) (index : OrderIndex) : Bool :=
  decide (index ≠ kInvalidOrderIndex ∧ index < shm.nextIndex ∧ index < shm.capacity)

/-- `orders_shm_mutate_slot`. -/
def mutateSlot (shm : OrdersShm) (index : OrderIndex) (f : OrderSlot → OrderSlot) :
    Bool × OrdersShm :=
  if shm.indexExists index then
    (true, { shm with slots := Function.update shm.slots index (f (shm.slots index)) })
  else (false, shm)

/-- `orders_shm_write_order`. -/
def writeOrder (shm : OrdersShm) (index : OrderIndex) (request : OrderRequest)
    (stage : OrderSlotState) (source : OrderSlotSource) (updateNs : TimestampNs) :
    Bool × OrdersShm :=
  shm.mutateSlot index fun _ =>
    { request := request, stage := stage, source := source, lastUpdateNs := updateNs }

/-- `orders_shm_sync_order`. -/
def syncOrder (shm : OrdersShm) (index : OrderIndex) (request : OrderRequest)
    (updateNs : TimestampNs) : Bool × OrdersShm :=
  shm.mutateSlot index fun slot => { slot with request := request, lastUpdateNs := updateNs }

/-- `orders_shm_update_stage`. -/
def updateStage (shm : OrdersShm) (index : OrderIndex) (stage : OrderSlotState)
    (updateNs : TimestampNs) : Bool × OrdersShm :=
  shm.mutateSlot index fun slot => { slot with stage := stage, lastUpdateNs := updateNs }

/-- `orders_shm_try_allocate`. -/
def tryAllocate (shm : OrdersShm) : Option OrderIndex × OrdersShm :=
  if h : shm.nextIndex < shm.capacity then
    (some shm.nextIndex,
      { shm with
        nextIndex := shm.nextIndex + 1
        nextIndex_le := by
          have h' := UInt32.lt_iff_toNat_lt.1 h
          have hc := shm.capacity.toNat_lt
          rw [UInt32.le_iff_toNat_le, UInt32.toNat_add]
          simp only [UInt32.reduceToNat]
          omega })
  else (none, shm)

/-- `orders_shm_append`. -/
def append (shm : OrdersShm) (request : OrderRequest) (stage : OrderSlotState)
    (source : OrderSlotSource) (updateNs : TimestampNs) : Option OrderIndex × OrdersShm :=
  match shm.tryAllocate with
  | (none, shm') => (none, shm')
  | (some index, shm') =>
      let (ok, shm'') := shm'.writeOrder index request stage source updateNs
      (if ok then some index else none, shm'')

/-- `orders_shm_read_snapshot`: a slot that exists is read as it is. -/
def readSnapshot (shm : OrdersShm) (index : OrderIndex) : Option OrderSlot :=
  if shm.indexExists index then some (shm.slots index) else none

/-! ## Slots after a mutation -/

theorem indexExists_mutateSlot (shm : OrdersShm) (index : OrderIndex) (f : OrderSlot → OrderSlot)
    (i : OrderIndex) : (shm.mutateSlot index f).2.indexExists i = shm.indexExists i := by
  rw [mutateSlot]
  split <;> rfl

theorem slots_mutateSlot_of_ne (shm : OrdersShm) {index i : OrderIndex} (f : OrderSlot → OrderSlot)
    (h : i ≠ index) : (shm.mutateSlot index f).2.slots i = shm.slots i := by
  rw [mutateSlot]
  split
  · simp only [Function.update_of_ne h]
  · rfl

theorem slots_mutateSlot_self {shm : OrdersShm} {index : OrderIndex} (f : OrderSlot → OrderSlot)
    (h : shm.indexExists index = true) :
    (shm.mutateSlot index f).2.slots index = f (shm.slots index) := by
  simp [mutateSlot, h]

theorem mutateSlot_fst (shm : OrdersShm) (index : OrderIndex) (f : OrderSlot → OrderSlot) :
    (shm.mutateSlot index f).1 = shm.indexExists index := by
  rw [mutateSlot]
  split <;> simp_all

/-- Mutating a slot does not move the allocator. -/
@[simp] theorem nextIndex_mutateSlot (shm : OrdersShm) (index : OrderIndex)
    (f : OrderSlot → OrderSlot) : (shm.mutateSlot index f).2.nextIndex = shm.nextIndex := by
  rw [mutateSlot]
  split <;> rfl

@[simp] theorem capacity_mutateSlot (shm : OrdersShm) (index : OrderIndex)
    (f : OrderSlot → OrderSlot) : (shm.mutateSlot index f).2.capacity = shm.capacity := by
  rw [mutateSlot]
  split <;> rfl

end OrdersShm

/-! ## Pools with the orders of clients -/

/-- An order of a client for one security. -/
def OrderRequest.ofClient (orderId : InternalOrderId) (side : TradeSide) (volume : Volume)
    (price : DPrice) : OrderRequest :=
  { internalOrderId := orderId
    orderType := .new
    tradeSide := side
    market := .sh
    securityId := FixedString.assign (asciiBytes ['6', '0', '0', '0', '0', '0'])
    volumeEntrust := volume
    dpriceEntrust := price
    orderState := .userSubmitted }

/-- A cancel that a client places under the id 9. -/
def OrderRequest.ofCancel (origId : InternalOrderId) : OrderRequest :=
  { internalOrderId := 9
    orderType := .cancel
    origInternalOrderId := origId
    orderState := .userSubmitted }

/-- A pool of eight slots, the first four of them handed to clients that have placed these
orders. -/
def OrdersShm.ofClients (requests : List OrderRequest) : OrdersShm where
  capacity := 8
  nextIndex := 4
  slots i :=
    match requests[i.toNat]? with
    | none => {}
    | some request => { stage := .upstreamQueued, source := .user, request := request }
  capacity_le := by decide
  nextIndex_le := by decide

end AccountServices
