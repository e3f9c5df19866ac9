import AccountServices.Core.World

/-!
# Recovery after a restart

`order/order_recovery.cpp`: the order pool is scanned for orders that were handed to the gateway and
are not terminal; for every order id the latest snapshot is kept, and the book is filled from these.
The book has no change callback yet while this runs.
-/

set_option autoImplicit false

namespace AccountServices

open Foundation

/-- `is_recoverable_stage`. -/
def OrderSlotState.isRecoverable : OrderSlotState → Bool
  | .downstreamQueued | .downstreamDequeued => true
  | _ => false

/-- `recovered_order_candidate`. -/
structure RecoveredOrderCandidate where
  index : OrderIndex
  snapshot : OrderSlot

namespace Recovery

/-- The slot qualifies: a stage behind the queue, an order id, a state that is not terminal. -/
def eligible (slot : OrderSlot) : Bool :=
  slot.stage.isRecoverable && decide (slot.request.internalOrderId ≠ 0) &&
    !slot.request.orderState.isTerminal

/-- `should_replace`. -/
def shouldReplace (existing candidate : RecoveredOrderCandidate) : Bool :=
  decide (candidate.snapshot.lastUpdateNs > existing.snapshot.lastUpdateNs) ||
    (decide (candidate.snapshot.lastUpdateNs = existing.snapshot.lastUpdateNs) &&
      decide (candidate.index > existing.index))

/-- One turn of the scan. -/
def scanSlot (shm : OrdersShm) (candidates : Map InternalOrderId RecoveredOrderCandidate)
    (index : OrderIndex) : Map InternalOrderId RecoveredOrderCandidate :=
  match shm.readSnapshot index with
  | none => candidates
  | some slot =>
      -- Slots that the gateway never got, or has settled, are left alone.
      if ¬ eligible slot then candidates
      else
        let candidate : RecoveredOrderCandidate := ⟨index, slot⟩
        match candidates.lookup slot.request.internalOrderId with
        | none => candidates.insert slot.request.internalOrderId candidate
        | some existing =>
            if shouldReplace existing candidate then
              candidates.insert slot.request.internalOrderId candidate
            else candidates

/-- The first phase: the scan of the slots below the allocation bound. -/
def scan (shm : OrdersShm) : Map InternalOrderId RecoveredOrderCandidate :=
  ((List.range shm.nextIndex.toNat).map UInt32.ofNat).foldl (scanSlot shm) ∅

/-- The entry that is restored. It holds no reservation. -/
def restoredEntry (candidate : RecoveredOrderCandidate) (now : TimestampNs) : OrderEntry :=
  let recoveredTime :=
    if candidate.snapshot.lastUpdateNs ≠ 0 then candidate.snapshot.lastUpdateNs else now
  { request := candidate.snapshot.request
    submitTimeNs := recoveredTime
    lastUpdateNs := recoveredTime
    shmOrderIndex := candidate.index }

/-- One turn of the second phase: the book, and the largest id restored so far. -/
def restore (now : TimestampNs) (acc : OrderBook × InternalOrderId)
    (item : InternalOrderId × RecoveredOrderCandidate) : OrderBook × InternalOrderId :=
  let out := acc.1.addOrder (restoredEntry item.2 now) now
  -- An order that the book refuses is left out and does not count for the largest id.
  if out.ok then (out.book, if item.1 > acc.2 then item.1 else acc.2) else (out.book, acc.2)

/-- The second phase. -/
def restoreAll (now : TimestampNs) (b : OrderBook)
    (candidates : Map InternalOrderId RecoveredOrderCandidate) : OrderBook × InternalOrderId :=
  (candidates.entries.map fun e => (e.1, e.2)).foldl (restore now) (b, 0)

/-- The seed of the id generator. -/
def nextOrderSeed (upstreamNextOrderId : Option InternalOrderId) (maxRecovered : InternalOrderId) :
    InternalOrderId :=
  let seed := upstreamNextOrderId.getD 1
  let recoveredNext := saturatedNextOrderId maxRecovered
  if recoveredNext > seed then recoveredNext else seed

end Recovery

/-- `recover_downstream_active_orders_from_shm`. -/
def recoverDownstreamActiveOrders (shm : OrdersShm) (upstreamNextOrderId : Option InternalOrderId)
    (now : TimestampNs) (b : OrderBook) : OrderBook :=
  let (b', maxRecovered) := Recovery.restoreAll now b (Recovery.scan shm)
  let seed := Recovery.nextOrderSeed upstreamNextOrderId maxRecovered
  if seed > 0 then b'.ensureNextOrderIdAtLeast seed else b'

end AccountServices
