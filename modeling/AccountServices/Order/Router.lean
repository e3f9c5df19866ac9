import AccountServices.Core.World

/-!
# The order router

`order/order_router.cpp`. Three functions of the source place an order of the service itself: the
fan-out of a cancel over the children of an order, the cancel of an order without children, and the
submission of a child. They take the same steps (slot, book, queue) and differ in the texts of their
errors, so they share `placeInternalOrder`.
-/

set_option autoImplicit false

namespace AccountServices

open Foundation

namespace Service

/-- `allocate_internal_order_id`. -/
def allocateInternalOrderId : Service InternalOrderId := .atomic .nextOrderId World.allocateOrderId

/-- `order_queue.try_push`. -/
def tryPush (index : OrderIndex) : Service Bool :=
  .atomic (.push index) fun w =>
    match w.downstream with
    | none => (false, w)
    | some q =>
        ((q.tryPush index).1,
          { w with
            downstream := some (q.tryPush index).2
            pushed := if (q.tryPush index).1 then w.pushed ++ [index] else w.pushed })

/-- `send_to_downstream`: the index is pushed first, and the stage of its slot follows. -/
def sendToDownstream (now : TimestampNs) (index : OrderIndex) : Service Bool := do
  let attached ← Program.read .internal fun w => w.downstream.isSome && w.ordersShm.isSome
  if attached then
    let pushed ← tryPush index
    updateStage index (if pushed then .downstreamQueued else .queuePushFailed) now
    pure pushed
  else
    recordError ⟨.order, .componentUnavailable, "order_router", "downstream/orders shm unavailable"⟩
    pure false

/-- `create_internal_order_slot`: `orders_shm_append`, which allocates a slot and then writes it. -/
def createInternalOrderSlot (now : TimestampNs) (request : OrderRequest) :
    Service (Option OrderIndex) := do
  let allocated ← onOrdersShm .allocateSlot none fun shm => shm.tryAllocate
  match allocated with
  | none => pure none
  | some index =>
      -- The slot is written as already dequeued: it never was in the upstream queue.
      let written ← writeOrder index request .upstreamDequeued .accountInternal now
      pure (if written then some index else none)

/-- The texts of the three errors of `placeInternalOrder`. -/
structure PlaceTexts where
  noSlot : String
  notAdded : String
  notSent : String

/-- An order of the service with its slot enters the book and goes to the queue; it ends as
submitted or in error. -/
def enterInternalOrder (now : TimestampNs) (texts : PlaceTexts) (entry : OrderEntry) :
    Service (Bool × OrderEntry) := do
  let added ← addOrder now entry
  if added then
    let sent ← sendToDownstream now entry.shmOrderIndex
    if sent then
      let _ ← updateState now entry.request.internalOrderId .traderSubmitted
      pure (true, entry)
    else
      let _ ← updateState now entry.request.internalOrderId .traderError
      recordError ⟨.order, .queuePushFailed, "order_router", texts.notSent⟩
      pure (false, entry)
  else
    -- The slot is not given back: an index is allocated once.
    updateStage entry.shmOrderIndex .queuePushFailed now
    recordError ⟨.order, .orderBookFull, "order_router", texts.notAdded⟩
    pure (false, entry)

/-- An order of the service takes a slot, enters the book and goes to the queue. The slot is kept
when the entry already has one. -/
def placeInternalOrder (now : TimestampNs) (texts : PlaceTexts) (entry : OrderEntry) :
    Service (Bool × OrderEntry) := do
  let slot ←
    (if entry.shmOrderIndex = kInvalidOrderIndex then createInternalOrderSlot now entry.request
    else pure (some entry.shmOrderIndex))
  match slot with
  | none =>
      recordError ⟨.order, .orderPoolFull, "order_router", texts.noSlot⟩
      pure (false, entry)
  | some index => enterInternalOrder now texts { entry with shmOrderIndex := index }

/-- The request of a cancel made by the router. -/
def cancelRequest (cancelId : InternalOrderId) (time : MdTime) (origId : InternalOrderId) :
    OrderRequest :=
  { OrderRequest.initCancel cancelId time origId with orderState := .traderPending }

/-- The flags of the loop in `route_cancel`. -/
structure FanOut where
  anySent : Bool := false
  anyFailed : Bool := false
  usedCancelId : Bool := false

/-- One turn of the loop: the first child that is cancelled takes the id of the cancel itself, the
others take new ids. -/
def cancelChild (now : TimestampNs) (origId cancelId : InternalOrderId)
    (time : MdTime) (acc : FanOut) (childId : InternalOrderId) : Service FanOut := do
  match ← findOrder childId with
  | none => pure acc
  | some child =>
      if child.request.orderType ≠ .new ∨ child.isTerminal then pure acc
      else
        let childCancelId ← (if acc.usedCancelId then allocateInternalOrderId else pure cancelId)
        let (sent, _) ← placeInternalOrder now
          ⟨"failed to allocate child cancel order slot", "failed to add child cancel order",
            "failed to send child cancel to downstream"⟩
          -- The cancel is itself registered as a child of the order it fans out from.
          { request := cancelRequest childCancelId time childId
            submitTimeNs := now
            lastUpdateNs := now
            strategyId := child.strategyId
            isSplitChild := true
            parentOrderId := origId }
        pure
          { anySent := acc.anySent || sent
            anyFailed := acc.anyFailed || !sent
            usedCancelId := true }

/-- The loop of `route_cancel` over the children. -/
def cancelChildren (now : TimestampNs) (origId cancelId : InternalOrderId) (time : MdTime) :
    FanOut → List InternalOrderId → Service FanOut
  | acc, [] => pure acc
  | acc, childId :: rest => do
      let acc' ← cancelChild now origId cancelId time acc childId
      cancelChildren now origId cancelId time acc' rest

/-- `route_cancel`. -/
def routeCancel (now : TimestampNs) (origId cancelId : InternalOrderId) (time : MdTime) :
    Service Bool := do
  let children ← Program.read .internal fun w => w.book.getChildren origId
  if children.isEmpty then
    -- A cancel that the event loop has added is in the book under this id, and `add_order` refuses
    -- it a second time.
    let (sent, _) ← placeInternalOrder now
      ⟨"failed to allocate cancel order slot", "failed to add cancel order",
        "failed to send cancel request"⟩
      { request := cancelRequest cancelId time origId, submitTimeNs := now, lastUpdateNs := now }
    pure sent
  else
    let acc ← cancelChildren now origId cancelId time {} children
    if acc.anyFailed then
      -- The order is marked, not the cancel.
      let _ ← updateState now origId .traderError
      pure acc.anySent
    else pure acc.anySent

/-- `route_order`. -/
def routeOrder (now : TimestampNs) (entry : OrderEntry) : Service Bool := do
  if entry.request.orderType = .cancel then
    routeCancel now entry.request.origInternalOrderId entry.request.internalOrderId
      entry.request.mdTimeDriven
  else if entry.shmOrderIndex = kInvalidOrderIndex then
    let _ ← updateState now entry.request.internalOrderId .traderError
    recordError ⟨.order, .orderInvariantBroken, "order_router", "missing order shm index"⟩
    pure false
  else
    let sent ← sendToDownstream now entry.shmOrderIndex
    if sent then
      let _ ← updateState now entry.request.internalOrderId .traderSubmitted
      pure true
    else
      let _ ← updateState now entry.request.internalOrderId .traderError
      recordError ⟨.order, .queuePushFailed, "order_router", "failed to push order to downstream"⟩
      pure false

/-- `submit_internal_order`, which fills in the id and the times of the entry. -/
def submitInternalOrder (now : TimestampNs) (entry : OrderEntry) : Service (Bool × OrderEntry) := do
  let orderId ←
    (if entry.request.internalOrderId = 0 then allocateInternalOrderId
    else pure entry.request.internalOrderId)
  let submitTimeNs := if entry.submitTimeNs = 0 then now else entry.submitTimeNs
  let lastUpdateNs := if entry.lastUpdateNs = 0 then submitTimeNs else entry.lastUpdateNs
  placeInternalOrder now
    ⟨"failed to allocate internal child slot", "failed to add internal child",
      "failed to send internal child"⟩
    { entry with
      request := { entry.request with internalOrderId := orderId, orderState := .traderPending }
      submitTimeNs := submitTimeNs
      lastUpdateNs := lastUpdateNs }

/-! ## What the router preserves -/

section Preserves

open Program

variable {Adds : OrderEntry → Prop} {Inv : World → Prop} (hstable : Stable Adds Inv)

include hstable

theorem preserves_onOrdersShm {α : Type} (label : Action) (fail : α)
    (f : OrdersShm → α × OrdersShm) : Preserves Inv (onOrdersShm label fail f) := by
  refine Preserves.atomic fun w h => ?_
  split
  next => exact h
  next shm _ => exact hstable.shared w (some (f shm).2) w.errors w.downstream w.pushed h

theorem preserves_updateStage (index : OrderIndex) (stage : OrderSlotState) (now : TimestampNs) :
    Preserves Inv (updateStage index stage now) :=
  Preserves.bind (preserves_onOrdersShm hstable _ _ _) fun _ => Preserves.pure _

theorem preserves_recordError (error : ErrorStatus) : Preserves Inv (recordError error) :=
  Preserves.modify fun w h => hstable.shared w w.ordersShm _ w.downstream w.pushed h

theorem preserves_onBook (now : TimestampNs) {op : OrderBook → BookOutcome}
    (hop : ∀ w : World, Inv w → Inv { w with book := (op w.book).book }) :
    Preserves Inv (onBook now op) := by
  intro w h
  obtain ⟨shm, errors, heq⟩ := w.applyBook_eq now op
  rw [run_onBook, heq]
  exact hstable.shared { w with book := (op w.book).book } shm errors
    w.downstream w.pushed (hop w h)

theorem preserves_addOrder (now : TimestampNs) {entry : OrderEntry} (hadds : Adds entry) :
    Preserves Inv (addOrder now entry) :=
  preserves_onBook hstable now fun w h => hstable.addOrder w entry now hadds h

theorem preserves_updateState (now : TimestampNs) (orderId : InternalOrderId) (state : OrderState) :
    Preserves Inv (updateState now orderId state) :=
  preserves_onBook hstable now fun w h => hstable.updateState w orderId state now h

theorem preserves_allocateInternalOrderId : Preserves Inv allocateInternalOrderId :=
  Preserves.atomic fun w h => hstable.nextOrderId w h

theorem preserves_sendToDownstream (now : TimestampNs) (index : OrderIndex) :
    Preserves Inv (sendToDownstream now index) := by
  refine Preserves.bind Preserves.read fun attached => Preserves.ite ?_ ?_
  · refine Preserves.bind (Preserves.atomic fun w h => ?_) fun pushed =>
      Preserves.bind (preserves_updateStage hstable _ _ _) fun _ => Preserves.pure _
    split
    next => exact h
    next q _ =>
      exact hstable.shared w w.ordersShm w.errors (some (q.tryPush index).2)
        (if (q.tryPush index).1 then w.pushed ++ [index] else w.pushed) h
  · exact Preserves.bind (preserves_recordError hstable _) fun _ => Preserves.pure _

theorem preserves_createInternalOrderSlot (now : TimestampNs) (request : OrderRequest) :
    Preserves Inv (createInternalOrderSlot now request) := by
  refine Preserves.bind (preserves_onOrdersShm hstable _ _ _) fun allocated => ?_
  cases allocated with
  | none => exact Preserves.pure _
  | some index => exact Preserves.bind (preserves_onOrdersShm hstable _ _ _) fun _ =>
      Preserves.pure _

theorem preserves_enterInternalOrder (now : TimestampNs) (texts : PlaceTexts) {entry : OrderEntry}
    (hadds : Adds entry) : Preserves Inv (enterInternalOrder now texts entry) := by
  refine Preserves.bind (preserves_addOrder hstable now hadds) fun added => Preserves.ite ?_ ?_
  · refine Preserves.bind (preserves_sendToDownstream hstable _ _) fun sent => Preserves.ite ?_ ?_
    · exact Preserves.bind (preserves_updateState hstable _ _ _) fun _ => Preserves.pure _
    · exact Preserves.bind (preserves_updateState hstable _ _ _) fun _ =>
        Preserves.bind (preserves_recordError hstable _) fun _ => Preserves.pure _
  · exact Preserves.bind (preserves_updateStage hstable _ _ _) fun _ =>
      Preserves.bind (preserves_recordError hstable _) fun _ => Preserves.pure _

theorem preserves_placeInternalOrder (now : TimestampNs) (texts : PlaceTexts) {entry : OrderEntry}
    (hadds : ∀ index, Adds { entry with shmOrderIndex := index }) :
    Preserves Inv (placeInternalOrder now texts entry) := by
  refine Preserves.bind
    (Preserves.ite (preserves_createInternalOrderSlot hstable _ _) (Preserves.pure _)) fun slot =>
      ?_
  cases slot with
  | none => exact Preserves.bind (preserves_recordError hstable _) fun _ => Preserves.pure _
  | some index => exact preserves_enterInternalOrder hstable now texts (hadds index)

end Preserves

end Service

/-! ## Calls of the router -/

/-- What the router does when it places its own orders: the rules say that each of these calls
preserves the property. An order that the router makes takes its slot from the pool. -/
structure PlacementRules (Adds : OrderEntry → Prop) (Inv : World → Prop) : Prop where
  recordError : ∀ error, Program.Preserves Inv (Service.recordError error)
  allocateInternalOrderId : Program.Preserves Inv Service.allocateInternalOrderId
  updateState : ∀ now orderId state, Program.Preserves Inv (Service.updateState now orderId state)
  placeInternalOrder : ∀ now texts (entry : OrderEntry), entry.shmOrderIndex = kInvalidOrderIndex →
    (∀ index, Adds { entry with shmOrderIndex := index }) →
      Program.Preserves Inv (Service.placeInternalOrder now texts entry)

/-- The router may send any slot without ending the property. -/
structure RouterRules (Adds : OrderEntry → Prop) (Inv : World → Prop) :
    Prop extends PlacementRules Adds Inv where
  sendToDownstream : ∀ now index, Program.Preserves Inv (Service.sendToDownstream now index)

theorem Stable.routerRules {Adds : OrderEntry → Prop} {Inv : World → Prop}
    (hstable : Stable Adds Inv) : RouterRules Adds Inv where
  recordError := Service.preserves_recordError hstable
  allocateInternalOrderId := Service.preserves_allocateInternalOrderId hstable
  updateState := Service.preserves_updateState hstable
  sendToDownstream := Service.preserves_sendToDownstream hstable
  placeInternalOrder now texts _ _ hadds :=
    Service.preserves_placeInternalOrder hstable now texts hadds

namespace PlacementRules

open Program

variable {Adds : OrderEntry → Prop} {Inv : World → Prop} (h : PlacementRules Adds Inv)

include h

theorem cancelChild (hsplit : AdmitsSplit Adds) (now : TimestampNs)
    (origId cancelId : InternalOrderId)
    (time : MdTime) (acc : Service.FanOut) (childId : InternalOrderId) :
    Preserves Inv (Service.cancelChild now origId cancelId time acc childId) := by
  refine Preserves.bind Preserves.read fun child => ?_
  cases child with
  | none => exact Preserves.pure _
  | some child =>
      refine Preserves.ite (Preserves.pure _) ?_
      refine Preserves.bind (Preserves.ite h.allocateInternalOrderId (Preserves.pure _))
        fun cancel => ?_
      refine Preserves.bind (h.placeInternalOrder now _ _ rfl fun index => ?_) fun placed =>
        Preserves.pure _
      exact hsplit _ rfl rfl

theorem cancelChildren (hsplit : AdmitsSplit Adds) (now : TimestampNs)
    (origId cancelId : InternalOrderId)
    (time : MdTime) (children : List InternalOrderId) (acc : Service.FanOut) :
    Preserves Inv (Service.cancelChildren now origId cancelId time acc children) := by
  induction children generalizing acc with
  | nil => exact Preserves.pure _
  | cons childId rest ih =>
      exact Preserves.bind (h.cancelChild hsplit _ _ _ _ _ _) fun acc' => ih acc'

theorem routeCancel (hsplit : AdmitsSplit Adds) (hplain : AdmitsPlain Adds) (now : TimestampNs)
    (origId cancelId : InternalOrderId) (time : MdTime) :
    Preserves Inv (Service.routeCancel now origId cancelId time) := by
  refine Preserves.bind Preserves.read fun children => Preserves.ite ?_ ?_
  · refine Preserves.bind (h.placeInternalOrder now _ _ rfl fun index => ?_) fun placed =>
      Preserves.pure _
    exact hplain _ rfl rfl
  · refine Preserves.bind (h.cancelChildren hsplit _ _ _ _ _ _) fun acc =>
      Preserves.ite ?_ (Preserves.pure _)
    exact Preserves.bind (h.updateState _ _ _) fun _ => Preserves.pure _

theorem submitInternalOrder (now : TimestampNs) {entry : OrderEntry}
    (hslot : entry.shmOrderIndex = kInvalidOrderIndex)
    (hadds : ∀ orderId submitTime lastUpdate index, Adds
      { entry with
        request := { entry.request with internalOrderId := orderId, orderState := .traderPending }
        submitTimeNs := submitTime
        lastUpdateNs := lastUpdate
        shmOrderIndex := index }) :
    Preserves Inv (Service.submitInternalOrder now entry) :=
  Preserves.bind (Preserves.ite h.allocateInternalOrderId (Preserves.pure _))
    fun orderId => h.placeInternalOrder now _ _ hslot fun index => hadds orderId _ _ index

end PlacementRules

namespace RouterRules

open Program

variable {Adds : OrderEntry → Prop} {Inv : World → Prop} (h : RouterRules Adds Inv)

include h

/-- The route of an order that is not a cancel. -/
theorem routeOrder_new (now : TimestampNs) {entry : OrderEntry}
    (hnew : entry.request.orderType ≠ .cancel) : Preserves Inv (Service.routeOrder now entry) := by
  rw [Service.routeOrder]
  rw [if_neg hnew]
  refine Preserves.ite ?_ ?_
  · exact Preserves.bind (h.updateState _ _ _) fun _ =>
      Preserves.bind (h.recordError _) fun _ => Preserves.pure _
  · refine Preserves.bind (h.sendToDownstream _ _) fun sent => Preserves.ite ?_ ?_
    · exact Preserves.bind (h.updateState _ _ _) fun _ => Preserves.pure _
    · exact Preserves.bind (h.updateState _ _ _) fun _ =>
        Preserves.bind (h.recordError _) fun _ => Preserves.pure _

theorem routeOrder (hsplit : AdmitsSplit Adds) (hplain : AdmitsPlain Adds) (now : TimestampNs)
    (entry : OrderEntry) : Preserves Inv (Service.routeOrder now entry) := by
  by_cases hcancel : entry.request.orderType = .cancel
  · rw [Service.routeOrder]
    rw [if_pos hcancel]
    exact h.routeCancel hsplit hplain _ _ _ _
  · exact h.routeOrder_new now hcancel

end RouterRules

end AccountServices
