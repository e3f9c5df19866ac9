import Mathlib.Data.Finset.Insert
import Mathlib.Data.Finset.Erase
import AccountServices.Foundation.Word
import AccountServices.Common.SecurityIdentity

/-!
# The order book

`order/order_book.cpp`. The slot array `orders_`, the map `id_to_index_` and the stack `free_slots_`
of the source are one `SlotTable`; the other containers are maps and sets of order ids.

Every operation runs under the book's lock and then calls the change callback with copies of the
entries it changed. Here an operation returns the new book together with these notifications and the
errors it recorded (`BookOutcome`); the callback itself is `onOrderBookChanged` of the event loop.
-/

set_option autoImplicit false

namespace AccountServices

open Foundation

/-- `order_book_event_t`. -/
inductive BookEvent where
  | added | statusUpdated | tradeUpdated | archived | parentRefreshed
  deriving DecidableEq, Repr

/-- `ManagedParentView`. -/
structure ManagedParentView where
  executionAlgo : PassiveExecutionAlgo := .none
  executionState : ExecutionState := .none
  targetVolume : Volume := 0
  workingVolume : Volume := 0
  schedulableVolume : Volume := 0
  confirmedTradedVolume : Volume := 0
  confirmedTradedValue : DValue := 0
  confirmedFee : DValue := 0

/-- `OrderBook`. -/
structure OrderBook where
  table : SlotTable InternalOrderId OrderEntry kMaxActiveOrders
  brokerIdMap : Map UInt64 InternalOrderId
  securityOrders : Map InternalSecurityId (List InternalOrderId)
  parentToChildren : Map InternalOrderId (List InternalOrderId)
  childToParent : Map InternalOrderId InternalOrderId
  managedParentIds : Finset InternalOrderId
  splitParentErrorLatched : Finset InternalOrderId
  activeCount : Nat
  nextOrderId : InternalOrderId

/-- The result of an operation: the new book, the value returned, the errors recorded and the
notifications to send, in order. -/
structure BookOutcome where
  book : OrderBook
  ok : Bool
  errors : List ErrorStatus := []
  notes : List (OrderEntry × BookEvent) := []

/-- `saturating_add`. -/
def saturatingAdd (lhs rhs : UInt64) : UInt64 :=
  if lhs > 0xFFFFFFFFFFFFFFFF - rhs then 0xFFFFFFFFFFFFFFFF else lhs + rhs

theorem saturatingAdd_toNat (lhs rhs : UInt64) :
    (saturatingAdd lhs rhs).toNat = min (2 ^ 64 - 1) (lhs.toNat + rhs.toNat) := by
  have h₁ := lhs.toNat_lt
  have h₂ := rhs.toNat_lt
  have hmax : (0xFFFFFFFFFFFFFFFF : UInt64).toNat = 2 ^ 64 - 1 := rfl
  have hle : rhs ≤ 0xFFFFFFFFFFFFFFFF := by
    rw [Word.le_iff]
    omega
  have hsub := UInt64.toNat_sub_of_le 0xFFFFFFFFFFFFFFFF rhs hle
  rw [saturatingAdd]
  split
  next hgt =>
    rw [gt_iff_lt, Word.lt_iff] at hgt
    omega
  next hgt =>
    rw [gt_iff_lt, Word.lt_iff] at hgt
    rw [Word.toNat_add_of_lt (by omega)]
    omega

theorem saturatingAdd_zero (x : UInt64) : saturatingAdd 0 x = x := by
  have hlt := x.toNat_lt
  rw [Word.eq_iff, saturatingAdd_toNat, UInt64.toNat_zero]
  omega

/-- `saturated_next_order_id`. -/
def saturatedNextOrderId (orderId : InternalOrderId) : InternalOrderId :=
  if orderId = 0xFFFFFFFF then orderId else orderId + 1

namespace OrderBook

/-- `OrderBook::OrderBook`. -/
def empty : OrderBook where
  table := SlotTable.empty {}
  brokerIdMap := ∅
  securityOrders := ∅
  parentToChildren := ∅
  childToParent := ∅
  managedParentIds := ∅
  splitParentErrorLatched := ∅
  activeCount := 0
  nextOrderId := 1

/-- `find_order`. -/
def findOrder (b : OrderBook) (orderId : InternalOrderId) :
    Option OrderEntry := b.table.find? orderId

/-- A write through the pointer that `find_order` returns. No callback is made for it. -/
def modifyOrder (b : OrderBook) (orderId : InternalOrderId) (f : OrderEntry → OrderEntry) :
    OrderBook :=
  { b with table := b.table.modify orderId f }

/-- `get_children`: the registered children of an order, cancels included. -/
def getChildren (b : OrderBook) (parentId : InternalOrderId) : List InternalOrderId :=
  (b.parentToChildren.lookup parentId).getD []

/-- `try_get_parent`. -/
def tryGetParent (b : OrderBook) (childId : InternalOrderId) : Option InternalOrderId :=
  b.childToParent.lookup childId

/-- `is_managed_parent_nolock`. -/
def isManagedParent (b : OrderBook) (parentId : InternalOrderId) : Bool :=
  decide (parentId ∈ b.managedParentIds)

/-- `ensure_next_order_id_at_least`. -/
def ensureNextOrderIdAtLeast (b : OrderBook) (nextId : InternalOrderId) : OrderBook :=
  if b.nextOrderId < nextId then { b with nextOrderId := nextId } else b

/-! ## Aggregation of the children of an unmanaged parent -/

/-- The accumulators of the loop in `refresh_parent_from_children_nolock`. -/
structure ChildFold where
  totalVolumeTraded : Volume := 0
  totalVolumeRemain : Volume := 0
  totalDvalueTraded : DValue := 0
  totalFee : DValue := 0
  latestUpdateNs : TimestampNs
  allTerminal : Bool := true
  bestProgressStatus : OrderState := .notSet
  bestProgressRank : Int := -1
  newChildCount : Nat := 0

/-- One turn of the loop: children that are gone or are not new orders are skipped. -/
def ChildFold.add (acc : ChildFold) (child : Option OrderEntry) : ChildFold :=
  match child with
  | none => acc
  | some c =>
      if c.request.orderType = .new then
        let status := c.request.orderState
        { totalVolumeTraded := saturatingAdd acc.totalVolumeTraded c.request.volumeTraded
          totalVolumeRemain := saturatingAdd acc.totalVolumeRemain c.request.volumeRemain
          totalDvalueTraded := saturatingAdd acc.totalDvalueTraded c.request.dvalueTraded
          totalFee := saturatingAdd acc.totalFee c.request.dfeeExecuted
          latestUpdateNs := max acc.latestUpdateNs c.lastUpdateNs
          allTerminal := acc.allTerminal && status.isTerminal
          bestProgressStatus :=
            -- The first child of the highest rank gives the state.
            if status.progressRank > acc.bestProgressRank then status else acc.bestProgressStatus
          bestProgressRank := max acc.bestProgressRank status.progressRank
          newChildCount := acc.newChildCount + 1 }
      else acc

/-- The state that the aggregation stores in the parent. -/
def refreshedState (latched : Bool) (acc : ChildFold) (current : OrderState) : OrderState :=
  -- The latch comes first: a split in error stays so whatever its children do.
  if latched then .traderError
  else if acc.allTerminal then .finished
  else if acc.bestProgressStatus ≠ .notSet then acc.bestProgressStatus
  else current

/-- The parent entry after the aggregation. -/
def refreshParent (parent : OrderEntry) (latched : Bool) (acc : ChildFold) : OrderEntry :=
  let volumeRemain :=
    if parent.request.volumeEntrust > 0 ∧ acc.totalVolumeRemain > parent.request.volumeEntrust then
      parent.request.volumeEntrust
    else acc.totalVolumeRemain
  { parent with
    request := { parent.request with
      volumeTraded := acc.totalVolumeTraded
      volumeRemain := volumeRemain
      dvalueTraded := acc.totalDvalueTraded
      dfeeExecuted := acc.totalFee
      dpriceTraded :=
        if acc.totalVolumeTraded > 0 then acc.totalDvalueTraded / acc.totalVolumeTraded
        else parent.request.dpriceTraded
      orderState := refreshedState latched acc parent.request.orderState }
    lastUpdateNs := acc.latestUpdateNs }

/-- The loop of `refresh_parent_from_children_nolock` over the registered children. -/
def foldChildren (b : OrderBook) (parent : OrderEntry) (children : List InternalOrderId) :
    ChildFold :=
  children.foldl (fun acc childId => acc.add (b.findOrder childId))
    { latestUpdateNs := parent.lastUpdateNs }

/-- `refresh_parent_from_children_nolock`, with the notification it sends and the error it
records. -/
def refreshParentFromChildren (b : OrderBook) (parentId : InternalOrderId) :
    OrderBook × List ErrorStatus × List (OrderEntry × BookEvent) :=
  if b.isManagedParent parentId then (b, [], [])
  else
    match b.findOrder parentId with
    | none =>
        (b, [⟨.order, .orderInvariantBroken, "OrderBook",
          "parent missing while refreshing split state"⟩], [])
    | some parent =>
        match b.parentToChildren.lookup parentId with
        -- An order without registered children keeps its own figures.
        | none => (b, [], [])
        | some children =>
            let acc := b.foldChildren parent children
            -- Cancels alone do not count as children.
            if acc.newChildCount = 0 then (b, [], [])
            else
              let parent' :=
                refreshParent parent (decide (parentId ∈ b.splitParentErrorLatched)) acc
              (b.modifyOrder parentId fun _ => parent', [], [(parent', .parentRefreshed)])

/-- The refresh that follows a change of `orderId`: only a child of an unmanaged parent has one. -/
def refreshParentOf (b : OrderBook) (orderId : InternalOrderId) :
    OrderBook × List ErrorStatus × List (OrderEntry × BookEvent) :=
  match b.childToParent.lookup orderId with
  | some parentId =>
      if b.isManagedParent parentId then (b, [], []) else b.refreshParentFromChildren parentId
  | none => (b, [], [])

/-! ## Operations -/

/-- The entry that `add_order` stores: default times and the remaining volume are filled in. -/
def storedEntry (entry : OrderEntry) (now : TimestampNs) : OrderEntry :=
  let submitTimeNs := if entry.submitTimeNs = 0 then now else entry.submitTimeNs
  let lastUpdateNs := if entry.lastUpdateNs = 0 then submitTimeNs else entry.lastUpdateNs
  let request :=
    if entry.request.orderType = .new ∧ entry.request.volumeRemain = 0 ∧
        entry.request.volumeTraded ≤ entry.request.volumeEntrust then
      { entry.request with volumeRemain := entry.request.volumeEntrust -
        entry.request.volumeTraded }
    else entry.request
  { entry with submitTimeNs := submitTimeNs, lastUpdateNs := lastUpdateNs, request := request }

/-- The registration of a stored entry in the secondary maps. The normalized key goes into the
security index only: the source writes it to its local copy after that copy was stored. -/
def registerOrder (b : OrderBook) (orderId : InternalOrderId) (stored : OrderEntry) : OrderBook :=
  let b := b.ensureNextOrderIdAtLeast (saturatedNextOrderId orderId)
  let b :=
    if stored.request.brokerOrderId ≠ 0 then
      { b with brokerIdMap := b.brokerIdMap.insert stored.request.brokerOrderId orderId }
    else b
  match normalizeSecurityKey stored.request.internalSecurityId.view with
  | some key =>
      { b with securityOrders :=
          b.securityOrders.insert key ((b.securityOrders.lookup key).getD [] ++ [orderId]) }
  | none => b

/-- The parent link of a split child. -/
def linkChild (b : OrderBook) (orderId parentId : InternalOrderId) : OrderBook :=
  { b with
    parentToChildren := b.parentToChildren.insert parentId (b.getChildren parentId ++ [orderId])
    childToParent := b.childToParent.insert orderId parentId }

/-- `add_order`. -/
def addOrder (b : OrderBook) (entry : OrderEntry) (now : TimestampNs) : BookOutcome :=
  let orderId := entry.request.internalOrderId
  if orderId = 0 then
    { book := b, ok := false
      errors := [⟨.order, .invalidOrderId, "OrderBook", "order id is zero"⟩] }
  else if (b.findOrder orderId).isSome then
    { book := b, ok := false
      errors := [⟨.order, .duplicateOrder, "OrderBook", "duplicate order id"⟩] }
  else if b.table.free.isEmpty then
    { book := b, ok := false
      errors := [⟨.order, .orderBookFull, "OrderBook", "order book free slots exhausted"⟩] }
  else
    let stored := storedEntry entry now
    let b₁ := registerOrder { b with table := b.table.insert orderId stored } orderId stored
    -- The child enters the maps before its parent is refreshed, so its own volumes count.
    let (b₂, errors, notes) :=
      if stored.isSplitChild ∧ stored.parentOrderId ≠ 0 then
        let b' := b₁.linkChild orderId stored.parentOrderId
        if b'.isManagedParent stored.parentOrderId then (b', [], [])
        else b'.refreshParentFromChildren stored.parentOrderId
      else (b₁, [], [])
    let b₃ := { b₂ with activeCount := b₂.activeCount + 1 }
    { book := b₃, ok := true, errors := errors
      notes := notes ++ [((b₃.findOrder orderId).getD stored, .added)] }

/-- The entry with a new state. -/
def withState (entry : OrderEntry) (state : OrderState) (now : TimestampNs) : OrderEntry :=
  { entry with request := { entry.request with orderState := state }, lastUpdateNs := now }

/-- The error latch of `update_state`: an unmanaged parent that is set to an error stays in it. -/
def latchSplitError (b : OrderBook) (orderId : InternalOrderId) (state : OrderState) : OrderBook :=
  if state = .traderError ∧ (b.parentToChildren.lookup orderId).isSome ∧
    ¬ b.isManagedParent orderId then
    { b with splitParentErrorLatched := insert orderId b.splitParentErrorLatched }
  else b

/-- `update_state`. The new state is stored without regard to the current one. -/
def updateState (b : OrderBook) (orderId : InternalOrderId) (newState : OrderState)
    (now : TimestampNs) : BookOutcome :=
  match b.findOrder orderId with
  | none =>
      { book := b, ok := false
        errors := [⟨.order, .orderNotFound, "OrderBook", "update_state order not found"⟩] }
  | some entry =>
      let entry' := withState entry newState now
      let b₁ := (b.modifyOrder orderId fun _ => entry').latchSplitError orderId newState
      -- The latch comes before the refresh, so an error of the parent itself is kept.
      let (b₂, errors, notes) := b₁.refreshParentOf orderId
      { book := b₂, ok := true, errors := errors
        notes := notes ++ [((b₂.findOrder orderId).getD entry', .statusUpdated)] }

/-- The request after one fill of `update_trade`. A fill that leaves nothing open finishes an order
that is not yet in a terminal state. -/
def tradedRequest (request : OrderRequest) (vol : Volume) (px : DPrice) (val fee : DValue) :
    OrderRequest :=
  let summed := saturatingAdd request.volumeTraded vol
  let volumeTraded :=
    -- The volume is cut to that of the order; the value and the fee are added in full.
    if request.volumeEntrust > 0 ∧ summed > request.volumeEntrust then request.volumeEntrust
    else summed
  let volumeRemain := if vol ≥ request.volumeRemain then 0 else request.volumeRemain - vol
  let dvalueTraded := saturatingAdd request.dvalueTraded val
  { request with
    volumeTraded := volumeTraded
    volumeRemain := volumeRemain
    dvalueTraded := dvalueTraded
    dfeeExecuted := saturatingAdd request.dfeeExecuted fee
    dpriceTraded :=
      if volumeTraded > 0 then
        if dvalueTraded > 0 then dvalueTraded / volumeTraded else px
      else request.dpriceTraded
    orderState :=
      if volumeRemain = 0 ∧ ¬ request.orderState.isTerminal then .finished else request.orderState }

/-- The entry with a fill. -/
def withTrade (entry : OrderEntry) (vol : Volume) (px : DPrice) (val fee : DValue)
    (now : TimestampNs) : OrderEntry :=
  { entry with request := tradedRequest entry.request vol px val fee, lastUpdateNs := now }

/-- `update_trade`. -/
def updateTrade (b : OrderBook) (orderId : InternalOrderId) (vol : Volume) (px : DPrice)
    (val fee : DValue) (now : TimestampNs) : BookOutcome :=
  match b.findOrder orderId with
  | none =>
      { book := b, ok := false
        errors := [⟨.order, .orderNotFound, "OrderBook", "update_trade order not found"⟩] }
  | some entry =>
      let entry' := withTrade entry vol px val fee now
      let b₁ := b.modifyOrder orderId fun _ => entry'
      let (b₂, errors, notes) := b₁.refreshParentOf orderId
      { book := b₂, ok := true, errors := errors
        notes := notes ++ [((b₂.findOrder orderId).getD entry', .tradeUpdated)] }

/-- `mark_managed_parent`. -/
def markManagedParent (b : OrderBook) (parentId : InternalOrderId) : BookOutcome :=
  match b.findOrder parentId with
  | none =>
      { book := b, ok := false
        errors := [⟨.order, .orderNotFound, "OrderBook", "mark_managed_parent parent not found"⟩] }
  | some _ =>
      { book := { b with managedParentIds := insert parentId b.managedParentIds }, ok := true }

/-- The parent request that mirrors the view of its session. -/
def mirroredRequest (request : OrderRequest) (view : ManagedParentView) (parentState : OrderState) :
    OrderRequest :=
  { request with
    executionAlgo := view.executionAlgo
    executionState := view.executionState
    targetVolume := view.targetVolume
    workingVolume := view.workingVolume
    schedulableVolume := view.schedulableVolume
    volumeEntrust := view.targetVolume
    volumeTraded := view.confirmedTradedVolume
    volumeRemain :=
      if view.targetVolume ≥ view.confirmedTradedVolume then
        view.targetVolume - view.confirmedTradedVolume
      else 0
    dvalueTraded := view.confirmedTradedValue
    dfeeExecuted := view.confirmedFee
    dpriceTraded :=
      if view.confirmedTradedVolume > 0 then view.confirmedTradedValue / view.confirmedTradedVolume
      else 0
    orderState := parentState }

/-- `sync_managed_parent_view`. A mirror that changes nothing is not announced. -/
def syncManagedParentView (b : OrderBook) (parentId : InternalOrderId) (view : ManagedParentView)
    (parentState : OrderState) (now : TimestampNs) : BookOutcome :=
  match b.findOrder parentId with
  | none =>
      { book := b, ok := false
        errors :=
          [⟨.order, .orderNotFound, "OrderBook", "sync_managed_parent_view parent not found"⟩] }
  | some parent =>
      let b₁ := { b with managedParentIds := insert parentId b.managedParentIds }
      let request := mirroredRequest parent.request view parentState
      if request = parent.request then { book := b₁, ok := true }
      else
        let parent' := { parent with request := request, lastUpdateNs := now }
        { book := b₁.modifyOrder parentId fun _ => parent', ok := true
          notes := [(parent', .parentRefreshed)] }

/-- The security index without `orderId`; an emptied list is dropped. -/
def unindexSecurity (b : OrderBook) (orderId : InternalOrderId) (request : OrderRequest) :
    Map InternalSecurityId (List InternalOrderId) :=
  match normalizeSecurityKey request.internalSecurityId.view with
  | none => b.securityOrders
  | some key =>
      match b.securityOrders.lookup key with
      | none => b.securityOrders
      | some orders =>
          let rest := orders.filter (· ≠ orderId)
          if rest.isEmpty then b.securityOrders.erase key else b.securityOrders.insert key rest

/-- `archive_order`. -/
def archiveOrder (b : OrderBook) (orderId : InternalOrderId) : BookOutcome :=
  match b.findOrder orderId with
  | none =>
      { book := b, ok := false
        errors := [⟨.order, .orderNotFound, "OrderBook", "archive_order order not found"⟩] }
  | some entry =>
      -- Another order may hold the broker id by now, and then the entry of the map is not this
      -- order's.
      let brokerIdMap :=
        if entry.request.brokerOrderId ≠ 0 ∧
            b.brokerIdMap.lookup entry.request.brokerOrderId = some orderId then
          b.brokerIdMap.erase entry.request.brokerOrderId
        else b.brokerIdMap
      { book :=
          -- The links between parents and children stay.
          { b with
            table := b.table.erase orderId {}
            brokerIdMap := brokerIdMap
            securityOrders := b.unindexSecurity orderId entry.request
            managedParentIds := b.managedParentIds.erase orderId
            splitParentErrorLatched := b.splitParentErrorLatched.erase orderId
            activeCount := b.activeCount - 1 }
        ok := true
        notes := [(entry, .archived)] }

/-- `clear`. The id generator keeps its value. -/
def clear (b : OrderBook) : OrderBook := { empty with nextOrderId := b.nextOrderId }

end OrderBook

end AccountServices
