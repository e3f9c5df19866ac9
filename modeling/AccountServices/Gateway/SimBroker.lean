import AccountServices.Gateway.Loop

/-!
# The simulated broker

`sim_broker_adapter.cpp`: the adapter that answers every request itself. A new order is accepted
and, when the adapter fills orders, traded and finished at once; a cancel is accepted and finishes
the order it names, or itself when that order is not active. The events wait in a queue until they
are polled.
-/

set_option autoImplicit false

namespace AccountServices

open Foundation

/-! ## The adapter -/

/-- `active_order_state`. -/
structure ActiveOrderState where
  brokerOrderId : UInt32 := 0
  tradeSide : BrokerSide := .unknown
  entrustVolume : UInt64 := 0
  tradedVolume : UInt64 := 0
  price : UInt64 := 0
  mdTime : UInt32 := 0
  finalized : Bool := false
  deriving DecidableEq

/-- `sim_broker_adapter`, with the one field of its configuration that it reads. -/
structure SimBrokerAdapter where
  autoFill : Bool := true
  initialized : Bool := false
  nextBrokerOrderId : UInt32 := 1
  activeOrders : Map UInt32 ActiveOrderState := ∅
  pendingEvents : List BrokerEvent := []

/-- The key of a request in the wider field of an event. -/
def FixedString.widen (s : FixedString 16) : FixedString 17 :=
  ⟨s.view, Nat.lt_succ_of_lt s.short, s.clean⟩

/-- `send_result::fatal_error`. -/
def SendResult.fatalError (code : Int32) : SendResult := ⟨false, false, code⟩

/-- `send_result::ok`. -/
def SendResult.okResult : SendResult := ⟨true, false, 0⟩

namespace SimBrokerAdapter

/-- `make_base_event`. -/
def makeBaseEvent (kind : EventKind) (request : BrokerOrderRequest) (brokerOrderId : UInt32)
    (now : TimestampNs) : BrokerEvent where
  kind := kind
  internalOrderId := request.internalOrderId
  brokerOrderId := brokerOrderId
  internalSecurityId := request.internalSecurityId.widen
  tradeSide := request.tradeSide
  mdTimeTraded := request.mdTime
  recvTimeNs := now

/-- `make_natural_finish_event`. -/
def makeNaturalFinishEvent (request : BrokerOrderRequest) (brokerOrderId : UInt32)
    (now : TimestampNs) : BrokerEvent :=
  { makeBaseEvent .finished request brokerOrderId now with cancelledVolume := 0 }

/-- `make_cancel_finish_event`. -/
def makeCancelFinishEvent (request : BrokerOrderRequest) (activeOrder : ActiveOrderState)
    (now : TimestampNs) : BrokerEvent :=
  let originalRequest : BrokerOrderRequest :=
    { internalOrderId := request.origInternalOrderId
      origInternalOrderId := request.origInternalOrderId
      internalSecurityId := request.internalSecurityId
      type := .cancel
      tradeSide := activeOrder.tradeSide
      orderMarket := request.orderMarket
      volume := activeOrder.entrustVolume
      price := activeOrder.price
      mdTime := request.mdTime }
  { makeBaseEvent .finished originalRequest activeOrder.brokerOrderId now with
    cancelledVolume :=
      if activeOrder.tradedVolume ≥ activeOrder.entrustVolume then 0
      else activeOrder.entrustVolume - activeOrder.tradedVolume }

/-- `calc_trade_value`. -/
def calcTradeValue (volume price : UInt64) : UInt64 :=
  if volume = 0 ∨ price = 0 then 0 else volume * price

/-- `calc_fee`. -/
def calcFee (tradedValue : UInt64) : UInt64 :=
  if tradedValue = 0 then 0 else max 1 (tradedValue / 10000)

/-- `sim_broker_adapter::initialize`. -/
def initializeAdapter (autoFill : Bool) : SimBrokerAdapter where
  autoFill := autoFill
  initialized := true

/-- The trade event of an order that is filled at once. -/
def makeTradeEvent (request : BrokerOrderRequest) (brokerOrderId : UInt32) (now : TimestampNs) :
    BrokerEvent :=
  let valueTraded := calcTradeValue request.volume request.price
  { makeBaseEvent .trade request brokerOrderId now with
    volumeTraded := request.volume
    priceTraded := request.price
    valueTraded := valueTraded
    fee := calcFee valueTraded }

/-- The branch of `submit` for a new order. -/
def submitNew (a : SimBrokerAdapter) (request : BrokerOrderRequest) (now : TimestampNs) :
    SendResult × SimBrokerAdapter :=
  if request.tradeSide = .unknown ∨ request.orderMarket = .unknown ∨
      request.volume = 0 ∨ request.price = 0 ∨ request.securityId.view = [] then
    (.fatalError (-102), a)
  else
    let brokerOrderId := a.nextBrokerOrderId
    let activeOrder : ActiveOrderState :=
      { brokerOrderId := brokerOrderId
        tradeSide := request.tradeSide
        entrustVolume := request.volume
        tradedVolume := 0
        price := request.price
        mdTime := request.mdTime }
    let a := { a with
      nextBrokerOrderId := a.nextBrokerOrderId + 1
      activeOrders := a.activeOrders.insert request.internalOrderId activeOrder
      pendingEvents :=
        a.pendingEvents ++ [makeBaseEvent .brokerAccepted request brokerOrderId now] }
    if a.autoFill then
      (.okResult, { a with
        pendingEvents := a.pendingEvents ++ [makeTradeEvent request brokerOrderId now] ++
          [makeNaturalFinishEvent request brokerOrderId now]
        activeOrders :=
          (a.activeOrders.insert request.internalOrderId
            { activeOrder with tradedVolume := request.volume }).erase request.internalOrderId })
    else (.okResult, a)

/-- The branch of `submit` for a cancel. -/
def submitCancel (a : SimBrokerAdapter) (request : BrokerOrderRequest) (now : TimestampNs) :
    SendResult × SimBrokerAdapter :=
  if request.origInternalOrderId = 0 then (.fatalError (-103), a)
  else
    let brokerOrderId := a.nextBrokerOrderId
    -- The cancel has a broker id of its own.
    let a := { a with
      nextBrokerOrderId := a.nextBrokerOrderId + 1
      pendingEvents :=
        a.pendingEvents ++ [makeBaseEvent .brokerAccepted request brokerOrderId now] }
    match a.activeOrders.lookup request.origInternalOrderId with
    | some activeOrder =>
        (.okResult, { a with
          pendingEvents := a.pendingEvents ++ [makeCancelFinishEvent request activeOrder now]
          activeOrders := a.activeOrders.erase request.origInternalOrderId })
    -- The order is unknown or already finished, so the cancel is the one that finishes.
    | none =>
        (.okResult, { a with
          pendingEvents := a.pendingEvents ++
            [{ makeBaseEvent .finished request brokerOrderId now with cancelledVolume := 0 }] })

/-- `sim_broker_adapter::submit`. -/
def submit (a : SimBrokerAdapter) (request : BrokerOrderRequest) (now : TimestampNs) :
    SendResult × SimBrokerAdapter :=
  if ¬ a.initialized then (.fatalError (-100), a)
  else if request.internalOrderId = 0 then (.fatalError (-101), a)
  else
    match request.type with
    | .new => a.submitNew request now
    | .cancel => a.submitCancel request now
    | .unknown => (.fatalError (-104), a)

/-- `sim_broker_adapter::poll_events` with a buffer for `maxEvents` events. -/
def pollEvents (a : SimBrokerAdapter) (maxEvents : Nat) : List BrokerEvent × SimBrokerAdapter :=
  if ¬ a.initialized ∨ maxEvents = 0 then ([], a)
  else
    let count := min maxEvents a.pendingEvents.length
    (a.pendingEvents.take count, { a with pendingEvents := a.pendingEvents.drop count })

/-- The adapter behind the interface that the gateway loop works on, at one time of the clock. -/
def adapter (now : TimestampNs) : BrokerAdapter SimBrokerAdapter where
  submit a request := a.submit request now
  pollEvents := pollEvents
  length_pollEvents_le a n := by
    rw [pollEvents]
    split
    · exact Nat.zero_le n
    · rw [List.length_take]
      omega

end SimBrokerAdapter

end AccountServices
