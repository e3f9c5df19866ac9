import AccountServices.Common.SecurityIdentity

/-!
# Requests and events of the broker interface

`broker_api/broker_api.hpp` and the two mappers of the gateway, `order_mapper.cpp` and
`response_mapper.cpp`: a request of the order pool becomes a request to the broker adapter, and an
event of the adapter becomes a response to the account service. Both mappings can refuse their
input.
-/

set_option autoImplicit false

namespace AccountServices

/-! ## The records of the interface -/

/-- `broker_api::request_type`. -/
inductive RequestType where
  | unknown | new | cancel
  deriving DecidableEq, Repr

/-- `broker_api::side`. -/
inductive BrokerSide where
  | unknown | buy | sell
  deriving DecidableEq, Repr

/-- `broker_api::market`. -/
inductive BrokerMarket where
  | unknown | sz | sh | bj | hk
  deriving DecidableEq, Repr

/-- `broker_api::event_kind`. -/
inductive EventKind where
  | none | brokerAccepted | brokerRejected | marketRejected | trade | finished
  deriving DecidableEq, Repr

/-- `broker_order_request`. -/
structure BrokerOrderRequest where
  internalOrderId : UInt32 := 0
  origInternalOrderId : UInt32 := 0
  internalSecurityId : FixedString 16 := FixedString.clear
  type : RequestType := .unknown
  tradeSide : BrokerSide := .unknown
  orderMarket : BrokerMarket := .unknown
  volume : UInt64 := 0
  price : UInt64 := 0
  mdTime : UInt32 := 0
  securityId : FixedString 16 := FixedString.clear
  deriving DecidableEq

/-- `send_result`. -/
structure SendResult where
  accepted : Bool := false
  retryable : Bool := false
  errorCode : Int32 := 0
  deriving DecidableEq

/-- `broker_event`. An adapter may fill all sixteen bytes of the key, so it can be one byte longer
than a terminated one. -/
structure BrokerEvent where
  kind : EventKind := .none
  internalOrderId : UInt32 := 0
  brokerOrderId : UInt32 := 0
  internalSecurityId : FixedString 17 := FixedString.clear
  tradeSide : BrokerSide := .unknown
  volumeTraded : UInt64 := 0
  cancelledVolume : UInt64 := 0
  priceTraded : UInt64 := 0
  valueTraded : UInt64 := 0
  fee : UInt64 := 0
  mdTimeTraded : UInt32 := 0
  recvTimeNs : UInt64 := 0
  deriving DecidableEq

/-! ## Requests -/

/-- `to_broker_request_type`. -/
def toBrokerRequestType : OrderType → RequestType
  | .new => .new
  | .cancel => .cancel
  | _ => .unknown

/-- `to_broker_market`. -/
def toBrokerMarket : Market → BrokerMarket
  | .sz => .sz
  | .sh => .sh
  | .bj => .bj
  | .hk => .hk
  | _ => .unknown

/-- `to_broker_side`. -/
def toBrokerSide : TradeSide → BrokerSide
  | .buy => .buy
  | .sell => .sell
  | _ => .unknown

/-- `to_order_side`. -/
def toOrderSide : BrokerSide → TradeSide
  | .buy => .buy
  | .sell => .sell
  | _ => .notSet

/-- `copy_security_id`. -/
def copySecurityId (source : SecurityId) : FixedString 16 := FixedString.assign source.view

/-- `copy_internal_security_id`: a key that does not parse is copied as it is. -/
def copyInternalSecurityId (source : InternalSecurityId) : FixedString 16 :=
  FixedString.assign ((normalizeInternalSecurityId source.view).getD source).view

/-- `map_order_request_to_broker`. A cancel is mapped without a look at its trading fields. -/
def mapOrderRequestToBroker (request : OrderRequest) : Option BrokerOrderRequest :=
  if request.internalOrderId = 0 then none
  else
    let mappedType := toBrokerRequestType request.orderType
    -- Only new orders and cancels go to the broker.
    if mappedType = .unknown then none
    else
      let out : BrokerOrderRequest :=
        { internalOrderId := request.internalOrderId
          origInternalOrderId := request.origInternalOrderId
          internalSecurityId := copyInternalSecurityId request.internalSecurityId
          type := mappedType
          tradeSide := toBrokerSide request.tradeSide
          orderMarket := toBrokerMarket request.market
          volume := request.volumeEntrust
          price := request.dpriceEntrust
          mdTime :=
            if request.mdTimeEntrust ≠ 0 then request.mdTimeEntrust else request.mdTimeDriven }
      if mappedType = .new then
        if out.tradeSide = .unknown ∨ out.orderMarket = .unknown ∨
          out.volume = 0 ∨ out.price = 0 then
          none
        else
          let out := { out with securityId := copySecurityId request.securityId }
          if out.securityId.isEmpty then none else some out
      else some out

/-- What the mapping keeps of the request: its own id, which is not zero, its type and the id of the
order that it refers to. -/
theorem mapOrderRequestToBroker_ids {request : OrderRequest} {mapped : BrokerOrderRequest}
    (h : mapOrderRequestToBroker request = some mapped) :
    request.internalOrderId ≠ 0 ∧ mapped.internalOrderId = request.internalOrderId ∧
      mapped.origInternalOrderId = request.origInternalOrderId ∧
      mapped.type = toBrokerRequestType request.orderType := by
  simp only [mapOrderRequestToBroker] at h
  split at h
  case isTrue => cases h
  case isFalse hid =>
    refine ⟨hid, ?_⟩
    split at h
    case isTrue => cases h
    case isFalse =>
      split at h
      case isTrue =>
        split at h
        case isTrue => cases h
        case isFalse =>
          split at h
          case isTrue => cases h
          case isFalse =>
            cases h
            exact ⟨rfl, rfl, rfl⟩
      case isFalse =>
        cases h
        exact ⟨rfl, rfl, rfl⟩

/-! ## Events -/

/-- `map_event_kind_to_state`. -/
def mapEventKindToState : EventKind → OrderState
  | .brokerAccepted => .brokerAccepted
  | .brokerRejected => .brokerRejected
  | .marketRejected => .marketRejected
  | .trade => .marketAccepted
  | .finished => .finished
  | .none => .unknown

/-- `map_broker_event_to_trade_response`. The clock is read when the broker sent no time. -/
def mapBrokerEventToTradeResponse (event : BrokerEvent) (now : TimestampNs) :
    Option TradeResponse :=
  if event.internalOrderId = 0 then none
  else
    let mappedState := mapEventKindToState event.kind
    -- An event of no kind changes no order.
    if mappedState = .unknown then none
    else
      let rawSecurityId := event.internalSecurityId.view
      let key :=
        if rawSecurityId.isEmpty then some FixedString.clear
        else normalizeInternalSecurityId rawSecurityId
      key.map fun internalSecurityId =>
        { internalOrderId := event.internalOrderId
          brokerOrderId := event.brokerOrderId
          internalSecurityId := internalSecurityId
          tradeSide := toOrderSide event.tradeSide
          newState := mappedState
          volumeTraded := event.volumeTraded
          cancelledVolume := event.cancelledVolume
          dpriceTraded := event.priceTraded
          dvalueTraded := event.valueTraded
          dfee := event.fee
          mdTimeTraded := event.mdTimeTraded
          recvTimeNs := if event.recvTimeNs ≠ 0 then event.recvTimeNs else now }

end AccountServices
