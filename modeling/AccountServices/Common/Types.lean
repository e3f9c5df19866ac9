import Mathlib.Algebra.Ring.Nat
import Mathlib.Data.List.TakeWhile
import AccountServices.Foundation.SlotTable

/-!
# Shared types of the account service

The identifiers, enumerations and fixed-width strings of `common/types.hpp`,
`common/fixed_string.hpp` and `common/error.hpp`, and the request and response records of
`order/order_request.hpp` and `shm/shm_layout.hpp`. Volumes, prices and values are the unsigned
64-bit numbers of the source, order ids and slot indices its unsigned 32-bit numbers, so every
overflow of the code is an overflow here.

A `FixedString n` is what the zero-terminated array of `n` bytes denotes: the bytes before the
terminator. The bytes behind it are not visible to any comparison or view of the source.
-/

set_option autoImplicit false

namespace AccountServices

open Foundation

abbrev InternalOrderId := UInt32
abbrev Volume := UInt64
abbrev DPrice := UInt64
abbrev DValue := UInt64
abbrev MdTime := UInt32
abbrev StrategyId := UInt16
abbrev TimestampNs := UInt64
abbrev OrderIndex := UInt32

/-- The bytes of a string. -/
abbrev Bytes := List UInt8

/-- `kInvalidOrderIndex`: the largest 32-bit index. -/
def kInvalidOrderIndex : OrderIndex := 0xFFFFFFFF

/-- `kMaxActiveOrders`, also the capacity of the daily order pool. -/
def kMaxActiveOrders : Nat := 1048576

/-- `kMaxPositions`. -/
def kMaxPositions : Nat := 8192

/-! ## Fixed strings -/

/-- A zero-terminated string stored in `n` bytes. -/
structure FixedString (n : Nat) where
  view : Bytes
  short : view.length < n
  clean : (0 : UInt8) ∉ view

namespace FixedString

variable {n : Nat}

theorem ext_view {a b : FixedString n} (h : a.view = b.view) : a = b := by
  cases a
  cases b
  cases h
  rfl

instance : DecidableEq (FixedString n) := fun a b =>
  decidable_of_iff (a.view = b.view) ⟨ext_view, fun h => h ▸ rfl⟩

/-- `FixedString::assign`: at most `n - 1` bytes are copied, and the first zero byte ends what is
seen of them. -/
def assign [NeZero n] (sv : Bytes) : FixedString n where
  view := (sv.take (n - 1)).takeWhile (· ≠ 0)
  short := by
    have h₁ := (List.takeWhile_sublist (l := sv.take (n - 1)) fun b => decide (b ≠ 0)).length_le
    have h₂ := List.length_take_le (n - 1) sv
    have h₃ := NeZero.ne n
    omega
  clean := by
    intro h
    have := List.mem_takeWhile_imp h
    simp at this

/-- The empty string. -/
def clear [NeZero n] : FixedString n := assign []

def isEmpty (s : FixedString n) : Bool := s.view.isEmpty

end FixedString

/-- The fields of the records have sixteen bytes, those of the broker seventeen. -/
instance neZero_sixteen : NeZero (16 : Nat) := ⟨by decide⟩

instance neZero_seventeen : NeZero (17 : Nat) := ⟨by decide⟩

/-- `SecurityId`: the exchange code of a security. -/
abbrev SecurityId := FixedString 16

/-- `InternalSecurityId`: the key under which the service knows a security. -/
abbrev InternalSecurityId := FixedString 16

/-! ## Enumerations -/

inductive OrderType where
  | notSet | new | cancel | unknown
  deriving DecidableEq, Repr

inductive TradeSide where
  | notSet | buy | sell
  deriving DecidableEq, Repr

inductive Market where
  | notSet | sz | sh | bj | hk | unknown
  deriving DecidableEq, Repr

inductive OrderState where
  | notSet
  | userSubmitted
  | riskControllerPending
  | riskControllerRejected
  | riskControllerAccepted
  | traderPending
  | traderRejected
  | traderSubmitted
  | traderError
  | brokerRejected
  | brokerAccepted
  | marketRejected
  | marketAccepted
  | finished
  | unknown
  deriving DecidableEq, Repr

inductive ExecutionState where
  | none | running | cancelling | finished | failed
  deriving DecidableEq, Repr

inductive SplitStrategy where
  | none | fixedSize | twap | vwap | iceberg
  deriving DecidableEq, Repr

inductive PassiveExecutionAlgo where
  | default | none | fixedSize | twap | vwap | iceberg
  deriving DecidableEq, Repr

inductive RiskResult where
  | pass
  | rejectInsufficientFund
  | rejectInsufficientPosition
  | rejectExceedMaxOrderValue
  | rejectExceedMaxOrderVolume
  | rejectExceedDailyLimit
  | rejectPriceOutOfRange
  | rejectSecurityNotAllowed
  | rejectAccountFrozen
  | rejectDuplicateOrder
  | rejectUnknown
  deriving DecidableEq, Repr

inductive OrderSlotState where
  | empty
  | reserved
  | upstreamQueued
  | upstreamDequeued
  | riskRejected
  | downstreamQueued
  | downstreamDequeued
  | terminal
  | queuePushFailed
  deriving DecidableEq, Repr

inductive OrderSlotSource where
  | unknown | user | accountInternal
  deriving DecidableEq, Repr

/-- `is_terminal_state` of the event loop and of the order book, and `is_terminal_order_state` of
the order pool: three copies of one function. -/
def OrderState.isTerminal : OrderState → Bool
  | .riskControllerRejected | .traderRejected | .traderError | .brokerRejected
  | .marketRejected | .finished | .unknown => true
  | _ => false

/-- `status_progress_rank`. -/
def OrderState.progressRank : OrderState → Int
  | .marketAccepted => 7
  | .brokerAccepted => 6
  | .traderSubmitted => 5
  | .traderPending => 4
  | .riskControllerAccepted => 3
  | .riskControllerPending => 2
  | .userSubmitted => 1
  | _ => 0

/-! ## Errors -/

inductive ErrorDomain where
  | none | config | shm | core | order | risk | portfolio | api
  deriving DecidableEq, Repr

/-- `ErrorCode`, without the code of success. -/
inductive ErrorCode where
  | invalidParam
  | invalidState
  | componentUnavailable
  | healthCheckFailed
  | internalError
  | invalidConfig
  | configParseFailed
  | configValidateFailed
  | shmOpenFailed
  | shmFstatFailed
  | shmResizeFailed
  | shmMmapFailed
  | shmHeaderInvalid
  | shmHeaderCorrupted
  | invalidOrderId
  | duplicateOrder
  | orderBookFull
  | orderNotFound
  | queueFull
  | queuePushFailed
  | queuePopFailed
  | routeFailed
  | splitFailed
  | orderInvariantBroken
  | orderPoolFull
  | positionUpdateFailed
  | loggerInitFailed
  | loggerThreadFailed
  | loggerQueueFull
  deriving DecidableEq, Repr

/-- What `ACCT_MAKE_ERROR` is given: domain, code, module and message. -/
structure ErrorStatus where
  domain : ErrorDomain
  code : ErrorCode
  module : String
  message : String
  deriving DecidableEq, Repr

/-- The numbers of the error codes. -/
def ErrorCode.number : ErrorCode → Nat
  | .invalidParam => 1000
  | .invalidState => 1001
  | .componentUnavailable => 1002
  | .healthCheckFailed => 1003
  | .internalError => 1099
  | .invalidConfig => 2000
  | .configParseFailed => 2001
  | .configValidateFailed => 2002
  | .shmOpenFailed => 3000
  | .shmFstatFailed => 3001
  | .shmResizeFailed => 3002
  | .shmMmapFailed => 3003
  | .shmHeaderInvalid => 3004
  | .shmHeaderCorrupted => 3005
  | .invalidOrderId => 4000
  | .duplicateOrder => 4001
  | .orderBookFull => 4002
  | .orderNotFound => 4003
  | .queueFull => 4004
  | .queuePushFailed => 4005
  | .queuePopFailed => 4006
  | .routeFailed => 4007
  | .splitFailed => 4008
  | .orderInvariantBroken => 4009
  | .orderPoolFull => 4010
  | .positionUpdateFailed => 6000
  | .loggerInitFailed => 7000
  | .loggerThreadFailed => 7001
  | .loggerQueueFull => 7002

/-- `code_in_range`. -/
def ErrorCode.inRange (code : ErrorCode) (first last : Nat) : Bool :=
  decide (first ≤ code.number ∧ code.number ≤ last)

/-- `ErrorSeverity`. -/
inductive ErrorSeverity where
  | recoverable | critical | fatal
  deriving DecidableEq, Repr

/-- `classify_by_code`. -/
def classifyByCode : ErrorCode → ErrorSeverity
  | .invalidOrderId | .duplicateOrder | .invalidParam | .orderBookFull | .orderNotFound | .queueFull
  | .queuePushFailed | .queuePopFailed | .routeFailed | .splitFailed | .orderPoolFull
  | .healthCheckFailed
  | .loggerQueueFull => .recoverable
  | .invalidConfig | .configParseFailed | .configValidateFailed | .invalidState
  | .componentUnavailable
  | .shmOpenFailed | .shmFstatFailed | .shmResizeFailed | .shmMmapFailed | .shmHeaderInvalid
  | .loggerInitFailed | .loggerThreadFailed => .critical
  | .positionUpdateFailed | .orderInvariantBroken | .shmHeaderCorrupted | .internalError => .fatal

/-- `classify`, the severity of its answer. -/
def classify (domain : ErrorDomain) (code : ErrorCode) : ErrorSeverity :=
  match domain with
  | .config => if code.inRange 2000 2099 then .critical else classifyByCode code
  | .shm =>
      if code = .shmHeaderCorrupted then .fatal
      else if code.inRange 3000 3099 then .critical
      else classifyByCode code
  | .order =>
      if code = .orderInvariantBroken then .fatal
      else if code.inRange 4000 4099 then .recoverable
      else classifyByCode code
  | .portfolio =>
      if code = .positionUpdateFailed ∨ code = .shmHeaderCorrupted then .fatal
      else if code = .componentUnavailable ∨ code = .shmHeaderInvalid then .critical
      else classifyByCode code
  | .none | .core | .risk | .api => classifyByCode code

/-- Whether an error is fatal. -/
def ErrorStatus.isFatal (error : ErrorStatus) :
    Bool := decide (classify error.domain error.code = .fatal)

/-! ## Requests, entries and responses -/

/-- `OrderRequest`, without its padding. -/
structure OrderRequest where
  internalOrderId : InternalOrderId := 0
  passiveExecutionAlgo : PassiveExecutionAlgo := .default
  orderType : OrderType := .notSet
  tradeSide : TradeSide := .notSet
  market : Market := .notSet
  volumeEntrust : Volume := 0
  dpriceEntrust : DPrice := 0
  origInternalOrderId : InternalOrderId := 0
  internalSecurityId : InternalSecurityId := FixedString.clear
  securityId : SecurityId := FixedString.clear
  activeStrategyClaimed : Bool := false
  brokerOrderId : UInt64 := 0
  volumeTraded : Volume := 0
  volumeRemain : Volume := 0
  dvalueTraded : DValue := 0
  dpriceTraded : DPrice := 0
  dfeeEstimate : DValue := 0
  dfeeExecuted : DValue := 0
  mdTimeDriven : MdTime := 0
  mdTimeEntrust : MdTime := 0
  mdTimeCancelSent : MdTime := 0
  mdTimeCancelDone : MdTime := 0
  mdTimeBrokerResponse : MdTime := 0
  mdTimeMarketResponse : MdTime := 0
  mdTimeTradedFirst : MdTime := 0
  mdTimeTradedLatest : MdTime := 0
  orderState : OrderState := .notSet
  executionAlgo : PassiveExecutionAlgo := .none
  executionState : ExecutionState := .none
  targetVolume : Volume := 0
  workingVolume : Volume := 0
  schedulableVolume : Volume := 0
  deriving DecidableEq

namespace OrderRequest

/-- `OrderRequest::init_cancel` on a default request, which is how the router uses it. -/
def initCancel (internalId : InternalOrderId) (mdTimeDriven : MdTime)
    (origInternalId : InternalOrderId) : OrderRequest :=
  { internalOrderId := internalId
    orderType := .cancel
    mdTimeDriven := mdTimeDriven
    passiveExecutionAlgo := .none
    origInternalOrderId := origInternalId }

end OrderRequest

/-- `OrderEntry`. -/
structure OrderEntry where
  request : OrderRequest := {}
  submitTimeNs : TimestampNs := 0
  lastUpdateNs : TimestampNs := 0
  strategyId : StrategyId := 0
  riskResult : RiskResult := .pass
  retryCount : UInt8 := 0
  isSplitChild : Bool := false
  parentOrderId : InternalOrderId := 0
  shmOrderIndex : OrderIndex := kInvalidOrderIndex
  fundFrozen : DValue := 0
  deriving DecidableEq

/-- `OrderEntry::is_terminal`. -/
def OrderEntry.isTerminal (e : OrderEntry) : Bool := e.request.orderState.isTerminal

/-- `TradeResponse`, without its padding. -/
structure TradeResponse where
  internalOrderId : InternalOrderId := 0
  brokerOrderId : UInt32 := 0
  internalSecurityId : InternalSecurityId := FixedString.clear
  tradeSide : TradeSide := .notSet
  newState : OrderState := .notSet
  volumeTraded : Volume := 0
  cancelledVolume : Volume := 0
  dpriceTraded : DPrice := 0
  dvalueTraded : DValue := 0
  dfee : DValue := 0
  mdTimeTraded : MdTime := 0
  recvTimeNs : TimestampNs := 0
  deriving DecidableEq

end AccountServices
