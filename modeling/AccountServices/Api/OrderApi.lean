import AccountServices.Core.EventLoop

/-!
# The order interface of the clients

`api/order_api.cpp`: a client fills in requests, keeps them until they are sent, and hands them over
in two steps: it writes the request to a slot of the pool and pushes the index of the slot to the
upstream queue. A call is a program whose steps are the accesses to the shared memory. The service
and the gateway run between any two of them, so the steps of a client act on a `Desk`, the service
together with the memory that it shares with its client.

A context is initialised and its handles are not null. A price arrives as the integer to which the
source rounds it, and the clock is an argument of the call.
-/

set_option autoImplicit false

namespace AccountServices

open Foundation

/-! ## Requests -/

/-- `acct_error_t`. -/
inductive AcctError where
  | ok | notInitialized | invalidParam | queueFull | shmFailed | orderNotFound | cacheFull
  | orderPoolFull | internal
  deriving DecidableEq, Repr

/-- The arguments of an order. The security code is null or a string, the options are null or the
number of an algorithm. -/
structure OrderArgs where
  securityId : Option Bytes
  side : UInt8
  market : UInt8
  volume : Volume
  price : DPrice
  execOptions : Option UInt8 := none

/-- The clocks that a call reads: `get_current_md_time` and `now_ns`. -/
structure ApiClock where
  mdTime : MdTime := 0
  nowNs : TimestampNs := 0

/-- `resolve_passive_execution_algo`. -/
def resolvePassiveExecutionAlgo : Option UInt8 → Option PassiveExecutionAlgo
  | none => some .default
  | some 0 => some .default
  | some 1 => some .none
  | some 2 => some .fixedSize
  | some 3 => some .twap
  | some 4 => some .vwap
  | some 5 => some .iceberg
  | some _ => none

/-- A side between `ACCT_SIDE_BUY` and `ACCT_SIDE_SELL`. -/
def sideOfNumber : UInt8 → Option TradeSide
  | 1 => some .buy
  | 2 => some .sell
  | _ => none

/-- A market between `ACCT_MARKET_SZ` and `ACCT_MARKET_HK`. -/
def marketOfNumber : UInt8 → Option Market
  | 1 => some .sz
  | 2 => some .sh
  | 3 => some .bj
  | 4 => some .hk
  | _ => none

/-- `OrderRequest::init_new` on a default request. -/
def OrderRequest.initNew (securityId : Bytes) (key : InternalSecurityId)
    (internalId : InternalOrderId) (side : TradeSide) (market : Market) (volume : Volume)
    (price : DPrice) (mdTimeDriven : MdTime) : OrderRequest :=
  { internalOrderId := internalId
    orderType := .new
    tradeSide := side
    market := market
    volumeEntrust := volume
    dpriceEntrust := price
    mdTimeDriven := mdTimeDriven
    passiveExecutionAlgo := .default
    securityId := FixedString.assign securityId
    internalSecurityId := key
    volumeRemain := volume }

/-- The request with the state in which it is sent. -/
def OrderRequest.submitted (request : OrderRequest) : OrderRequest :=
  { request with orderState := .userSubmitted }

/-- `build_new_order_request`, or the text of the error. -/
def buildNewOrderRequest (args : OrderArgs) (securityId : Bytes) (algo : PassiveExecutionAlgo)
    (mdTime : MdTime) (orderId : InternalOrderId) : Except String OrderRequest :=
  match sideOfNumber args.side with
  | none => .error "invalid side"
  | some side =>
      match marketOfNumber args.market with
      | none => .error "invalid market"
      | some market =>
          if args.volume = 0 then .error "zero volume"
          else
            match buildInternalSecurityId market securityId with
            | none => .error "invalid security_id length/market"
            | some key =>
                .ok { OrderRequest.initNew securityId key orderId side market args.volume
                  args.price mdTime with
                  passiveExecutionAlgo := algo }

/-! ## The desk -/

/-- The service, the queue from its client and the queue of responses. `drawn` lists the order ids
that the client took, `received` the requests that were given to `handle_order_request`, in order;
no function of the source reads them. -/
structure Desk where
  world : World
  upstream : SpscQueue OrderIndex 18
  responses : SpscQueue TradeResponse 18
  drawn : List InternalOrderId := []
  received : List OrderRequest := []

/-- The accesses of a client to the shared memory. -/
inductive ApiAccess where
  | nextOrderId | allocateSlot | writeSlot | push | setStage | queueSize
  deriving DecidableEq, Repr

/-- A call of the interface, or a part of one. -/
abbrev Client := Program ApiAccess Desk

namespace Client

/-- `next_order_id.fetch_add`. -/
def fetchOrderId : Client InternalOrderId :=
  .atomic .nextOrderId fun d =>
    match d.world.upstreamNextOrderId with
    | none => (0, d)
    | some next =>
        (next,
          { d with
            world := { d.world with upstreamNextOrderId := some (next + 1) }
            drawn := d.drawn ++ [next] })

/-- A mutation of the order pool. -/
def onPool {α : Type} (access : ApiAccess) (fail : α) (f : OrdersShm → α × OrdersShm) : Client α :=
  .atomic access fun d =>
    match d.world.ordersShm with
    | none => (fail, d)
    | some shm => ((f shm).1, { d with world := { d.world with ordersShm := some (f shm).2 } })

/-- `orders_shm_append`: the slot is allocated and then written. -/
def append (request : OrderRequest) (stage : OrderSlotState) (source : OrderSlotSource)
    (now : TimestampNs) : Client (Option OrderIndex) := do
  let allocated ← onPool .allocateSlot none fun shm => shm.tryAllocate
  match allocated with
  | none => pure none
  | some index =>
      let written ← onPool .writeSlot false fun shm => shm.writeOrder index request stage source now
      pure (if written then some index else none)

/-- `upstream_order_queue.try_push`. -/
def tryPush (index : OrderIndex) : Client Bool :=
  .atomic .push fun d =>
    ((d.upstream.tryPush index).1, { d with upstream := (d.upstream.tryPush index).2 })

/-- `upstream_order_queue.size`. -/
def queueSize : Client Nat := .read .queueSize fun d => d.upstream.size

end Client

/-! ## Calls -/

/-- `kMaxCachedOrders`. -/
def kMaxCachedOrders : Nat := 1024

/-- `acct_context`: the requests that were made and not sent yet, and the errors of the client. -/
structure AcctContext where
  cachedOrders : Map InternalOrderId OrderRequest
  errors : List ErrorStatus := []

/-- What a call returns: the code, and the value that it stores for the client. -/
structure ApiReply where
  code : AcctError
  value : Nat := 0
  deriving DecidableEq, Repr

namespace AcctContext

/-- `api_error`. -/
def apiError (ctx : AcctContext) (code : AcctError) (error : ErrorCode) (message : String) :
    ApiReply × AcctContext :=
  (⟨code, 0⟩, { ctx with errors := ctx.errors ++ [⟨.api, error, "order_api", message⟩] })

/-- `enqueue_order`, with the value of the call in case of success. -/
def enqueueOrder (ctx : AcctContext) (now : TimestampNs) (request : OrderRequest) (value : Nat) :
    Client (ApiReply × AcctContext) := do
  match ← Client.append request .upstreamQueued .user now with
  | none => pure (ctx.apiError .orderPoolFull .orderPoolFull "orders shm pool full")
  | some index =>
      let pushed ← Client.tryPush index
      if pushed then pure (⟨.ok, value⟩, ctx)
      else
        -- The slot is lost: nobody takes it from the pool again.
        let _ ← Client.onPool .setStage false fun shm => shm.updateStage index .queuePushFailed now
        let size ← Client.queueSize
        pure (ctx.apiError .queueFull .queuePushFailed
          ("enqueue upstream queue push failed: queue_size=" ++ toString size ++ "/" ++
            toString (2 ^ 18 - 1)))

/-- `acct_new_order_ex`: the order id is taken before the arguments are checked. -/
def newOrder (ctx : AcctContext) (clock : ApiClock) (args : OrderArgs) :
    Client (ApiReply × AcctContext) := do
  match args.securityId with
  | none =>
      pure (ctx.apiError .invalidParam .invalidParam "acct_new_order_ex invalid ctx/security_id")
  | some securityId =>
      if ctx.cachedOrders.entries.length ≥ kMaxCachedOrders then
        pure (ctx.apiError .cacheFull .queueFull "acct_new_order_ex cache full")
      else
        match resolvePassiveExecutionAlgo args.execOptions with
        | none =>
            pure (ctx.apiError .invalidParam .invalidParam
              "acct_new_order_ex invalid passive_exec_algo")
        | some algo =>
            let orderId ← Client.fetchOrderId
            match buildNewOrderRequest args securityId algo clock.mdTime orderId with
            | .error message => pure (ctx.apiError .invalidParam .invalidParam message)
            | .ok request =>
                pure (⟨.ok, orderId.toNat⟩,
                  { ctx with cachedOrders := ctx.cachedOrders.insert orderId request })

/-- `acct_send_order`: a request that could not be sent stays. -/
def sendOrder (ctx : AcctContext) (clock : ApiClock) (orderId : InternalOrderId) :
    Client (ApiReply × AcctContext) := do
  match ctx.cachedOrders.lookup orderId with
  | none => pure (ctx.apiError .orderNotFound .orderNotFound "acct_send_order order not cached")
  | some cached =>
      -- The state is set in the cached request itself, also when it is then not sent.
      let ctx := { ctx with cachedOrders := ctx.cachedOrders.insert orderId cached.submitted }
      let (reply, ctx) ← enqueueOrder ctx clock.nowNs cached.submitted 0
      pure (reply,
        if reply.code = .ok then { ctx with cachedOrders := ctx.cachedOrders.erase orderId }
        else ctx)

/-- `acct_submit_order_ex`. -/
def submitOrder (ctx : AcctContext) (clock : ApiClock) (args : OrderArgs) :
    Client (ApiReply × AcctContext) := do
  match args.securityId with
  | none =>
      pure (ctx.apiError .invalidParam .invalidParam "acct_submit_order_ex invalid ctx/security_id")
  | some securityId =>
      match resolvePassiveExecutionAlgo args.execOptions with
      | none =>
          pure (ctx.apiError .invalidParam .invalidParam
            "acct_submit_order_ex invalid passive_exec_algo")
      | some algo =>
          let orderId ← Client.fetchOrderId
          match buildNewOrderRequest args securityId algo clock.mdTime orderId with
          | .error message => pure (ctx.apiError .invalidParam .invalidParam message)
          | .ok request =>
              enqueueOrder ctx clock.nowNs request.submitted orderId.toNat

/-- `acct_cancel_order`. -/
def cancelOrder (ctx : AcctContext) (clock : ApiClock) (origOrderId : InternalOrderId) :
    Client (ApiReply × AcctContext) := do
  let cancelId ← Client.fetchOrderId
  enqueueOrder ctx clock.nowNs (OrderRequest.initCancel cancelId clock.mdTime origOrderId).submitted
    cancelId.toNat

/-- `acct_queue_size`. -/
def queueSize (ctx : AcctContext) : Client (ApiReply × AcctContext) := do
  let size ← Client.queueSize
  pure (⟨.ok, size⟩, ctx)

end AcctContext

/-- The calls of a client. -/
inductive ApiCall where
  | newOrder (clock : ApiClock) (args : OrderArgs)
  | sendOrder (clock : ApiClock) (orderId : InternalOrderId)
  | submitOrder (clock : ApiClock) (args : OrderArgs)
  | cancelOrder (clock : ApiClock) (origOrderId : InternalOrderId)
  | queueSize

def ApiCall.program (ctx : AcctContext) : ApiCall → Client (ApiReply × AcctContext)
  | .newOrder clock args => ctx.newOrder clock args
  | .sendOrder clock orderId => ctx.sendOrder clock orderId
  | .submitOrder clock args => ctx.submitOrder clock args
  | .cancelOrder clock origOrderId => ctx.cancelOrder clock origOrderId
  | .queueSize => ctx.queueSize

/-- A client makes calls one after the other. Its history pairs every call with the reply. -/
def clientSession (ctx : AcctContext) :
    List ApiCall → Client (List (ApiCall × ApiReply) × AcctContext)
  | [] => pure ([], ctx)
  | call :: calls => do
      let (reply, ctx) ← call.program ctx
      let (history, ctx) ← clientSession ctx calls
      pure ((call, reply) :: history, ctx)

end AccountServices
