import AccountServices.Order.Recovery
import AccountServices.Execution.Engine

/-!
# The event loop

`core/event_loop.cpp`: the handlers of order requests and trade responses, the archive of terminal
orders, and the reservation, settlement and release of the funds of buy orders. A pointer into the
book that the source keeps over several statements is looked up again by its order id; no statement
in between moves the entry.
-/

set_option autoImplicit false

namespace AccountServices

open Foundation

/-- `try_calculate_trade_value`: the product is formed in 128 bits. -/
def tryCalculateTradeValue (volume : Volume) (price : DPrice) : Option DValue :=
  if volume.toNat * price.toNat > 0xFFFFFFFFFFFFFFFF then none
  else some (UInt64.ofNat (volume.toNat * price.toNat))

/-- `try_total_with_fee`. -/
def tryTotalWithFee (amount fee : DValue) : Option DValue :=
  if amount.toNat + fee.toNat > 0xFFFFFFFFFFFFFFFF then none
  else some (UInt64.ofNat (amount.toNat + fee.toNat))

/-- `prepare_order_estimate`. -/
def prepareOrderEstimate (cfg : Config) (request : OrderRequest) : OrderRequest :=
  if request.orderType ≠ .new ∨ request.dfeeEstimate ≠ 0 then request
  else
    match tryCalculateTradeValue request.volumeEntrust request.dpriceEntrust with
    | none => request
    | some value =>
        if value = 0 then request
        else { request with dfeeEstimate := cfg.calculateFee request.tradeSide value }

/-- The amount that `reserve_order_resources` freezes. -/
def reservationTotal (request : OrderRequest) : Option DValue :=
  match tryCalculateTradeValue request.volumeEntrust request.dpriceEntrust with
  | none => none
  | some value => tryTotalWithFee value request.dfeeEstimate

/-- Whether an order holds a reservation: new buy orders do. -/
def OrderRequest.reserves (request : OrderRequest) : Bool :=
  decide (request.orderType = .new ∧ request.tradeSide = .buy)

/-- Whether the key of a request has to be built from its market and code. -/
def OrderRequest.lacksKey (request : OrderRequest) : Bool :=
  decide (request.orderType = .new) && request.internalSecurityId.isEmpty &&
    !request.securityId.isEmpty

/-- What is left of a reservation after a fill: a fill above the reservation leaves nothing. -/
def OrderEntry.spend (e : OrderEntry) (total : DValue) : OrderEntry :=
  { e with fundFrozen := if e.fundFrozen ≥ total then e.fundFrozen - total else 0 }

namespace Service

/-! ## Reservations -/

/-- `reserve_order_resources`. -/
def reserveOrderResources (entry : OrderEntry) : Service Bool := do
  if ¬ entry.request.reserves then pure true
  else
    match reservationTotal entry.request with
    | none => pure false
    | some total =>
        let frozen ← onFund fun f => f.freezeFund total
        -- The frozen amount is kept with the order: what is spent or released later comes out of
        -- it.
        if frozen then
          modifyOrder entry.request.internalOrderId fun e => { e with fundFrozen := total }
          pure true
        else pure false

/-- `release_order_resources` on the order in the book. -/
def releaseOrderResources (orderId : InternalOrderId) : Service Unit := do
  match ← findOrder orderId with
  | none => pure ()
  | some entry =>
      if ¬ entry.request.reserves ∨ entry.fundFrozen = 0 then pure ()
      else
        let released ← onFund fun f => f.unfreezeFund entry.fundFrozen
        -- A release that the fund row refuses leaves the amount with the order.
        if released then modifyOrder orderId fun e => { e with fundFrozen := 0 }
        else pure ()

/-- `settle_buy_trade_fund`: an order without a reservation is paid from the available cash. -/
def settleBuyTradeFund (orderId : InternalOrderId) (amount fee : DValue) : Service Bool := do
  match ← findOrder orderId with
  | none => pure false
  | some entry =>
      if entry.fundFrozen = 0 then onFund fun f => f.applyBuyTradeFund amount fee
      else
        match tryTotalWithFee amount fee with
        | none => pure false
        | some total =>
            let deducted ← onFund fun f => f.deductFund amount fee
            if deducted then
              modifyOrder orderId fun e => e.spend total
              pure true
            else pure false

/-! ## Order requests -/

/-- The id of a request without one, which is also written to its slot. -/
def assignOrderId (env : Env) (index : OrderIndex) (request : OrderRequest) :
    Service OrderRequest := do
  if request.internalOrderId = 0 then
    let orderId ← allocateInternalOrderId
    let request := { request with internalOrderId := orderId }
    let _ ← syncOrder index request env.nowNs
    pure request
  else pure request

/-- The risk check of a new order, with its result stored in the entry; other orders pass. -/
def passesRisk (env : Env) (request : OrderRequest) : Service Bool := do
  if request.orderType = .new then
    let result ← Program.atomic .internal fun w =>
      ((w.risk.checkOrder request w.positions env.monotonicNs).1,
        { w with risk := (w.risk.checkOrder request w.positions env.monotonicNs).2 })
    modifyOrder request.internalOrderId fun e => { e with riskResult := result.code }
    pure result.passed
  else pure true

/-- The error text for a session that was not started. -/
def startErrorText : SessionStartResult → String
  | .unsupported => "unsupported passive execution algo"
  | .marketDataUnavailable => "managed execution requires ready market data"
  | .unsplittable => "order is not splittable under current split config"
  | _ => "failed to start execution session"

/-- Whether a session that was not started counts as a rejection of the order. -/
def startRejected : SessionStartResult → Bool
  | .unsupported | .marketDataUnavailable | .unsplittable => true
  | _ => false

/-- The branch of `handle_order_request` for orders that the execution engine manages. -/
def manageOrder (cfg : Config) (env : Env) (index : OrderIndex) (orderId : InternalOrderId) :
    Service Unit := do
  modifyOrder orderId fun e =>
    { e with request := { e.request with activeStrategyClaimed := cfg.hasActiveStrategy } }
  let _ ← updateState env.nowNs orderId .traderPending
  -- The engine gets the entry as `update_state` left it.
  match ← findOrder orderId with
  | none => pure ()
  | some active =>
      let result ← startSession cfg env index active.request active.strategyId active.submitTimeNs
      if result = .started then pure ()
      else
        let rejected := startRejected result
        let _ ← updateState env.nowNs orderId (if rejected then .traderRejected else .traderError)
        updateStage index .queuePushFailed env.nowNs
        recordError ⟨.order, if rejected then .invalidParam else .splitFailed, "EventLoop",
          startErrorText result⟩

/-- The branch of `handle_order_request` for all other orders: reserve and route. -/
def routeNewOrder (env : Env) (index : OrderIndex) (active : OrderEntry) : Service Unit := do
  let orderId := active.request.internalOrderId
  let reserved ← reserveOrderResources active
  if reserved then
    let routed ← routeOrder env.nowNs active
    if routed then pure ()
    else
      -- The router may have set the state and the stage already.
      releaseOrderResources orderId
      let _ ← updateState env.nowNs orderId .traderError
      updateStage index .queuePushFailed env.nowNs
      recordError ⟨.order, .routeFailed, "EventLoop", "route_order failed"⟩
  else
    let _ ← updateState env.nowNs orderId .riskControllerRejected
    updateStage index .riskRejected env.nowNs

/-- What follows the risk check. -/
def dispatchOrder (cfg : Config) (env : Env) (index : OrderIndex) (orderId : InternalOrderId) :
    Service Unit := do
  match ← findOrder orderId with
  | none => pure ()
  | some active =>
      if cfg.hasExecutionEngine ∧ shouldManage cfg active.request then
        manageOrder cfg env index orderId
      else routeNewOrder env index active

/-- The entry that `handle_order_request` adds to the book. -/
def requestEntry (env : Env) (index : OrderIndex) (request : OrderRequest) : OrderEntry :=
  { request := request, submitTimeNs := env.nowNs, lastUpdateNs := env.nowNs,
    shmOrderIndex := index }

/-- `handle_order_request` behind the security key. -/
def admitOrder (cfg : Config) (env : Env) (index : OrderIndex) (request : OrderRequest) :
    Service Unit := do
  let request ← assignOrderId env index request
  let request := prepareOrderEstimate cfg request
  let orderId := request.internalOrderId
  let added ← addOrder env.nowNs (requestEntry env index request)
  if added then
    let _ ← updateState env.nowNs orderId .riskControllerPending
    let passed ← passesRisk env request
    if passed then
      let _ ← updateState env.nowNs orderId .riskControllerAccepted
      dispatchOrder cfg env index orderId
    else
      let _ ← updateState env.nowNs orderId .riskControllerRejected
      updateStage index .riskRejected env.nowNs
  else
    updateStage index .queuePushFailed env.nowNs
    recordError ⟨.order, .orderBookFull, "EventLoop", "OrderBook add_order failed"⟩

/-- `handle_order_request`. -/
def handleOrderRequest (cfg : Config) (env : Env) (index : OrderIndex) (request : OrderRequest) :
    Service Unit := do
  if request.lacksKey then
    match buildInternalSecurityId request.market request.securityId.view with
    | none =>
        let _ ← syncOrder index { request with orderState := .traderError } env.nowNs
        updateStage index .queuePushFailed env.nowNs
        recordError ⟨.order, .invalidParam, "EventLoop",
          "invalid market/security_id for internal key"⟩
    | some key => admitOrder cfg env index { request with internalSecurityId := key }
  else admitOrder cfg env index request

/-- The body of the loop in `process_upstream_orders`: the index was just taken from the upstream
queue. -/
def processUpstreamOrder (cfg : Config) (env : Env) (index : OrderIndex) : Service Unit := do
  let snapshot ← Program.read .internal fun w => w.ordersShm.bind fun shm => shm.readSnapshot index
  match snapshot with
  | none =>
      recordError ⟨.order, .orderNotFound, "EventLoop",
        "failed to read order slot from upstream index"⟩
  | some slot =>
      updateStage index .upstreamDequeued env.nowNs
      handleOrderRequest cfg env index slot.request

/-! ## Trade responses -/

/-- The settlement of the funds of a fill. -/
def settleFund (r : TradeResponse) : Service Unit := do
  match r.tradeSide with
  | .buy =>
      let settled ← settleBuyTradeFund r.internalOrderId r.dvalueTraded r.dfee
      if settled then pure ()
      else
        recordError ⟨.portfolio, .positionUpdateFailed, "EventLoop",
          "failed to settle buy fund from trade response"⟩
  | .sell =>
      let settled ← onFund fun f => f.applySellTradeFund r.dvalueTraded r.dfee
      if settled then pure ()
      else
        recordError ⟨.portfolio, .positionUpdateFailed, "EventLoop",
          "failed to settle sell fund from trade response"⟩
  | .notSet => pure ()

/-- The security of a fill: the one of the response, or else the one of the order. -/
def fillSecurity (r : TradeResponse) (order : OrderEntry) : InternalSecurityId :=
  if r.internalSecurityId.isEmpty then order.request.internalSecurityId else r.internalSecurityId

/-- The row of a security that has none yet is created from the order. -/
def ensurePositionRow (order : OrderEntry) (securityId : InternalSecurityId) : Service Unit := do
  let known ← Program.read .internal fun w => (w.positions.getPosition securityId).isSome
  if known ∨ order.request.securityId.isEmpty then pure ()
  else
    let name :=
      if order.request.internalSecurityId.isEmpty then securityId.view
      else order.request.internalSecurityId.view
    let added ← onPositions fun m =>
      m.addSecurity order.request.securityId.view name order.request.market
    match added with
    | none =>
        recordError ⟨.portfolio, .positionUpdateFailed, "EventLoop",
          "failed to create missing position row"⟩
    | some key =>
        -- The key comes from the order, so it need not be the one of the fill.
        if key = securityId then pure ()
        else
          recordError ⟨.portfolio, .orderInvariantBroken, "EventLoop",
            "security id mismatch while creating position row"⟩

/-- The update of the position row by a fill. -/
def updatePosition (r : TradeResponse) (securityId : InternalSecurityId) : Service Unit := do
  match r.tradeSide with
  | .buy =>
      let ok ← onPositions fun m => m.addPosition securityId r.volumeTraded r.dpriceTraded
      if ok then pure ()
      else
        recordError ⟨.portfolio, .positionUpdateFailed, "EventLoop",
          "failed to add position from trade response"⟩
  | .sell =>
      let ok ← onPositions fun m => m.deductPosition securityId r.volumeTraded r.dvalueTraded
      if ok then pure ()
      else
        recordError ⟨.portfolio, .positionUpdateFailed, "EventLoop",
          "failed to deduct position from trade response"⟩
  | .notSet => pure ()

/-- The settlement of a fill of a new order: funds first, then the position. -/
def settleTrade (r : TradeResponse) (order : OrderEntry) : Service Unit := do
  settleFund r
  let securityId := fillSecurity r order
  if securityId.isEmpty then pure ()
  else
    ensurePositionRow order securityId
    updatePosition r securityId

/-- The fill of a response. -/
def applyFill (env : Env) (r : TradeResponse) : Service Unit := do
  let _ ← updateTrade env.nowNs r.internalOrderId r.volumeTraded r.dpriceTraded
      r.dvalueTraded r.dfee
  match ← findOrder r.internalOrderId with
  -- A response may name an order that the book does not have.
  | none => pure ()
  | some order => if order.request.orderType = .new then settleTrade r order else pure ()

/-- The release after a response: of the order itself when it is terminal, and of the order that a
terminal cancel names. -/
def releaseAfterResponse (orderId : InternalOrderId) : Service Unit := do
  match ← findOrder orderId with
  | none => pure ()
  | some order =>
      if order.isTerminal then
        releaseOrderResources orderId
        -- The cancel itself holds nothing; what it frees is the reservation of the order it names.
        if order.request.orderType = .cancel ∧ order.request.origInternalOrderId ≠ 0 then
          releaseOrderResources order.request.origInternalOrderId
        else pure ()
      else pure ()

def setArchiveDeadline (orderId : InternalOrderId) (deadline : TimestampNs) : Service Unit :=
  .modify .internal fun w =>
    { w with pendingArchiveDeadlines := w.pendingArchiveDeadlines.insert orderId deadline }

def clearArchiveDeadline (orderId : InternalOrderId) : Service Unit :=
  .modify .internal fun w =>
    { w with pendingArchiveDeadlines := w.pendingArchiveDeadlines.erase orderId }

/-- The archive tail of `handle_trade_response`. -/
def archiveAfterResponse (cfg : Config) (env : Env) (r : TradeResponse) : Service Unit := do
  -- An order that is not terminal any more loses the deadline that an earlier response set.
  if ¬ r.newState.isTerminal ∨ ¬ cfg.archiveTerminalOrders then
    clearArchiveDeadline r.internalOrderId
  else if cfg.terminalArchiveDelayMs = 0 then
    let _ ← archiveOrder env.nowNs r.internalOrderId
    clearArchiveDeadline r.internalOrderId
  else
    setArchiveDeadline r.internalOrderId
      (env.nowNs + UInt64.ofNat cfg.terminalArchiveDelayMs.toNat * 1000000)

/-- `handle_trade_response`. -/
def handleTradeResponse (cfg : Config) (env : Env) (r : TradeResponse) : Service Unit := do
  (if cfg.hasExecutionEngine then engineOnTradeResponse r else pure ())
  -- A response without an id is seen by the engine only.
  if r.internalOrderId = 0 then pure ()
  else
    let _ ← updateState env.nowNs r.internalOrderId r.newState
    (if r.volumeTraded > 0 then applyFill env r else pure ())
    releaseAfterResponse r.internalOrderId
    archiveAfterResponse cfg env r

/-! ## The archive -/

/-- One turn of the loop of `process_pending_archives` over the orders that are due. -/
def archiveDueOrder (env : Env) (orderId : InternalOrderId) : Service Unit := do
  match ← findOrder orderId with
  | none => clearArchiveDeadline orderId
  | some entry =>
      if entry.isTerminal then
        let _ ← archiveOrder env.nowNs orderId
        clearArchiveDeadline orderId
      -- The order left its terminal state meanwhile, so it stays.
      else clearArchiveDeadline orderId

/-- `process_pending_archives`. -/
def processPendingArchives (env : Env) (nowNs : TimestampNs) : Service Unit := do
  let due ← Program.read .internal fun w =>
    (w.pendingArchiveDeadlines.entries.filter fun e => decide (nowNs ≥ e.2)).map (·.1)
  Program.forEach (archiveDueOrder env) due

end Service

/-! ## Runs -/

/-- The calls that change the state of the service. -/
inductive Event where
  | orderRequest (index : OrderIndex) (request : OrderRequest)
  | tradeResponse (response : TradeResponse)
  | engineTick (nowNs : TimestampNs)
  | pendingArchives (nowNs : TimestampNs)
  | routeCancel (origId cancelId : InternalOrderId) (time : MdTime)

/-- The program of a call. -/
def Event.program (cfg : Config) (env : Env) : Event → Service Unit
  | .orderRequest index request => Service.handleOrderRequest cfg env index request
  | .tradeResponse response => Service.handleTradeResponse cfg env response
  | .engineTick nowNs => Service.tickEngine cfg env nowNs
  | .pendingArchives nowNs => Service.processPendingArchives env nowNs
  | .routeCancel origId cancelId time => do
      let _ ← Service.routeCancel env.nowNs origId cancelId time
      pure ()

/-- One uninterrupted call. -/
def World.step (cfg : Config) (w : World) (call : Env × Event) : World :=
  ((call.2.program cfg call.1).run w).2

/-- The world after a sequence of calls. -/
def World.run (cfg : Config) (w : World) (calls : List (Env × Event)) : World :=
  calls.foldl (World.step cfg) w

/-- The service after a start with an empty book and an initialised position table. -/
def World.start (fund : FundInfo) (risk : RiskConfig) (shm : OrdersShm) : World where
  book := OrderBook.empty
  positions :=
    { header := { initState := 1 }
      fund := fund
      rows := fun _ => {}
      positionCount := 0
      securityToRow := ∅ }
  risk := RiskManager.ofConfig risk
  sessions := ∅
  pendingArchiveDeadlines := ∅
  ordersShm := some shm
  downstream := some (SpscQueue.init 0)
  upstreamNextOrderId := some 1

/-- The service after a restart over the same shared memory. -/
def World.restart (load : PositionManager → Bool × PositionManager)
    (now : TimestampNs) (w : World) : World where
  book :=
    match w.ordersShm with
    | none => OrderBook.empty
    | some shm => recoverDownstreamActiveOrders shm w.upstreamNextOrderId now OrderBook.empty
  positions := (w.positions.initializePositions load).2
  risk := RiskManager.ofConfig w.risk.config
  sessions := ∅
  pendingArchiveDeadlines := ∅
  ordersShm := w.ordersShm
  downstream := w.downstream
  upstreamNextOrderId := w.upstreamNextOrderId
  pushed := w.pushed

/-- A buy order that has reserved 1000 and was sent to the gateway. -/
def workingBuy : World :=
  (World.start { totalAsset := 10000, available := 10000 } {}
    (OrdersShm.ofClients [.ofClient 7 .buy 100 10])).run {}
    [({}, .orderRequest 0 (.ofClient 7 .buy 100 10))]

end AccountServices
