import AccountServices.Order.Router

/-!
# The execution engine

`execution/execution_engine.cpp`, the parts that work on the order book: a session reads its parent
and the cancels of its children from the book, prices and submits children through the router, and
mirrors its ledgers in the parent. The engine keeps the sessions by parent, advances them on every
turn of the event loop and drops those that have come to an end.
-/

set_option autoImplicit false

namespace AccountServices

open Foundation

/-- Whether all slices are used. -/
def TwapState.exhausted (t : TwapState) : Bool := decide (t.sliceIndex ≥ t.sliceVolumes.length)

namespace Session

/-! ## Pricing -/

/-- `read_market_data_view`. -/
def readMarketDataView (s : Session) (cfg : Config) (env : Env) : Option MarketDataView :=
  if cfg.hasMarketDataService ∧ env.marketDataReady then
    env.readMarketData s.parentRequest.internalSecurityId.view
  else none

/-- `resolve_market_price`. -/
def resolveMarketPrice (s : Session) (view : MarketDataView) : Option DPrice :=
  let hasBestBid := decide (view.totalBidLevels > 0) && view.bid.isValid
  let hasBestAsk := decide (view.totalAskLevels > 0) && view.ask.isValid
  if ¬ hasBestBid ∧ ¬ hasBestAsk then none
  else
    let candidate :=
      match s.parentRequest.tradeSide with
      | .buy => if hasBestAsk then view.ask.price else view.bid.price
      | .sell => if hasBestBid then view.bid.price else view.ask.price
      | .notSet => 0
    if candidate = 0 then none else some candidate

/-- The fallback of `resolve_submit_price`: the price of the parent, where the service allows it. -/
def fallbackPrice (s : Session) (cfg : Config) : Option DPrice :=
  if ¬ (cfg.hasMarketDataService ∧ cfg.allowOrderPriceFallback) then none
  else if s.parentRequest.dpriceEntrust = 0 then none
  else some s.parentRequest.dpriceEntrust

/-- `resolve_submit_price`: the market data that was read, if any, and the price. -/
def resolveSubmitPrice (s : Session) (cfg : Config) (env : Env) :
    Option (Option MarketDataView × DPrice) :=
  match s.readMarketDataView cfg env with
  | some view =>
      match s.resolveMarketPrice view with
      | some price => some (some view, price)
      | none => (s.fallbackPrice cfg).map fun price => (some view, price)
  | none => (s.fallbackPrice cfg).map fun price => (none, price)

/-! ## The parent -/

/-- The marks of a cancel: the session, and the ledger of the child that the cancel names. -/
def noteCancel (s : Session) (origId : InternalOrderId) : Session :=
  match s.childLedgers.lookup origId with
  | none => { s with cancelRequested := true }
  | some ledger =>
      ({ s with cancelRequested := true } : Session).setLedger origId
        { ledger with cancelRequested := true }

/-- The loop of `refresh_parent_state` over the registered children: every cancel that is live in
the book leaves its marks. -/
def noteCancels (s : Session) (b : OrderBook) : List InternalOrderId → Session
  | [] => s
  | relatedId :: rest =>
      match b.findOrder relatedId with
      | none => s.noteCancels b rest
      | some entry =>
          if entry.request.orderType ≠ .cancel then s.noteCancels b rest
          else (s.noteCancel entry.request.origInternalOrderId).noteCancels b rest

/-- `refresh_parent_state`. The mark of a cancel is computed anew on every call. -/
def refreshParentState (s : Session) (b : OrderBook) : Bool × Session :=
  match b.findOrder s.parentRequest.internalOrderId with
  -- The book has lost the parent.
  | none => (false, { s with failed := true, terminal := true })
  | some _ =>
      (true,
        ({ s with cancelRequested := false }).noteCancels b
          (b.getChildren s.parentRequest.internalOrderId))

/-- `sync_parent_view`. -/
def syncParentView (s : Session) (now : TimestampNs) : Service Unit := do
  let _ ← Service.onBook now fun b =>
    b.syncManagedParentView s.parentRequest.internalOrderId s.parentView s.deriveParentState now
  pure ()

/-- `finalize_parent_if_idle`: whether the session has come to its end. -/
def idleAtEnd (s : Session) : Bool :=
  s.failed || (s.cancelRequested && !s.hasWorkingChildren) ||
    (decide (s.remainingTarget = 0) && !s.hasWorkingChildren)

/-- `finalize_parent_if_idle`, followed by the mirror when the session goes on. -/
def finishIfIdle (s : Session) (now : TimestampNs) : Service Session := do
  if s.idleAtEnd then
    let s := { s with terminal := true }
    s.syncParentView now
    pure s
  else if s.terminal then pure s
  else
    s.syncParentView now
    pure s

/-! ## Submission -/

/-- The record of `emit_child_submit_attempt_trace`. -/
def attemptTrace (s : Session) (volume : Volume) (price : DPrice) (activeClaimed : Bool) :
    ChildTrace :=
  .submitAttempt s.parentRequest.internalOrderId volume price s.deriveExecutionState s.targetVolume
    s.workingVolume s.schedulableVolume activeClaimed

/-- The entry that `submit_child` hands to the router. -/
def childEntry (s : Session) (now : TimestampNs) (volume : Volume) (price : DPrice)
    (activeClaimed : Bool) : OrderEntry :=
  { request := makeChildRequest s.parentRequest 0 volume price activeClaimed
    submitTimeNs := now
    lastUpdateNs := now
    strategyId := s.strategyId
    isSplitChild := true
    parentOrderId := s.parentRequest.internalOrderId }

/-- The session after a submission that succeeded: `emplace` keeps a ledger that is already
there. -/
def addChild (s : Session) (child : OrderEntry) (volume : Volume) (price : DPrice) : Session :=
  match s.childLedgers.lookup child.request.internalOrderId with
  | some _ => s
  | none =>
      s.setLedger child.request.internalOrderId
        { childOrderId := child.request.internalOrderId
          shmOrderIndex := child.shmOrderIndex
          entrustVolume := volume
          entrustPrice := price
          orderState := .traderSubmitted }

/-- The record of `emit_child_submit_result_trace`. -/
def resultTrace (s : Session) (child : OrderEntry) (success : Bool) (entrustPrice : DPrice)
    (reason : String) : ChildTrace :=
  .submitResult s.parentRequest.internalOrderId child.request.internalOrderId child.shmOrderIndex
    entrustPrice success reason

/-- `submit_child`. Both calls of `emit_child_submit_result_trace` give the price where the flag is
expected and the flag where the price is, and the two are converted. -/
def submitChild (s : Session) (now : TimestampNs) (volume : Volume) (price : DPrice)
    (activeClaimed : Bool) : Service (Bool × Session) := do
  if volume = 0 ∨ price = 0 then pure (false, s)
  else
    Service.recordTrace [s.attemptTrace volume price activeClaimed]
    let (sent, child) ← Service.submitInternalOrder now
        (s.childEntry now volume price activeClaimed)
    if sent then
      Service.recordTrace
        [s.resultTrace child (decide (child.request.dpriceEntrust ≠ 0)) 1 "submitted"]
      pure (true, s.addChild child volume price)
    else
      Service.recordTrace
        [s.resultTrace child (decide (child.request.dpriceEntrust ≠ 0)) 0 "route_failed"]
      -- One refused child ends the whole session.
      let s' := { s with failed := true, terminal := true }
      s'.syncParentView now
      pure (false, s')

/-- `try_active_submit`. -/
def tryActiveSubmit (s : Session) (cfg : Config) (env : Env) (view : MarketDataView)
    (price : DPrice) (budget : Volume) : Service (Bool × Session) := do
  if ¬ cfg.hasActiveStrategy ∨ budget = 0 then pure (false, s)
  else if view.predictionState ≠ .fresh then pure (false, s)
  else if view.publishSeqNo = s.lastActivePublishSeqNo then pure (false, s)
  else
    let decision := env.evaluate s.parentRequest view budget
    -- The publication is spent even when the strategy declines.
    let s := { s with lastActivePublishSeqNo := view.publishSeqNo }
    if ¬ decision.shouldSubmit ∨ decision.volume = 0 ∨ decision.volume > budget then pure (false, s)
    else s.submitChild env.nowNs decision.volume price true

/-- `try_active_submit` behind its guard: without market data it is not tried. -/
def tryActive (s : Session) (cfg : Config) (env : Env) (view : Option MarketDataView)
    (price : DPrice) (budget : Volume) : Service (Bool × Session) :=
  match view with
  | none => pure (false, s)
  | some view => s.tryActiveSubmit cfg env view price budget

/-! ## Ticks -/

/-- The part of `SequentialClipSession::tick` behind `refresh_parent_state`. -/
def tickSequential (s : Session) (cfg : Config) (env : Env) : Service Session := do
  if s.failed then
    let s := { s with terminal := true }
    s.syncParentView env.nowNs
    pure s
  -- One child at a time: the next clip waits until the last one has ended.
  else if s.hasWorkingChildren then
    s.syncParentView env.nowNs
    pure s
  else if s.cancelRequested then
    let s := { s with terminal := true }
    s.syncParentView env.nowNs
    pure s
  else if s.currentBudgetVolume = 0 then s.finishIfIdle env.nowNs
  else
    match s.resolveSubmitPrice cfg env with
    | none =>
        s.syncParentView env.nowNs
        pure s
    | some (view, price) =>
        let (active, s₁) ← s.tryActive cfg env view price s.currentBudgetVolume
        -- The passive clip goes out whenever the active one did not, also after one that was
        -- refused.
        let (_, s₂) ←
          (if active then pure (true, s₁)
          else s₁.submitChild env.nowNs s.currentBudgetVolume price false)
        s₂.syncParentView env.nowNs
        pure s₂

/-- The slice of the session has its child. -/
def consumeSlice (s : Session) : Session :=
  match s.plan with
  | .sequentialClip _ => s
  | .twap t => { s with plan := .twap { t with sliceConsumed := true } }

/-- The members of a TWAP session. -/
def twapState? (s : Session) : Option TwapState :=
  match s.plan with
  | .sequentialClip _ => none
  | .twap t => some t

/-- Whether all slices of the session are used. -/
def slicesExhausted (s : Session) : Bool := s.twapState?.elim false TwapState.exhausted

/-- Whether the current slice has its child. -/
def sliceConsumed (s : Session) : Bool := s.twapState?.elim false (·.sliceConsumed)

/-- The submissions of `TwapSession::tick` for the current slice: the active strategy first, and the
passive child once the deadline has come. -/
def submitSlice (s : Session) (cfg : Config) (env : Env) (nowNs deadline : TimestampNs)
    (budget : Volume) (view : Option MarketDataView) (price : DPrice) : Service Session := do
  let s₁ ←
    (if s.sliceConsumed then pure s
    else do
      let (active, s') ← s.tryActive cfg env view price budget
      pure (if active then s'.consumeSlice else s'))
  -- An active child that was refused leaves the slice open for the passive one.
  if ¬ s₁.sliceConsumed ∧ nowNs ≥ deadline then
    let (sent, s') ← s₁.submitChild env.nowNs budget price false
    pure (if sent then s'.consumeSlice else s')
  else pure s₁

/-- The tail of `TwapSession::tick`. A session that ends here is not mirrored. -/
def endSlice (s : Session) (now : TimestampNs) : Service Session := do
  let s := s.advanceSliceIfReady
  let s := if s.slicesExhausted ∧ ¬ s.hasWorkingChildren then { s with terminal := true } else s
  if s.terminal then pure s
  else
    s.syncParentView now
    pure s

/-- The part of `TwapSession::tick` behind `refresh_parent_state`. -/
def tickTwap (s : Session) (cfg : Config) (env : Env) (nowNs : TimestampNs) : Service Session := do
  if s.failed then
    let s := { s with terminal := true }
    s.syncParentView env.nowNs
    pure s
  else
    let s := s.advanceSliceIfReady
    match s.twapState? with
    | none => pure s
    | some t =>
        if t.exhausted then
          -- The last slice may still have its child at work.
          let s := if s.hasWorkingChildren then s else { s with terminal := true }
          s.syncParentView env.nowNs
          pure s
        else if s.cancelRequested then s.finishIfIdle env.nowNs
        else if s.currentBudgetVolume = 0 then s.endSlice env.nowNs
        else
          match s.resolveSubmitPrice cfg env with
          | none =>
              s.syncParentView env.nowNs
              pure s
          | some (view, price) =>
              let s' ← s.submitSlice cfg env nowNs t.nextDeadlineNs s.currentBudgetVolume view price
              s'.endSlice env.nowNs

/-- `tick`. -/
def tick (s : Session) (cfg : Config) (env : Env) (nowNs : TimestampNs) : Service Session := do
  let (found, s) ← Program.read .internal fun w => s.refreshParentState w.book
  if found then
    match s.plan with
    | .sequentialClip _ => s.tickSequential cfg env
    | .twap _ => s.tickTwap cfg env nowNs
  else
    s.syncParentView env.nowNs
    pure s

end Session

/-! ## The engine -/

/-- `ExecutionEngine::SessionStartResult`. -/
inductive SessionStartResult where
  | started | duplicate | unsupported | marketDataUnavailable | unsplittable | invalidConfig
  deriving DecidableEq, Repr

namespace Service

/-- `should_manage`. -/
def shouldManage (cfg : Config) (request : OrderRequest) : Bool :=
  decide (request.orderType = .new) && (resolveExecutionStrategy request cfg.splitConfig).isManaged

def findSession (parentId : InternalOrderId) : Service (Option Session) :=
  .read .internal fun w => w.sessions.lookup parentId

def storeSession (s : Session) : Service Unit :=
  .modify .internal fun w =>
    { w with sessions := w.sessions.insert s.parentRequest.internalOrderId s }

def eraseSession (parentId : InternalOrderId) : Service Unit :=
  .modify .internal fun w => { w with sessions := w.sessions.erase parentId }

/-- `start_session`. A session that cannot be built is unsplittable: the strategies for which the
factory has no session are refused before. -/
def startSession (cfg : Config) (env : Env) (parentIndex : OrderIndex)
    (parentRequest : OrderRequest) (strategyId : StrategyId) (startTimeNs : TimestampNs) :
    Service SessionStartResult := do
  if ¬ shouldManage cfg parentRequest then pure .invalidConfig
  else
    match ← findSession parentRequest.internalOrderId with
    | some _ => pure .duplicate
    | none =>
        if ¬ (resolveExecutionStrategy parentRequest cfg.splitConfig).isSupported then
          pure .unsupported
        else if ¬ (cfg.hasMarketDataService ∧ env.marketDataReady) ∧
            ¬ (cfg.hasMarketDataService ∧ cfg.allowOrderPriceFallback) then
          pure .marketDataUnavailable
        else
          match Session.create cfg.splitConfig parentIndex parentRequest strategyId startTimeNs with
          | none => pure .unsplittable
          | some session =>
              let marked ← onBook env.nowNs fun b =>
                  b.markManagedParent parentRequest.internalOrderId
              if marked then
                -- The session is stored before its first tick and again after it.
                storeSession session
                let session ← session.tick cfg env startTimeNs
                storeSession session
                pure .started
              else pure .invalidConfig

/-- The first loop of `ExecutionEngine::tick`: every session is advanced once, and the parents of
those that ended are collected. -/
def tickSessions (cfg : Config) (env : Env) (nowNs : TimestampNs) :
    List InternalOrderId → Service (List InternalOrderId)
  | [] => pure []
  | parentId :: rest => do
      match ← findSession parentId with
      | none => tickSessions cfg env nowNs rest
      | some session =>
          let session ← session.tick cfg env nowNs
          storeSession session
          let finished ← tickSessions cfg env nowNs rest
          pure (if session.terminal then parentId :: finished else finished)

/-- `ExecutionEngine::tick`. -/
def tickEngine (cfg : Config) (env : Env) (nowNs : TimestampNs) : Service Unit := do
  let parents ← Program.read .internal fun w => w.sessions.entries.map (·.1)
  let finished ← tickSessions cfg env nowNs parents
  Program.forEach eraseSession finished

/-- `ExecutionEngine::on_trade_response`. -/
def engineOnTradeResponse (response : TradeResponse) : Service Unit :=
  .modify .internal fun w =>
    match w.book.tryGetParent response.internalOrderId with
    -- An order without a parent is not the engine's.
    | none => w
    | some parentId =>
        match w.sessions.lookup parentId with
        | none => w
        | some session =>
            let (session', records) := session.onTradeResponse response
            { w with
              sessions := w.sessions.insert parentId session'
              childTrace := w.childTrace ++ records }

end Service

/-! ## What the engine preserves -/

/-- A property of the world that the steps of the engine preserve too. -/
structure EngineStable (Adds : OrderEntry → Prop) (Inv : World → Prop) : Prop extends
    Stable Adds Inv where
  engine : ∀ (w : World) sessions childTrace, Inv w →
    Inv { w with sessions := sessions, childTrace := childTrace }
  markManagedParent : ∀ (w : World) parentId, Inv w →
    Inv { w with book := (w.book.markManagedParent parentId).book }
  syncManagedParentView : ∀ (w : World) parentId view state now, Inv w →
    Inv { w with book := (w.book.syncManagedParentView parentId view state now).book }

/-- The calls of the engine, beside those of the router for the children, that preserve the
property. -/
structure SessionRules (Adds : OrderEntry → Prop) (Inv : World → Prop) : Prop extends
    PlacementRules Adds Inv where
  engine : ∀ (w : World) sessions childTrace, Inv w →
    Inv { w with sessions := sessions, childTrace := childTrace }
  markManagedParent : ∀ now parentId,
    Program.Preserves Inv (Service.onBook now fun b => b.markManagedParent parentId)
  syncParentView : ∀ (s : Session) now, Program.Preserves Inv (s.syncParentView now)

/-- The calls of the engine and of the router that preserve the property. -/
structure EngineRules (Adds : OrderEntry → Prop) (Inv : World → Prop) : Prop extends
    RouterRules Adds Inv, SessionRules Adds Inv

theorem EngineStable.engineRules {Adds : OrderEntry → Prop} {Inv : World → Prop}
    (hstable : EngineStable Adds Inv) : EngineRules Adds Inv where
  toRouterRules := hstable.toStable.routerRules
  engine := hstable.engine
  markManagedParent _ _ := Service.preserves_onBook hstable.toStable _ fun w h =>
    hstable.markManagedParent w _ h
  syncParentView _ now :=
    Program.Preserves.bind (Service.preserves_onBook hstable.toStable now fun w h =>
    hstable.syncManagedParentView w _ _ _ now h) fun _ => Program.Preserves.pure _

namespace SessionRules

open Program

variable {Adds : OrderEntry → Prop} {Inv : World → Prop} (h : SessionRules Adds Inv)

include h

theorem sync_pure (s : Session) (now : TimestampNs) :
    Preserves Inv (do s.syncParentView now; pure s : Service Session) :=
  Preserves.bind (h.syncParentView s now) fun _ => Preserves.pure _

theorem recordTrace (records : List ChildTrace) : Preserves Inv (Service.recordTrace records) :=
  Preserves.modify fun w hw => h.engine w w.sessions _ hw

theorem submitChild (hsplit : AdmitsSplit Adds) (s : Session) (now : TimestampNs) (volume : Volume)
    (price : DPrice) (active : Bool) : Preserves Inv (s.submitChild now volume price active) := by
  refine Preserves.ite (Preserves.pure _) ?_
  refine Preserves.bind (h.recordTrace _) fun _ => ?_
  refine Preserves.bind (h.submitInternalOrder now rfl fun _ _ _ _ => hsplit _ rfl rfl) fun out =>
    ?_
  refine Preserves.ite ?_ ?_
  · exact Preserves.bind (h.recordTrace _) fun _ => Preserves.pure _
  · exact Preserves.bind (h.recordTrace _) fun _ =>
      Preserves.bind (h.syncParentView _ now) fun _ => Preserves.pure _

theorem tryActive (hsplit : AdmitsSplit Adds) (s : Session) (cfg : Config) (env : Env)
    (view : Option MarketDataView) (price : DPrice) (budget : Volume) :
    Preserves Inv (s.tryActive cfg env view price budget) := by
  simp only [Session.tryActive]
  split
  · exact Preserves.pure _
  · refine Preserves.ite (Preserves.pure _) (Preserves.ite (Preserves.pure _)
      (Preserves.ite (Preserves.pure _) (Preserves.ite (Preserves.pure _) ?_)))
    exact h.submitChild hsplit _ _ _ _ _

theorem finishIfIdle (s : Session) (now : TimestampNs) : Preserves Inv (s.finishIfIdle now) :=
  Preserves.ite (h.sync_pure _ now) (Preserves.ite (Preserves.pure _) (h.sync_pure s now))

theorem tickSequential (hsplit : AdmitsSplit Adds) (s : Session) (cfg : Config) (env : Env) :
    Preserves Inv (s.tickSequential cfg env) := by
  refine Preserves.ite (h.sync_pure _ _) (Preserves.ite (h.sync_pure _ _)
    (Preserves.ite (h.sync_pure _ _) (Preserves.ite (h.finishIfIdle _ _) ?_)))
  split
  · exact h.sync_pure _ _
  · refine Preserves.bind (h.tryActive hsplit _ _ _ _ _ _) fun out => ?_
    refine Preserves.bind (Preserves.ite (Preserves.pure _) (h.submitChild hsplit _ _ _ _ _))
      fun out' => ?_
    exact h.sync_pure _ _

theorem submitSlice (hsplit : AdmitsSplit Adds) (s : Session) (cfg : Config) (env : Env)
    (nowNs deadline : TimestampNs) (budget : Volume) (view : Option MarketDataView)
    (price : DPrice) :
    Preserves Inv (s.submitSlice cfg env nowNs deadline budget view price) := by
  refine Preserves.bind (Preserves.ite (Preserves.pure _) (Preserves.bind
    (h.tryActive hsplit _ _ _ _ _ _) fun _ => Preserves.pure _)) fun s₁ => ?_
  exact Preserves.ite (Preserves.bind (h.submitChild hsplit _ _ _ _ _) fun _ => Preserves.pure _)
    (Preserves.pure _)

theorem endSlice (s : Session) (now : TimestampNs) : Preserves Inv (s.endSlice now) :=
  Preserves.ite (Preserves.pure _) (h.sync_pure _ now)

theorem tickTwap (hsplit : AdmitsSplit Adds) (s : Session) (cfg : Config) (env : Env)
    (nowNs : TimestampNs) : Preserves Inv (s.tickTwap cfg env nowNs) := by
  refine Preserves.ite (h.sync_pure _ _) ?_
  simp only
  split
  · exact Preserves.pure _
  · refine Preserves.ite (h.sync_pure _ _) (Preserves.ite (h.finishIfIdle _ _)
      (Preserves.ite (h.endSlice _ _) ?_))
    split
    · exact h.sync_pure _ _
    · exact Preserves.bind (h.submitSlice hsplit _ _ _ _ _ _ _ _) fun s' => h.endSlice s' _

theorem tick (hsplit : AdmitsSplit Adds) (s : Session) (cfg : Config) (env : Env)
    (nowNs : TimestampNs) : Preserves Inv (s.tick cfg env nowNs) := by
  refine Preserves.bind Preserves.read fun out => Preserves.ite ?_ (h.sync_pure _ _)
  split
  · exact h.tickSequential hsplit _ _ _
  · exact h.tickTwap hsplit _ _ _ _

theorem storeSession (s : Session) : Preserves Inv (Service.storeSession s) :=
  Preserves.modify fun w hw => h.engine w _ w.childTrace hw

theorem startSession (hsplit : AdmitsSplit Adds) (cfg : Config) (env : Env)
    (parentIndex : OrderIndex)
    (parentRequest : OrderRequest) (strategyId : StrategyId) (startTimeNs : TimestampNs) :
    Preserves Inv
      (Service.startSession cfg env parentIndex parentRequest strategyId startTimeNs) := by
  refine Preserves.ite (Preserves.pure _) (Preserves.bind Preserves.read fun found => ?_)
  split
  · exact Preserves.pure _
  · refine Preserves.ite (Preserves.pure _) (Preserves.ite (Preserves.pure _) ?_)
    split
    · exact Preserves.pure _
    · refine Preserves.bind (h.markManagedParent _ _) fun marked =>
        Preserves.ite ?_ (Preserves.pure _)
      exact Preserves.bind (h.storeSession _) fun _ =>
        Preserves.bind (h.tick hsplit _ _ _ _) fun session =>
          Preserves.bind (h.storeSession session) fun _ => Preserves.pure _

theorem tickSessions (hsplit : AdmitsSplit Adds) (cfg : Config) (env : Env) (nowNs : TimestampNs)
    (parents : List InternalOrderId) :
    Preserves Inv (Service.tickSessions cfg env nowNs parents) := by
  induction parents with
  | nil => exact Preserves.pure _
  | cons parentId rest ih =>
      refine Preserves.bind Preserves.read fun found => ?_
      split
      · exact ih
      · exact Preserves.bind (h.tick hsplit _ _ _ _) fun session =>
          Preserves.bind (h.storeSession session) fun _ => Preserves.bind ih fun _ =>
            Preserves.pure _

theorem tickEngine (hsplit : AdmitsSplit Adds) (cfg : Config) (env : Env) (nowNs : TimestampNs) :
    Preserves Inv (Service.tickEngine cfg env nowNs) :=
  Preserves.bind Preserves.read fun parents =>
    Preserves.bind (h.tickSessions hsplit cfg env nowNs parents) fun finished =>
      Preserves.forEach
        (fun _ => Preserves.modify fun w hw => h.engine w _ w.childTrace hw) finished

theorem engineOnTradeResponse (r : TradeResponse) :
    Preserves Inv (Service.engineOnTradeResponse r) := by
  refine Preserves.modify fun w hw => ?_
  split
  · exact hw
  · split
    · exact hw
    · exact h.engine w _ _ hw

end SessionRules

end AccountServices
