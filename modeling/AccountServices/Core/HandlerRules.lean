import AccountServices.Core.EventLoop

/-!
# Rules for the handlers

A handler is built from a few calls on the book, the pool and the engine, and from steps beside
them. A property that survives each of these survives a handler. A request hands a slot over with
the call, so the property before it and the property after it may differ in who holds the slot.
-/

set_option autoImplicit false

namespace AccountServices

open Foundation

/-- The slot that a client hands over with a call. -/
def Event.taken : Event → Set OrderIndex
  | .orderRequest index _ => {index}
  | _ => ∅

/-- What a property of the world has to survive so that a call preserves it which hands over no
slot, when the property may depend on the order pool. -/
structure CallRules (Inv : World → Prop) : Prop extends SessionRules (fun _ => True) Inv where
  beside : ∀ {w : World}, Inv w → ∀ {v : World}, v.book = w.book → v.ordersShm = w.ordersShm →
    v.pushed = w.pushed → Inv v
  annotate : ∀ (orderId : InternalOrderId) {f : OrderEntry → OrderEntry},
    (∀ e, (f e).request = e.request) → (∀ e, (f e).shmOrderIndex = e.shmOrderIndex) →
      Program.Preserves Inv (Service.modifyOrder orderId f)
  claimOrder : ∀ now orderId claimed state, Program.Preserves Inv (do
    Service.modifyOrder orderId fun e =>
      { e with request := { e.request with activeStrategyClaimed := claimed } }
    Service.updateState now orderId state)
  updateStage : ∀ index stage now, Program.Preserves Inv (Service.updateStage index stage now)
  updateTrade : ∀ now orderId vol px val fee,
    Program.Preserves Inv (Service.updateTrade now orderId vol px val fee)
  archiveOrder : ∀ now orderId, Program.Preserves Inv (Service.archiveOrder now orderId)

/-- What a property has to survive so that the other handlers preserve it too. -/
structure HandlerRules (Inv : World → Prop) :
    Prop extends CallRules Inv, EngineRules (fun _ => True) Inv

namespace CallRules

open Program

variable {Inv : World → Prop} (h : CallRules Inv)

include h

theorem onFund (op : FundInfo → Option FundInfo) : Preserves Inv (Service.onFund op) :=
  Preserves.atomic fun _ hw => h.beside hw rfl rfl rfl

theorem onPositions {α : Type} (op : PositionManager → α × PositionManager) :
    Preserves Inv (Service.onPositions op) :=
  Preserves.atomic fun _ hw => h.beside hw rfl rfl rfl

theorem clearArchiveDeadline (orderId : InternalOrderId) :
    Preserves Inv (Service.clearArchiveDeadline orderId) :=
  Preserves.modify fun _ hw => h.beside hw rfl rfl rfl

/-- The result of a step is checked, and a failure recorded. -/
theorem orRecord (ok : Bool) (error : ErrorStatus) :
    Preserves Inv (if ok = true then (pure () : Service Unit) else Service.recordError error) :=
  Preserves.ite (Preserves.pure _) (h.recordError error)

theorem reserveOrderResources (entry : OrderEntry) :
    Preserves Inv (Service.reserveOrderResources entry) := by
  refine Preserves.ite (Preserves.pure _) ?_
  cases reservationTotal entry.request with
  | none => exact Preserves.pure _
  | some total =>
      refine Preserves.bind (h.onFund _) fun frozen => Preserves.ite ?_ (Preserves.pure _)
      exact Preserves.bind (h.annotate _ (fun _ => rfl) fun _ => rfl) fun _ => Preserves.pure _

theorem releaseOrderResources (orderId : InternalOrderId) :
    Preserves Inv (Service.releaseOrderResources orderId) := by
  refine Preserves.bind Preserves.read fun found => ?_
  cases found with
  | none => exact Preserves.pure _
  | some entry =>
      refine Preserves.ite (Preserves.pure _) (Preserves.bind (h.onFund _) fun released => ?_)
      exact Preserves.ite (h.annotate _ (fun _ => rfl) fun _ => rfl) (Preserves.pure _)

theorem passesRisk (env : Env) (request : OrderRequest) :
    Preserves Inv (Service.passesRisk env request) := by
  refine Preserves.ite (Preserves.bind (Preserves.atomic fun w hw => ?_) fun result => ?_)
    (Preserves.pure _)
  · exact h.beside hw rfl rfl rfl
  · exact Preserves.bind (h.annotate _ (fun _ => rfl) fun _ => rfl) fun _ => Preserves.pure _

theorem manageOrder (cfg : Config) (env : Env) (index : OrderIndex) (orderId : InternalOrderId) :
    Preserves Inv (Service.manageOrder cfg env index orderId) := by
  intro w hw
  have hclaimed := h.claimOrder env.nowNs orderId cfg.hasActiveStrategy .traderPending w hw
  simp only [Service.manageOrder, run_bind, Service.run_findOrder] at hclaimed ⊢
  generalize ((Service.updateState env.nowNs orderId .traderPending).run _).2 = v at hclaimed ⊢
  cases v.book.findOrder orderId with
  | none => exact hclaimed
  | some active =>
      refine Preserves.bind (h.startSession (fun _ _ _ => trivial) _ _ _ _ _ _)
        (fun result => Preserves.ite (Preserves.pure _) ?_) _ hclaimed
      exact Preserves.bind (h.updateState _ _ _) fun _ =>
        Preserves.bind (h.updateStage _ _ _) fun _ => h.recordError _

theorem settleBuyTradeFund (orderId : InternalOrderId) (amount fee : DValue) :
    Preserves Inv (Service.settleBuyTradeFund orderId amount fee) := by
  refine Preserves.bind Preserves.read fun found => ?_
  cases found with
  | none => exact Preserves.pure _
  | some entry =>
      refine Preserves.ite (h.onFund _) ?_
      cases tryTotalWithFee amount fee with
      | none => exact Preserves.pure _
      | some total =>
          refine Preserves.bind (h.onFund _) fun deducted => Preserves.ite ?_ (Preserves.pure _)
          exact Preserves.bind (h.annotate _ (fun _ => rfl) fun _ => rfl) fun _ => Preserves.pure _

theorem settleTrade (r : TradeResponse) (order : OrderEntry) :
    Preserves Inv (Service.settleTrade r order) := by
  have hfund : Preserves Inv (Service.settleFund r) := by
    simp only [Service.settleFund]
    split
    · exact Preserves.bind (h.settleBuyTradeFund _ _ _) fun _ => h.orRecord _ _
    · exact Preserves.bind (h.onFund _) fun _ => h.orRecord _ _
    · exact Preserves.pure _
  have hrow : ∀ key, Preserves Inv (Service.ensurePositionRow order key) := by
    intro key
    refine Preserves.bind Preserves.read fun known => Preserves.ite (Preserves.pure _) ?_
    refine Preserves.bind (h.onPositions _) fun added => ?_
    cases added with
    | none => exact h.recordError _
    | some key' => exact Preserves.ite (Preserves.pure _) (h.recordError _)
  have hposition : ∀ key, Preserves Inv (Service.updatePosition r key) := by
    intro key
    simp only [Service.updatePosition]
    split
    · exact Preserves.bind (h.onPositions _) fun _ => h.orRecord _ _
    · exact Preserves.bind (h.onPositions _) fun _ => h.orRecord _ _
    · exact Preserves.pure _
  exact Preserves.bind hfund fun _ => Preserves.ite (Preserves.pure _)
    (Preserves.bind (hrow _) fun _ => hposition _)

theorem handleTradeResponse (cfg : Config) (env : Env) (r : TradeResponse) :
    Preserves Inv (Service.handleTradeResponse cfg env r) := by
  have hfill : Preserves Inv (Service.applyFill env r) := by
    refine Preserves.bind (h.updateTrade _ _ _ _ _ _) fun _ =>
      Preserves.bind Preserves.read fun found => ?_
    cases found with
    | none => exact Preserves.pure _
    | some order => exact Preserves.ite (h.settleTrade r order) (Preserves.pure _)
  have hrelease : Preserves Inv (Service.releaseAfterResponse r.internalOrderId) := by
    refine Preserves.bind Preserves.read fun found => ?_
    cases found with
    | none => exact Preserves.pure _
    | some order =>
        exact Preserves.ite (Preserves.bind (h.releaseOrderResources _) fun _ =>
          Preserves.ite (h.releaseOrderResources _) (Preserves.pure _)) (Preserves.pure _)
  have harchive : Preserves Inv (Service.archiveAfterResponse cfg env r) :=
    Preserves.ite (h.clearArchiveDeadline _) (Preserves.ite
      (Preserves.bind (h.archiveOrder _ _) fun _ => h.clearArchiveDeadline _)
      (Preserves.modify fun _ hw => h.beside hw rfl rfl rfl))
  refine Preserves.bind (Preserves.ite (h.engineOnTradeResponse r) (Preserves.pure _)) fun _ =>
    Preserves.ite (Preserves.pure _) ?_
  refine Preserves.bind (h.updateState _ _ _) fun _ => ?_
  exact Preserves.bind (Preserves.ite hfill (Preserves.pure _)) fun _ =>
    Preserves.bind hrelease fun _ => harchive

theorem processPendingArchives (env : Env) (nowNs : TimestampNs) :
    Preserves Inv (Service.processPendingArchives env nowNs) := by
  refine Preserves.bind Preserves.read fun due => Preserves.forEach (fun orderId => ?_) due
  refine Preserves.bind Preserves.read fun found => ?_
  cases found with
  | none => exact h.clearArchiveDeadline orderId
  | some entry =>
      exact Preserves.ite (Preserves.bind (h.archiveOrder _ _) fun _ =>
        h.clearArchiveDeadline orderId) (h.clearArchiveDeadline orderId)

/-- Every call that takes no slot from a client. -/
theorem program (cfg : Config) (env : Env) {event : Event} (htaken : event.taken = ∅) :
    Preserves Inv (event.program cfg env) := by
  cases event with
  | orderRequest index request => exact absurd htaken (Set.singleton_ne_empty index)
  | tradeResponse r => exact h.handleTradeResponse cfg env r
  | engineTick nowNs => exact h.tickEngine (fun _ _ _ => trivial) cfg env nowNs
  | pendingArchives nowNs => exact h.processPendingArchives env nowNs
  | routeCancel origId cancelId time =>
      exact Preserves.bind (h.routeCancel (fun _ _ _ => trivial) (fun _ _ _ => trivial) _ _ _ _)
        fun _ => Preserves.pure _

end CallRules

namespace HandlerRules

open Program

variable {Inv : World → Prop} (h : HandlerRules Inv)

include h

theorem routeNewOrder (env : Env) (index : OrderIndex) (active : OrderEntry) :
    Preserves Inv (Service.routeNewOrder env index active) := by
  refine Preserves.bind (h.reserveOrderResources _) fun reserved => Preserves.ite ?_ ?_
  · refine Preserves.bind
      (h.toRouterRules.routeOrder (fun _ _ _ => trivial) (fun _ _ _ => trivial) _ _)
      fun routed => Preserves.ite (Preserves.pure _) ?_
    exact Preserves.bind (h.releaseOrderResources _) fun _ =>
      Preserves.bind (h.updateState _ _ _) fun _ =>
        Preserves.bind (h.updateStage _ _ _) fun _ => h.recordError _
  · exact Preserves.bind (h.updateState _ _ _) fun _ => h.updateStage _ _ _

theorem dispatchOrder (cfg : Config) (env : Env) (index : OrderIndex) (orderId : InternalOrderId) :
    Preserves Inv (Service.dispatchOrder cfg env index orderId) := by
  refine Preserves.bind Preserves.read fun found => ?_
  cases found with
  | none => exact Preserves.pure _
  | some active =>
      exact Preserves.ite (h.manageOrder cfg env index orderId) (h.routeNewOrder env index active)

/-- A request, when the slot changes hands as the order enters the book. -/
theorem admitOrder {Before : World → Prop} (cfg : Config) (env : Env) {index : OrderIndex}
    {request : OrderRequest} (hassign : Preserves Before (Service.assignOrderId env index request))
    (hadded : ∀ (entry : OrderEntry) (w : World), entry.shmOrderIndex = index → Before w →
      Inv ((Service.addOrder env.nowNs entry).run w).2)
    {w : World} (hw : Before w) : Inv ((Service.admitOrder cfg env index request).run w).2 := by
  have hassigned := hassign w hw
  simp only [Service.admitOrder, run_bind]
  set v := ((Service.assignOrderId env index request).run w).2
  set complete := prepareOrderEstimate cfg ((Service.assignOrderId env index request).run w).1
  refine Preserves.ite ?_ ?_ _ (hadded (Service.requestEntry env index complete) v rfl hassigned)
  · refine Preserves.bind (h.updateState _ _ _) fun _ =>
      Preserves.bind (h.passesRisk _ _) fun passed => Preserves.ite ?_ ?_
    · exact Preserves.bind (h.updateState _ _ _) fun _ => h.dispatchOrder cfg env index _
    · exact Preserves.bind (h.updateState _ _ _) fun _ => h.updateStage _ _ _
  · exact Preserves.bind (h.updateStage _ _ _) fun _ => h.recordError _

/-- A request without a usable key is refused before it reaches the book. -/
theorem handleOrderRequest {Before : World → Prop} (cfg : Config) (env : Env) {index : OrderIndex}
    {request : OrderRequest} (hsub : ∀ w, Before w → Inv w)
    (hwrite : ∀ request, Preserves Before (Service.syncOrder index request env.nowNs))
    (hallocate : Preserves Before Service.allocateInternalOrderId)
    (hadded : ∀ (entry : OrderEntry) (w : World), entry.shmOrderIndex = index → Before w →
      Inv ((Service.addOrder env.nowNs entry).run w).2)
    {w : World} (hw : Before w) :
    Inv ((Service.handleOrderRequest cfg env index request).run w).2 := by
  have hassign : ∀ request, Preserves Before (Service.assignOrderId env index request) :=
    fun request =>
    Preserves.ite
      (Preserves.bind hallocate fun _ => Preserves.bind (hwrite _) fun _ => Preserves.pure _)
      (Preserves.pure _)
  simp only [Service.handleOrderRequest]
  split
  · split
    · rw [run_bind]
      exact Preserves.bind (h.updateStage _ _ _) (fun _ => h.recordError _)
        _ (hsub _ (hwrite _ w hw))
    · exact h.admitOrder cfg env (hassign _) hadded hw
  · exact h.admitOrder cfg env (hassign _) hadded hw

end HandlerRules

end AccountServices
