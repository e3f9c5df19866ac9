import AccountServices.Order.RecoveredBook
import AccountServices.Core.Request

/-!
# Invariants of the service

A property that every atomic effect of the handlers preserves is preserved by every call, and so it
holds in every state that the service reaches. `HandlerStable` lists the effects.
-/

set_option autoImplicit false

namespace AccountServices

open Foundation

/-- A property of the world that all the handlers preserve, whichever orders they add. -/
structure HandlerStable (Inv : World → Prop) : Prop extends LoopStable (fun _ => True) Inv where
  settle : ∀ (w : World) orderId out, Inv w → Inv (w.settle orderId out)
  archive : ∀ (w : World) orderId, Inv w → Inv (w.archive orderId)

namespace Service

open Program

section Preserves

variable {Inv : World → Prop} (hstable : HandlerStable Inv)

include hstable

theorem inv_release (orderId : InternalOrderId) {w : World} (h : Inv w) :
    Inv (w.release orderId) := by
  rw [World.release]
  split
  · exact h
  · exact hstable.settle w orderId _ h

theorem preserves_releaseOrderResources (orderId : InternalOrderId) :
    Preserves Inv (releaseOrderResources orderId) := by
  intro w h
  rw [run_release]
  exact inv_release hstable orderId h

theorem preserves_routeNewOrder (env : Env) (index : OrderIndex) (active : OrderEntry) :
    Preserves Inv (routeNewOrder env index active) := by
  intro w h
  refine ensures_routeNewOrder Inv hstable.toLoopStable (fun _ hv => hv) ?_ ?_ ?_ h
  · exact fun v total g hv _ _ => hstable.settle v _ (g, total) hv
  · exact hstable.toStable.routerRules.routeOrder (fun _ _ _ => trivial) (fun _ _ _ => trivial) _ _
  · exact fun v hv => inv_release hstable _ hv

theorem preserves_dispatchOrder (cfg : Config) (env : Env) (index : OrderIndex)
    (orderId : InternalOrderId) : Preserves Inv (dispatchOrder cfg env index orderId) := by
  refine Preserves.bind Preserves.read fun found => ?_
  cases found with
  | none => exact Preserves.pure _
  | some active =>
      exact Preserves.ite
        (preserves_manageOrder hstable.toLoopStable (fun _ _ _ => trivial) cfg env index orderId)
        (preserves_routeNewOrder hstable env index active)

theorem preserves_handleOrderRequest (cfg : Config) (env : Env) (index : OrderIndex)
    (request : OrderRequest) : Preserves Inv (handleOrderRequest cfg env index request) := by
  intro w h
  refine ensures_handleOrderRequest hstable.toLoopStable (fun _ _ _ => trivial) ?_ h
  exact fun complete _ v _ _ _ hv _ => preserves_dispatchOrder hstable cfg env index _ v hv

theorem preserves_settleTrade {r : TradeResponse} {order : OrderEntry} {w : World}
    (he : w.book.findOrder r.internalOrderId = some order) (h : Inv w) :
    Inv ((settleTrade r order).run w).2 := by
  obtain ⟨errors, hsettle⟩ := run_settleFund r he
  have hfund : Inv ((settleFund r).run w).2 := by
    rw [hsettle]
    set v := w.settle r.internalOrderId (fillEffect w.positions.fund order.fundFrozen r) with hv
    exact hstable.shared v v.ordersShm errors v.downstream v.pushed (hstable.settle w _ _ h)
  rw [settleTrade]
  rw [run_bind]
  refine Preserves.ite (Preserves.pure _) ?_ _ hfund
  exact Preserves.bind (preserves_ensurePositionRow hstable.toLoopStable _ _) fun _ =>
    preserves_updatePosition hstable.toLoopStable _ _

theorem preserves_applyFill (env : Env) (r : TradeResponse) : Preserves Inv (applyFill env r) := by
  refine Preserves.bind (preserves_onBook hstable.toStable _ fun w h =>
    hstable.updateTrade w _ _ _ _ _ _ h) fun _ => ?_
  intro w h
  rw [run_bind, run_findOrder]
  cases he : w.book.findOrder r.internalOrderId with
  | none => exact h
  | some order =>
      simp only
      split
      · exact preserves_settleTrade hstable he h
      · exact h

theorem preserves_releaseAfterResponse (orderId : InternalOrderId) :
    Preserves Inv (releaseAfterResponse orderId) := by
  refine Preserves.bind Preserves.read fun found => ?_
  split
  · exact Preserves.pure _
  · refine Preserves.ite ?_ (Preserves.pure _)
    exact Preserves.bind (preserves_releaseOrderResources hstable _) fun _ =>
      Preserves.ite (preserves_releaseOrderResources hstable _) (Preserves.pure _)

theorem preserves_archiveOrder (now : TimestampNs) (orderId : InternalOrderId) :
    Preserves Inv (archiveOrder now orderId) :=
  preserves_onBook hstable.toStable now fun w h => hstable.archive w orderId h

theorem preserves_archiveAfterResponse (cfg : Config) (env : Env) (r : TradeResponse) :
    Preserves Inv (archiveAfterResponse cfg env r) :=
  Preserves.ite (preserves_clearArchiveDeadline hstable.toLoopStable _) (Preserves.ite
    (Preserves.bind (preserves_archiveOrder hstable _ _) fun _ =>
      preserves_clearArchiveDeadline hstable.toLoopStable _)
    (preserves_setArchiveDeadline hstable.toLoopStable _ _))

theorem preserves_handleTradeResponse (cfg : Config) (env : Env) (r : TradeResponse) :
    Preserves Inv (handleTradeResponse cfg env r) := by
  refine Preserves.bind (Preserves.ite (hstable.toEngineStable.engineRules.engineOnTradeResponse r)
    (Preserves.pure _)) fun _ => Preserves.ite (Preserves.pure _) ?_
  refine Preserves.bind (preserves_updateState hstable.toStable _ _ _) fun _ => ?_
  refine Preserves.bind (Preserves.ite (preserves_applyFill hstable env r) (Preserves.pure _))
    fun _ => ?_
  exact Preserves.bind (preserves_releaseAfterResponse hstable _) fun _ =>
    preserves_archiveAfterResponse hstable cfg env r

theorem preserves_processPendingArchives (env : Env) (nowNs : TimestampNs) :
    Preserves Inv (processPendingArchives env nowNs) := by
  refine Preserves.bind Preserves.read fun due => Preserves.forEach (fun orderId => ?_) due
  have hclear := preserves_clearArchiveDeadline hstable.toLoopStable orderId
  refine Preserves.bind Preserves.read fun found => ?_
  split
  · exact hclear
  · exact Preserves.ite (Preserves.bind (preserves_archiveOrder hstable _ _) fun _ => hclear) hclear

/-- Every call preserves the property. -/
theorem preserves_program (cfg : Config) (env : Env) (event : Event) :
    Preserves Inv (event.program cfg env) := by
  cases event with
  | orderRequest index request => exact preserves_handleOrderRequest hstable cfg env index request
  | tradeResponse r => exact preserves_handleTradeResponse hstable cfg env r
  | engineTick nowNs =>
      exact hstable.toEngineStable.engineRules.tickEngine (fun _ _ _ => trivial) cfg env nowNs
  | pendingArchives nowNs => exact preserves_processPendingArchives hstable env nowNs
  | routeCancel origId cancelId time =>
      exact Preserves.bind (hstable.toStable.routerRules.routeCancel (fun _ _ _ => trivial)
        (fun _ _ _ => trivial) _ _ _ _) fun _ => Preserves.pure _

end Preserves

end Service

/-! ## Reachable states -/

/-- The states of the service: it starts with an empty book over a table whose keys have rows, takes
calls in any order, and may be restarted over the same shared memory. -/
inductive World.Reachable (cfg : Config) : World → Prop where
  | start {w : World} (hbook : w.book = OrderBook.empty) (hrows : w.positions.WellIndexed) :
      Reachable cfg w
  | step {w : World} (hw : Reachable cfg w) (call : Env × Event) : Reachable cfg (w.step cfg call)
  | restart {w : World} (hw : Reachable cfg w) (load : PositionManager → Bool × PositionManager)
      (now : TimestampNs) (hinit : w.positions.header.initState = 1)
      (hok : (w.positions.initializePositions load).1 = true) : Reachable cfg (w.restart load now)

theorem World.Reachable.run {cfg : Config} {w : World} (hw : w.Reachable cfg)
    (calls : List (Env × Event)) : (w.run cfg calls).Reachable cfg := by
  induction calls generalizing w with
  | nil => exact hw
  | cons call rest ih => exact ih (hw.step call)

/-- No order has the id 0, and every security of the map has a row. -/
structure World.Indexed (w : World) : Prop where
  zero : w.book.terms 0 = none
  rows : w.positions.WellIndexed

theorem World.Indexed.withTerms {w : World} (h : w.Indexed) {b : OrderBook}
    (hterms : OrderBook.SameTerms w.book b) : World.Indexed { w with book := b } :=
  ⟨(hterms.terms 0).trans h.zero, h.rows⟩

theorem World.Indexed.stable : HandlerStable World.Indexed where
  shared _ _ _ _ _ h := ⟨h.zero, h.rows⟩
  nextOrderId w h := by
    obtain ⟨_, _, _, heq⟩ := w.allocateOrderId_eq
    rw [heq]
    exact ⟨h.zero, h.rows⟩
  -- A new order has an id, so the id 0 stays free.
  addOrder w entry now _ h := by
    refine ⟨?_, h.rows⟩
    cases hok : (w.book.addOrder entry now).ok with
    | false =>
        rw [OrderBook.addOrder_of_not_ok hok]
        exact h.zero
    | true =>
        rw [OrderBook.terms_addOrder hok, if_neg ((OrderBook.addOrder_ok_iff _ _ _).1 hok).1.symm]
        exact h.zero
  updateState _ _ _ _ h := h.withTerms (OrderBook.sameTerms_updateState _ _ _ _)
  engine _ _ _ h := ⟨h.zero, h.rows⟩
  markManagedParent _ _ h := h.withTerms (OrderBook.sameTerms_markManagedParent _ _)
  syncManagedParentView _ _ _ _ _ h :=
    h.withTerms (OrderBook.sameTerms_syncManagedParentView _ _ _ _ _)
  beside _ _ _ _ hstep h := ⟨h.zero, h.rows.rowStep hstep⟩
  annotate w orderId _ hf h := h.withTerms (w.book.sameTerms_annotate orderId hf)
  updateTrade _ _ _ _ _ _ _ h := h.withTerms (OrderBook.sameTerms_updateTrade _ _ _ _ _ _ _)
  -- The settlement writes an order that is live.
  settle w orderId out h := by
    refine ⟨?_, h.rows.count_le, h.rows.row_le⟩
    rw [World.settle, OrderBook.terms_setFrozen]
    split
    next heq => rw [← heq, h.zero, Option.map_none]
    next => exact h.zero
  archive w orderId h := by
    refine ⟨?_, h.rows⟩
    rw [World.archive, OrderBook.terms_archiveOrder]
    split
    · rfl
    · exact h.zero

theorem World.Reachable.indexed {cfg : Config} {w : World} (hw : w.Reachable cfg) : w.Indexed := by
  induction hw with
  | start hbook hrows => exact ⟨by rw [hbook]; rfl, hrows⟩
  | step _ call ih => exact Service.preserves_program World.Indexed.stable cfg call.1 call.2 _ ih
  | @restart w _ load now hinit hok _ =>
      refine ⟨?_, PositionManager.wellIndexed_initializePositions hinit load hok⟩
      simp only [World.restart]
      cases w.ordersShm with
      | none => rfl
      | some shm =>
          -- Recovery takes no slot without an order id.
          cases hzero : (recoverDownstreamActiveOrders shm w.upstreamNextOrderId now
              OrderBook.empty).terms 0 with
          | none => rfl
          | some t =>
              obtain ⟨index, ⟨⟨-, heligible, hid⟩, -⟩, -⟩ :=
                (recoveredFrom_recover shm w.upstreamNextOrderId now).sound 0 t hzero
              simp only [Recovery.eligible, Bool.and_eq_true, decide_eq_true_eq] at heligible
              exact absurd hid heligible.1.2

/-- A start with a fresh position table. -/
theorem World.reachable_start (cfg : Config) (fund : FundInfo)
    (risk : RiskConfig) (shm : OrdersShm) : (World.start fund risk shm).Reachable cfg := by
  refine World.Reachable.start rfl ⟨Nat.zero_le _, ?_⟩
  exact fun _ _ hlookup => absurd hlookup (by simp [World.start])

theorem workingBuy_reachable : workingBuy.Reachable {} := (World.reachable_start _ _ _ _).run _

end AccountServices
