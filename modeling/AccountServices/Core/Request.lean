import AccountServices.Core.Response

/-!
# What an order request does to funds and reservations

Up to steps that the event loop is free to take, `handle_order_request` adds one order without a
reservation and dispatches it. An order that the execution engine does not manage is then reserved
and routed, and released again when it cannot be routed.
-/

set_option autoImplicit false

namespace AccountServices

open Foundation

/-- The terms of an order that enters the book with this request. -/
def requestTerms (index : OrderIndex) (request : OrderRequest) : OrderTerms :=
  ({ request := request, shmOrderIndex := index } : OrderEntry).terms

/-- Whether a request is left to the router. -/
def Config.Unmanaged (cfg : Config) (request : OrderRequest) : Prop :=
  ¬ (cfg.hasExecutionEngine = true ∧ Service.shouldManage cfg request = true)

instance (cfg : Config) (request : OrderRequest) : Decidable (cfg.Unmanaged request) :=
  inferInstanceAs (Decidable (¬ _))

/-- The request that reaches the book: `handle_order_request` fills in the key, the id and the
fee. -/
structure OrderRequest.Completes (request base : OrderRequest) : Prop where
  orderType : request.orderType = base.orderType
  tradeSide : request.tradeSide = base.tradeSide
  origInternalOrderId : request.origInternalOrderId = base.origInternalOrderId
  passiveExecutionAlgo : request.passiveExecutionAlgo = base.passiveExecutionAlgo
  volumeEntrust : request.volumeEntrust = base.volumeEntrust
  dpriceEntrust : request.dpriceEntrust = base.dpriceEntrust

namespace OrderRequest.Completes

variable {request base : OrderRequest}

theorem refl (request : OrderRequest) : request.Completes request := ⟨rfl, rfl, rfl, rfl, rfl, rfl⟩

theorem trans {middle : OrderRequest} (h : request.Completes middle)
    (hbase : middle.Completes base) : request.Completes base where
  orderType := h.orderType.trans hbase.orderType
  tradeSide := h.tradeSide.trans hbase.tradeSide
  origInternalOrderId := h.origInternalOrderId.trans hbase.origInternalOrderId
  passiveExecutionAlgo := h.passiveExecutionAlgo.trans hbase.passiveExecutionAlgo
  volumeEntrust := h.volumeEntrust.trans hbase.volumeEntrust
  dpriceEntrust := h.dpriceEntrust.trans hbase.dpriceEntrust

theorem withKey (request : OrderRequest) (key : InternalSecurityId) :
    ({ request with internalSecurityId := key } : OrderRequest).Completes request :=
  ⟨rfl, rfl, rfl, rfl, rfl, rfl⟩

theorem withId (h : request.Completes base) (orderId : InternalOrderId) :
    ({ request with internalOrderId := orderId } : OrderRequest).Completes base :=
  ⟨h.orderType, h.tradeSide, h.origInternalOrderId, h.passiveExecutionAlgo, h.volumeEntrust,
    h.dpriceEntrust⟩

theorem prepared (h : request.Completes base) (cfg : Config) :
    (prepareOrderEstimate cfg request).Completes base := by
  rw [prepareOrderEstimate]
  split
  · exact h
  split
  · exact h
  split
  · exact h
  · exact ⟨h.orderType, h.tradeSide, h.origInternalOrderId, h.passiveExecutionAlgo, h.volumeEntrust,
      h.dpriceEntrust⟩

end OrderRequest.Completes

/-- The engine decides by the type and the algorithm of an order. -/
theorem Service.shouldManage_congr (cfg : Config) {request base : OrderRequest}
    (htype : request.orderType = base.orderType)
    (halgo : request.passiveExecutionAlgo = base.passiveExecutionAlgo) :
    shouldManage cfg request = shouldManage cfg base := by
  simp only [shouldManage, resolveExecutionStrategy]
  rw [htype, halgo]

namespace Service

open Program

/-- The reservation of an order: it needs none, or the total is frozen for it, or it cannot be. -/
theorem run_reserveOrderResources (w : World) (active : OrderEntry) :
    (active.request.reserves = false ∧ (reserveOrderResources active).run w = (true, w)) ∨
      (∃ total g, active.request.reserves = true ∧ reservationTotal active.request = some total ∧
        w.positions.fund.freezeFund total = some g ∧
        (reserveOrderResources active).run w =
          (true, w.settle active.request.internalOrderId (g, total))) ∨
      (active.request.reserves = true ∧
        (∀ total g, reservationTotal active.request = some total →
          w.positions.fund.freezeFund total ≠ some g) ∧
        (reserveOrderResources active).run w = (false, w)) := by
  rw [reserveOrderResources]
  cases hres : active.request.reserves with
  | false => exact Or.inl ⟨rfl, rfl⟩
  | true =>
      rw [if_neg (not_not.2 rfl)]
      refine Or.inr ?_
      cases htotal : reservationTotal active.request with
      | none => exact Or.inr ⟨rfl, fun _ _ h => absurd h (by simp), rfl⟩
      | some total =>
          simp only [run_bind, run_onFund, PositionManager.onFund_ok, PositionManager.onFund_fund]
          cases hfreeze : w.positions.fund.freezeFund total with
          | none =>
              refine Or.inr ⟨trivial, fun total' g h => ?_, rfl⟩
              rw [← Option.some.inj h, hfreeze]
              exact fun heq => absurd heq (by simp)
          | some g => exact Or.inl ⟨total, g, trivial, rfl, hfreeze, rfl⟩

/-- The rule for the route of an order: `Inv₁` holds before the reservation and `Inv₂` from then
on. -/
theorem ensures_routeNewOrder {Adds : OrderEntry → Prop} (Inv₁ : World → Prop) {Inv₂ : World → Prop}
    (hstable : LoopStable Adds Inv₂) {active : OrderEntry} {env : Env} {index : OrderIndex}
    (hweaken : ∀ w, Inv₁ w → Inv₂ w)
    (hreserve : ∀ w total g, Inv₁ w → active.request.reserves = true →
      w.positions.fund.freezeFund total = some g →
      Inv₂ (w.settle active.request.internalOrderId (g, total)))
    (hroute : Preserves Inv₂ (routeOrder env.nowNs active))
    (hrelease : ∀ w, Inv₂ w → Inv₂ (w.release active.request.internalOrderId)) {w : World}
    (hw : Inv₁ w) : Inv₂ ((routeNewOrder env index active).run w).2 := by
  -- Behind the reservation the route is tried; a failure releases what was reserved.
  have hrest : Preserves Inv₂ (do
      let routed ← routeOrder env.nowNs active
      if routed then pure ()
      else
        releaseOrderResources active.request.internalOrderId
        let _ ← updateState env.nowNs active.request.internalOrderId .traderError
        updateStage index .queuePushFailed env.nowNs
        recordError ⟨.order, .routeFailed, "EventLoop", "route_order failed"⟩) := by
    refine Preserves.bind hroute fun routed => Preserves.ite (Preserves.pure _) ?_
    refine Preserves.bind (fun v hv => ?_) fun _ =>
      Preserves.bind (preserves_updateState hstable.toStable _ _ _) fun _ =>
        Preserves.bind (preserves_updateStage hstable.toStable _ _ _) fun _ =>
          preserves_recordError hstable.toStable _
    rw [run_release]
    exact hrelease v hv
  -- Without one, the order is rejected.
  have hreject : Preserves Inv₂ (do
      let _ ← updateState env.nowNs active.request.internalOrderId .riskControllerRejected
      updateStage index .riskRejected env.nowNs) :=
    Preserves.bind (preserves_updateState hstable.toStable _ _ _) fun _ =>
      preserves_updateStage hstable.toStable _ _ _
  unfold routeNewOrder
  simp only
  rw [run_bind]
  obtain ⟨-, hrun⟩ | ⟨total, g, hres, -, hfreeze, hrun⟩ | ⟨-, -, hrun⟩ :=
    run_reserveOrderResources w active
  · rw [hrun]
    exact hrest w (hweaken w hw)
  · rw [hrun]
    exact hrest _ (hreserve w total g hw hres hfreeze)
  · rw [hrun]
    exact hreject w (hweaken w hw)

/-- The rule for order requests: what the event loop preserves holds when the new order, which was
not live before and holds no reservation, is dispatched. -/
theorem ensures_handleOrderRequest {Adds : OrderEntry → Prop} {Inv : World → Prop}
    (hstable : LoopStable Adds Inv) (hplain : AdmitsPlain Adds) {cfg : Config} {env : Env}
    {index : OrderIndex} {request : OrderRequest}
    (hdispatch : ∀ (complete : OrderRequest) (w₀ w : World), complete.Completes request → Inv w₀ →
      w₀.book.findOrder complete.internalOrderId = none → Inv w →
      World.Live complete.internalOrderId (requestTerms index complete) w →
      Inv ((dispatchOrder cfg env index complete.internalOrderId).run w).2) {w : World}
    (hw : Inv w) : Inv ((handleOrderRequest cfg env index request).run w).2 := by
  -- Both branches of the handler admit a request that is complete up to its key.
  have hadmit : ∀ complete : OrderRequest, complete.Completes request →
      Preserves Inv (admitOrder cfg env index complete) := by
    intro complete hcomplete v hv
    have hassigned : ((assignOrderId env index complete).run v).1.Completes request := by
      rw [assignOrderId]
      split
      · exact hcomplete.withId _
      · exact hcomplete
    have hv₁ := preserves_assignOrderId hstable env index complete v hv
    rw [admitOrder]
    rw [run_bind]
    set v₁ := ((assignOrderId env index complete).run v).2
    set final := prepareOrderEstimate cfg ((assignOrderId env index complete).run v).1
    have hprepared : final.Completes request := hassigned.prepared cfg
    simp only
    have hadds : Adds (requestEntry env index final) := hplain _ rfl rfl
    have hv₂ := preserves_addOrder hstable.toStable env.nowNs hadds v₁ hv₁
    rw [run_bind]
    cases hok : ((addOrder env.nowNs (requestEntry env index final)).run v₁).1 with
    -- The book refused the entry: only the stage of the slot and an error are written.
    | false =>
        exact Preserves.bind (preserves_updateStage hstable.toStable _ _ _)
          (fun _ => preserves_recordError hstable.toStable _) _ hv₂
    -- From here on the order is live with the terms of the request, whatever the risk check does.
    | true =>
        rw [addOrder, run_onBook] at hok
        have hlive : World.Live final.internalOrderId (requestTerms index final)
            ((addOrder env.nowNs (requestEntry env index final)).run v₁).2 := by
          rw [addOrder, run_onBook, World.Live, World.book_applyBook, OrderBook.terms_addOrder hok]
          exact if_pos rfl
        -- The invariant and the order together pass through the risk check.
        have hboth := hstable.and (stable_live final.internalOrderId (requestTerms index final))
        have hfront : Preserves (fun w => Inv w ∧
            World.Live final.internalOrderId (requestTerms index final) w)
            (do
              let _ ← updateState env.nowNs final.internalOrderId .riskControllerPending
              passesRisk env final) :=
          Preserves.bind (preserves_updateState hboth.toStable _ _ _) fun _ =>
            preserves_passesRisk hboth _ _
        have hv₃ := hfront _ ⟨hv₂, hlive⟩
        simp only [run_bind, if_true] at hv₃ ⊢
        -- Approved, it is dispatched; refused, it gets its state and the stage of its slot.
        split
        · have hv₄ := preserves_updateState hboth.toStable env.nowNs final.internalOrderId
            .riskControllerAccepted _ hv₃
          simp only [run_bind]
          exact hdispatch final v₁ _ hprepared hv₁ ((OrderBook.addOrder_ok_iff _ _ _).1 hok).2.1
            hv₄.1 hv₄.2
        · exact Preserves.bind (preserves_updateState hstable.toStable _ _ _)
            (fun _ => preserves_updateStage hstable.toStable _ _ _) _ hv₃.1
  rw [handleOrderRequest]
  split
  · split
    · exact Preserves.bind (preserves_onOrdersShm hstable.toStable _ _ _)
        (fun _ => Preserves.bind (preserves_updateStage hstable.toStable _ _ _) fun _ =>
          preserves_recordError hstable.toStable _) w hw
    · exact hadmit _ (OrderRequest.Completes.withKey request _) w hw
  · exact hadmit request (OrderRequest.Completes.refl request) w hw

end Service

end AccountServices
