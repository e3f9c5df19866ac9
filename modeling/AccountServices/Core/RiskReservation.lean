import AccountServices.Core.Admission
import AccountServices.Risk.PriceLimits

/-!
# Risk approval and reservation

What a buy order has to be covered by is computed twice: by the fund check of the risk manager, in
128 bits and with a fee of at least 1, and by `reserve_order_resources`, in checked steps of 64
bits. The second amount is never above the first one, so an order that the risk manager has approved
can be reserved.
-/

set_option autoImplicit false

namespace AccountServices

open Foundation

/-- The amount that an order is worth with its fee. -/
def OrderRequest.worth (request : OrderRequest) : Nat :=
  request.volumeEntrust.toNat * request.dpriceEntrust.toNat + request.dfeeEstimate.toNat

/-- The amount that `fund_check_rule::check` compares with the available fund. -/
def OrderRequest.requirement (request : OrderRequest) : Nat :=
  request.volumeEntrust.toNat * request.dpriceEntrust.toNat +
    if request.dfeeEstimate = 0 ∧ request.volumeEntrust.toNat * request.dpriceEntrust.toNat > 0 then
      1
    else request.dfeeEstimate.toNat

/-- The manager has a fund check that is switched on. -/
def RiskManager.ChecksFund (m : RiskManager) : Prop :=
  ∃ rule ∈ m.rules, rule.enabled = true ∧ rule.kind = .fundCheck

/-! ## The two amounts -/

namespace OrderRequest

variable (request : OrderRequest)

theorem worth_le_requirement : request.worth ≤ request.requirement := by
  simp only [worth, requirement]
  split
  next h =>
    rw [h.1, UInt64.toNat_zero]
    omega
  next => exact Nat.le_refl _

/-- The product of two words and a fee stay within 128 bits. -/
theorem requirement_lt : request.requirement < 2 ^ 128 := by
  have hvolume : request.volumeEntrust.toNat ≤ 2 ^ 64 - 1 :=
    Nat.le_sub_one_of_lt request.volumeEntrust.toNat_lt
  have hprice : request.dpriceEntrust.toNat ≤ 2 ^ 64 - 1 :=
    Nat.le_sub_one_of_lt request.dpriceEntrust.toNat_lt
  have hfee := request.dfeeEstimate.toNat_lt
  have hproduct := Nat.mul_le_mul hvolume hprice
  simp only [requirement]
  split <;> omega

/-- The fund check rejects an order if and only if its requirement is above the available fund. -/
theorem checkFund_eq (hbuy : request.tradeSide = .buy) (positions : PositionManager) :
    RiskRule.checkFund request positions =
      if request.requirement > positions.fund.available.toNat then
        .reject .rejectInsufficientFund "insufficient available fund"
      else .pass := by
  have hfold : (request.volumeEntrust.toNat * request.dpriceEntrust.toNat +
      if request.dfeeEstimate = 0 ∧
        request.volumeEntrust.toNat * request.dpriceEntrust.toNat > 0 then 1
      else request.dfeeEstimate.toNat) = request.requirement := rfl
  have hsum : ¬ request.requirement < request.volumeEntrust.toNat *
      request.dpriceEntrust.toNat := by
    simp only [requirement]
    omega
  simp only [RiskRule.checkFund, hbuy, ne_eq, not_true_eq_false, if_false, hfold,
    Nat.mod_eq_of_lt request.requirement_lt, hsum, false_or]

/-- What is worth less than a word can be computed in words. -/
theorem reservationTotal_of_lt (h : request.worth < 2 ^ 64) :
    ∃ total, reservationTotal request = some total ∧ total.toNat = request.worth := by
  simp only [worth] at h
  have hproduct : ¬ request.volumeEntrust.toNat * request.dpriceEntrust.toNat >
      0xFFFFFFFFFFFFFFFF := by omega
  have hvalue : (UInt64.ofNat (request.volumeEntrust.toNat * request.dpriceEntrust.toNat)).toNat =
      request.volumeEntrust.toNat * request.dpriceEntrust.toNat :=
    UInt64.toNat_ofNat_of_lt' (show _ < 2 ^ 64 by omega)
  refine ⟨UInt64.ofNat request.worth, ?_, UInt64.toNat_ofNat_of_lt' h⟩
  simp only [reservationTotal, tryCalculateTradeValue, if_neg hproduct, tryTotalWithFee, hvalue]
  exact if_neg (by omega)

end OrderRequest

/-- An order whose worth the fund covers is frozen, when the sum of the fund is a word. -/
theorem FundInfo.freezeFund_isSome {f : FundInfo} {amount : DValue}
    (hcovered : amount.toNat ≤ f.available.toNat)
    (hsum : f.available.toNat + f.frozen.toNat < 2 ^ 64) :
    ∃ g, f.freezeFund amount = some g := by
  have hwrap : ¬ f.frozen + amount < f.frozen := by
    rw [Word.add_lt_self_iff]
    omega
  have hlt : ¬ f.available < amount := by
    rw [Word.lt_iff]
    omega
  exact ⟨_, (if_neg hlt).trans (if_neg hwrap)⟩

namespace RiskManager

variable {m : RiskManager} {request : OrderRequest} {positions : PositionManager}
  {now : TimestampNs}

/-- A fund check that is switched on answers a new buy order by its requirement. -/
theorem check_fundCheck {rule : RiskRule} (henabled : rule.enabled = true)
    (hkind : rule.kind = .fundCheck)
    (hnew : request.orderType = .new) (hbuy : request.tradeSide = .buy) :
    (rule.check request positions now).1 =
      if request.requirement > positions.fund.available.toNat then
        .reject .rejectInsufficientFund "insufficient available fund"
      else .pass := by
  simp only [RiskRule.check, henabled, not_true_eq_false, hnew, ne_eq, or_self, if_false, hkind]
  exact request.checkFund_eq hbuy positions

/-- An order that the manager passes is covered by the available fund. -/
theorem requirement_le_of_passed (hchecks : m.ChecksFund) (hnew : request.orderType = .new)
    (hbuy : request.tradeSide = .buy)
    (hpassed : (m.checkOrder request positions now).1.passed = true) :
    request.requirement ≤ positions.fund.available.toNat := by
  obtain ⟨rule, hmem, henabled, hkind⟩ := hchecks
  by_contra hover
  have hreject : (rule.check request positions now).1.passed = false := by
    rw [check_fundCheck henabled hkind hnew hbuy, if_pos (Nat.lt_of_not_le hover)]
    rfl
  have hrejected := checkRules_rejects .pass ⟨rule, hmem, henabled, hreject⟩
  rw [show (m.checkOrder request positions now).1 = _ from rfl] at hpassed
  exact absurd (hpassed.symm.trans hrejected) (by decide)

end RiskManager

/-! ## Orders that are not approved -/

/-- The fee that `handle_order_request` estimates depends neither on the id nor on the key. -/
theorem worth_prepareOrderEstimate (cfg : Config) {request base : OrderRequest}
    (h : request.Completes base) (hfee : request.dfeeEstimate = base.dfeeEstimate) :
    (prepareOrderEstimate cfg request).worth = (prepareOrderEstimate cfg base).worth := by
  simp only [prepareOrderEstimate, h.orderType, hfee, h.volumeEntrust, h.dpriceEntrust, h.tradeSide]
  split
  next => simp only [OrderRequest.worth, h.volumeEntrust, h.dpriceEntrust, hfee]
  split
  next => simp only [OrderRequest.worth, h.volumeEntrust, h.dpriceEntrust, hfee]
  split
  next => simp only [OrderRequest.worth, h.volumeEntrust, h.dpriceEntrust, hfee]
  next => rfl

namespace Service

open Program

/-- Beside the risk check, the steps that admit an order leave the tables and the risk manager
alone. -/
theorem stable_tables (w : World) :
    Stable (fun _ => True) fun v => v.positions = w.positions ∧ v.risk = w.risk where
  shared _ _ _ _ _ h := h
  nextOrderId v h := by
    refine ⟨Eq.trans ?_ h.1, Eq.trans ?_ h.2⟩
    · simp only [World.allocateOrderId]
      split <;> rfl
    · simp only [World.allocateOrderId]
      split <;> rfl
  addOrder _ _ _ _ h := h
  updateState _ _ _ _ h := h

/-- A request that the fund does not cover is admitted to the book at most: no fund and no position
is touched for it. -/
theorem positions_admitOrder_uncovered (cfg : Config) (env : Env) (index : OrderIndex)
    {request : OrderRequest} {w : World} (hchecks : w.risk.ChecksFund)
    (hnew : request.orderType = .new) (hbuy : request.tradeSide = .buy)
    (hover : w.positions.fund.available.toNat < (prepareOrderEstimate cfg request).worth) :
    ((admitOrder cfg env index request).run w).2.positions = w.positions := by
  have hstable := stable_tables w
  have hassign : Preserves (fun v => v.positions = w.positions ∧ v.risk = w.risk)
      (assignOrderId env index request) :=
    Preserves.ite (Preserves.bind (preserves_allocateInternalOrderId hstable) fun _ =>
      Preserves.bind (preserves_onOrdersShm hstable _ _ _) fun _ => Preserves.pure _)
        (Preserves.pure _)
  have hcomplete : ((assignOrderId env index request).run w).1.Completes request ∧
      ((assignOrderId env index request).run w).1.dfeeEstimate = request.dfeeEstimate := by
    simp only [assignOrderId]
    split
    · exact ⟨(OrderRequest.Completes.refl request).withId _, rfl⟩
    · exact ⟨OrderRequest.Completes.refl request, rfl⟩
  have hv₁ := hassign w ⟨rfl, rfl⟩
  simp only [admitOrder]
  rw [run_bind]
  generalize (assignOrderId env index request).run w = assigned at hcomplete hv₁ ⊢
  have hworth := worth_prepareOrderEstimate cfg hcomplete.1 hcomplete.2
  have hprepared := hcomplete.1.prepared cfg
  generalize prepareOrderEstimate cfg assigned.1 = final at hworth hprepared ⊢
  have hv₂ := @preserves_addOrder _ _ hstable env.nowNs (requestEntry env index final)
    trivial assigned.2 hv₁
  rw [run_bind]
  generalize (addOrder env.nowNs (requestEntry env index final)).run assigned.2 = added at hv₂ ⊢
  split
  · have hv₃ := preserves_updateState hstable env.nowNs final.internalOrderId
      .riskControllerPending added.2 hv₂
    rw [run_bind]
    generalize (updateState env.nowNs final.internalOrderId .riskControllerPending).run
      added.2 = pending at hv₃ ⊢
    obtain ⟨risk, code, hrun⟩ := run_passesRisk (hprepared.orderType.trans hnew) env pending.2
    rw [run_bind, hrun, hv₃.1, hv₃.2]
    -- the risk manager is the one of the start, and it rejects the order
    have hrejected : (w.risk.checkOrder final w.positions env.monotonicNs).1.passed = false := by
      rw [Bool.eq_false_iff]
      intro hpassed
      have hcovered := RiskManager.requirement_le_of_passed hchecks (hprepared.orderType.trans hnew)
        (hprepared.tradeSide.trans hbuy) hpassed
      have hle := final.worth_le_requirement
      omega
    rw [hrejected, if_neg Bool.false_ne_true]
    have hlast := stable_tables { pending.2 with
      risk := risk
      positions := w.positions
      book := pending.2.book.modifyOrder final.internalOrderId fun e =>
        { e with riskResult := code } }
    exact (Preserves.bind
      (preserves_updateState hlast env.nowNs final.internalOrderId .riskControllerRejected)
      (fun _ => preserves_updateStage hlast index .riskRejected env.nowNs) _ ⟨rfl, rfl⟩).1
  · exact (Preserves.bind (preserves_updateStage hstable index .queuePushFailed env.nowNs)
      (fun _ => preserves_recordError hstable _) added.2 hv₂).1

theorem positions_handleOrderRequest_uncovered (cfg : Config) (env : Env) (index : OrderIndex)
    {request : OrderRequest} {w : World} (hchecks : w.risk.ChecksFund)
    (hnew : request.orderType = .new) (hbuy : request.tradeSide = .buy)
    (hover : w.positions.fund.available.toNat < (prepareOrderEstimate cfg request).worth) :
    ((handleOrderRequest cfg env index request).run w).2.positions = w.positions := by
  simp only [handleOrderRequest]
  split
  · have hstable := stable_tables w
    split
    · exact (Preserves.bind (preserves_onOrdersShm hstable _ _ _) (fun _ =>
        Preserves.bind (preserves_updateStage hstable _ _ _) fun _ =>
          preserves_recordError hstable _)
        w ⟨rfl, rfl⟩).1
    next key _ =>
      refine positions_admitOrder_uncovered cfg env index hchecks hnew hbuy ?_
      rw [worth_prepareOrderEstimate cfg (OrderRequest.Completes.withKey request key) rfl]
      exact hover
  · exact positions_admitOrder_uncovered cfg env index hchecks hnew hbuy hover

/-- Approval implies reservation. A new buy order that the risk manager passes, its fund check
switched on, is reserved without any overflow: its worth is moved to the frozen fund and is at most
what the check compared with the available fund. An order worth more than the available fund is
rejected by the check, and handling the request touches neither funds nor positions. -/
theorem approval_implies_reservation (cfg : Config) (env : Env) (index : OrderIndex) {w : World}
    {active : OrderEntry} (hchecks : w.risk.ChecksFund) (hnew : active.request.orderType = .new)
    (hbuy : active.request.tradeSide = .buy)
    (hsum : w.positions.fund.available.toNat + w.positions.fund.frozen.toNat < 2 ^ 64) :
    (((passesRisk env active.request).run w).1 = true →
      ((reserveOrderResources active).run ((passesRisk env active.request).run w).2).1 = true ∧
      active.request.volumeEntrust.toNat * active.request.dpriceEntrust.toNat < 2 ^ 64 ∧
      active.request.worth < 2 ^ 64 ∧
      ((reserveOrderResources active).run
        ((passesRisk env active.request).run w).2).2.positions.fund.available.toNat +
          active.request.worth = w.positions.fund.available.toNat ∧
      ((reserveOrderResources active).run
        ((passesRisk env active.request).run w).2).2.positions.fund.frozen.toNat =
          w.positions.fund.frozen.toNat + active.request.worth ∧
      active.request.worth ≤ active.request.requirement ∧
      active.request.requirement ≤ w.positions.fund.available.toNat) ∧
    (w.positions.fund.available.toNat < active.request.worth →
      (∀ rule ∈ w.risk.rules, rule.enabled = true → rule.kind = .fundCheck →
        (rule.check active.request w.positions env.monotonicNs).1 =
          .reject .rejectInsufficientFund "insufficient available fund") ∧
      ((passesRisk env active.request).run w).1 = false) ∧
    (w.positions.fund.available.toNat < (prepareOrderEstimate cfg active.request).worth →
      ((handleOrderRequest cfg env index active.request).run w).2.positions = w.positions) := by
  obtain ⟨risk, code, hrun⟩ := run_passesRisk hnew env w
  have hle := active.request.worth_le_requirement
  rw [hrun]
  refine ⟨fun hpassed => ?_, fun hover => ⟨?_, ?_⟩, positions_handleOrderRequest_uncovered
    cfg env index hchecks hnew hbuy⟩
  -- Approved, the request is covered by the available money, so neither the total nor the freeze
  -- overflows.
  · have hcovered := RiskManager.requirement_le_of_passed hchecks hnew hbuy hpassed
    have hword : active.request.worth < 2 ^ 64 := by omega
    obtain ⟨total, htotal, hvalue⟩ := active.request.reservationTotal_of_lt hword
    have hcover : total.toNat ≤ w.positions.fund.available.toNat := by omega
    obtain ⟨g, hfreeze⟩ := FundInfo.freezeFund_isSome hcover hsum
    obtain ⟨-, -, havailable, hfrozen⟩ := FundInfo.freezeFund_facts hfreeze
    have hreserves : active.request.reserves = true := decide_eq_true ⟨hnew, hbuy⟩
    have hproduct :
        active.request.volumeEntrust.toNat * active.request.dpriceEntrust.toNat < 2 ^ 64 :=
      Nat.lt_of_le_of_lt (Nat.le_add_right _ _) hword
    rw [← hvalue]
    -- Of the three ways to reserve, the order is a buy with a total and a fund that can freeze it.
    rcases run_reserveOrderResources { w with
        risk := risk
        book := w.book.modifyOrder active.request.internalOrderId fun e =>
          { e with riskResult := code } } active
      with ⟨hnone, -⟩ | ⟨total', g', -, htotal', hfreeze', hreserve⟩ | ⟨-, hrefused, -⟩
    · rw [hreserves] at hnone
      exact absurd hnone (by decide)
    · rw [htotal, Option.some.injEq] at htotal'
      subst htotal'
      rw [show w.positions.fund.freezeFund total = some g' from hfreeze',
        Option.some.injEq] at hfreeze
      subst hfreeze
      rw [hreserve]
      exact ⟨rfl, hproduct, hvalue ▸ hword, havailable, hfrozen, hvalue ▸ hle, hcovered⟩
    · exact absurd hfreeze (hrefused total g htotal)
  -- Every fund check refuses what costs more than is available.
  · intro rule _ henabled hkind
    rw [RiskManager.check_fundCheck henabled hkind hnew hbuy, if_pos (by omega)]
  -- An approval would have had the money.
  · rw [Bool.eq_false_iff]
    intro hpassed
    have hcovered := RiskManager.requirement_le_of_passed hchecks hnew hbuy hpassed
    omega

/-- A buy order of 5 shares at 10 with a fee of 2. -/
def coveredBuy : OrderEntry :=
  { request :=
      { internalOrderId := 1
        orderType := .new
        tradeSide := .buy
        volumeEntrust := 5
        dpriceEntrust := 10
        dfeeEstimate := 2 } }

/-- A service with 100 in its fund and the default rules. -/
def fundedWorld : World :=
  { World.start { totalAsset := 100, available := 100 } {} (OrdersShm.ofClients []) with
    ordersShm := none }

theorem approval_implies_reservation_covered :
    ((passesRisk {} coveredBuy.request).run fundedWorld).1 = true ∧
      ((reserveOrderResources coveredBuy).run
        ((passesRisk {} coveredBuy.request).run fundedWorld).2).2.positions.fund.frozen.toNat =
          52 := by
  have hchecks : fundedWorld.risk.ChecksFund := ⟨_, List.mem_cons_self, rfl, rfl⟩
  have hpassed : ((passesRisk {} coveredBuy.request).run fundedWorld).1 = true := by decide
  have hall := @approval_implies_reservation {} {} 0 fundedWorld coveredBuy
    hchecks rfl rfl (by decide)
  exact ⟨hpassed, (hall.1 hpassed).2.2.2.2.1⟩

end Service

end AccountServices
