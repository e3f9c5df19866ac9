import AccountServices.Order.BookTerms
import AccountServices.Portfolio.FundLedger
import AccountServices.Portfolio.PositionRows
import AccountServices.Core.EventLoop

/-!
# Reservations and their settlement

The effect of a fill and of a release on the FUND row and on the reservation of one order, as
functions of these two, and the theorems that the programs of the event loop have exactly these
effects.
-/

set_option autoImplicit false

namespace AccountServices

open Foundation

/-! ## The two effects -/

/-- The effect of a fill of a new order: the FUND row and what is left of the reservation. A fill
that is refused leaves both. -/
def fillEffect (f : FundInfo) (frozen : DValue) (r : TradeResponse) : FundInfo × DValue :=
  match r.tradeSide with
  | .buy =>
      if frozen = 0 then ((f.applyBuyTradeFund r.dvalueTraded r.dfee).getD f, frozen)
      else
        match f.deductFund r.dvalueTraded r.dfee with
        | none => (f, frozen)
        | some g =>
            (g, if frozen ≥ r.dvalueTraded + r.dfee then frozen - (r.dvalueTraded + r.dfee) else 0)
  | .sell => ((f.applySellTradeFund r.dvalueTraded r.dfee).getD f, frozen)
  | .notSet => (f, frozen)

/-- The effect of a release. -/
def releaseEffect (f : FundInfo) (e : OrderEntry) : FundInfo × DValue :=
  if e.request.reserves ∧ e.fundFrozen ≠ 0 then
    match f.unfreezeFund e.fundFrozen with
    | none => (f, e.fundFrozen)
    | some g => (g, 0)
  else (f, e.fundFrozen)

/-- The reservation of one order is set. -/
def OrderBook.setFrozen (b : OrderBook) (orderId : InternalOrderId) (frozen : DValue) : OrderBook :=
  b.modifyOrder orderId fun e => { e with fundFrozen := frozen }

/-- The FUND row and the reservation of one order are set. -/
def World.settle (w : World) (orderId : InternalOrderId) (out : FundInfo × DValue) : World :=
  { w with
    positions := { w.positions with fund := out.1 }
    book := w.book.setFrozen orderId out.2 }

namespace OrderBook

variable {b : OrderBook} {orderId : InternalOrderId} {e : OrderEntry}

theorem setFrozen_of_eq (he : b.findOrder orderId = some e) :
    b.setFrozen orderId e.fundFrozen = b := by
  rw [setFrozen, modifyOrder]
  rw [SlotTable.modify_of_eq]
  intro v hv
  have : v = e := Option.some.inj (hv.symm.trans he)
  rw [this]

theorem findOrder_setFrozen (b : OrderBook) (orderId : InternalOrderId) (frozen : DValue)
    (id : InternalOrderId) :
    (b.setFrozen orderId frozen).findOrder id =
      if id = orderId then (b.findOrder orderId).map fun e => { e with fundFrozen := frozen }
      else b.findOrder id :=
  findOrder_modifyOrder b orderId _ id

theorem findOrder_setFrozen_self (he : b.findOrder orderId = some e) (frozen : DValue) :
    (b.setFrozen orderId frozen).findOrder orderId = some { e with fundFrozen := frozen } := by
  rw [findOrder_setFrozen, if_pos rfl, he, Option.map_some]

theorem reserved_setFrozen (he : b.findOrder orderId = some e) (frozen : DValue) :
    (b.setFrozen orderId frozen).reserved + e.fundFrozen.toNat = b.reserved + frozen.toNat :=
  SlotTable.total_modify (fun e => { e with fundFrozen := frozen })
    (fun e => e.terms.fundFrozen.toNat) he

end OrderBook

theorem PositionManager.onFund_fund (m : PositionManager) (op : FundInfo → Option FundInfo) :
    (m.onFund op).2 = { m with fund := (op m.fund).getD m.fund } := by
  rw [onFund]
  cases op m.fund with
  | none => rfl
  | some g => rfl

theorem PositionManager.onFund_ok (m : PositionManager) (op : FundInfo → Option FundInfo) :
    (m.onFund op).1 = (op m.fund).isSome := by
  rw [onFund]
  cases op m.fund with
  | none => rfl
  | some g => rfl

/-- The total of value and fee is formed exactly when the addition does not wrap. -/
theorem tryTotalWithFee_eq (amount fee : DValue) :
    tryTotalWithFee amount fee = if amount + fee < amount then none else some (amount + fee) := by
  rw [tryTotalWithFee]
  split
  next hgt => rw [if_pos ((Word.add_lt_self_iff amount fee).2 (by omega))]
  next hle =>
    rw [if_neg (by rw [Word.add_lt_self_iff]; omega)]
    rfl

namespace Service

variable {w : World} {orderId : InternalOrderId} {e : OrderEntry}

/-- A release of an order that is not in the book does nothing. -/
theorem run_releaseOrderResources_none (h : w.book.findOrder orderId = none) :
    (releaseOrderResources orderId).run w = ((), w) := by
  rw [releaseOrderResources]
  rw [Program.run_bind, run_findOrder, h]
  rfl

/-- A release settles its order with the effect of a release. -/
theorem run_releaseOrderResources (h : w.book.findOrder orderId = some e) :
    (releaseOrderResources orderId).run w =
      ((), w.settle orderId (releaseEffect w.positions.fund e)) := by
  have hsame : w.settle orderId (w.positions.fund, e.fundFrozen) = w := by
    rw [World.settle]
    rw [OrderBook.setFrozen_of_eq h]
  rw [releaseOrderResources, releaseEffect]
  rw [Program.run_bind, run_findOrder, h]
  by_cases hskip : e.request.reserves = true ∧ e.fundFrozen ≠ 0
  · have hgo : ¬ (¬ e.request.reserves = true ∨ e.fundFrozen = 0) := by
      rintro (hr | hz)
      · exact hr hskip.1
      · exact hskip.2 hz
    simp only
    rw [if_neg hgo, if_pos hskip, Program.run_bind, run_onFund]
    cases hop : w.positions.fund.unfreezeFund e.fundFrozen with
    | none =>
        rw [PositionManager.onFund_ok, PositionManager.onFund_fund, hop]
        exact congrArg (Prod.mk ()) hsame.symm
    | some g =>
        rw [PositionManager.onFund_ok, PositionManager.onFund_fund, hop]
        rfl
  · have hgo : ¬ e.request.reserves = true ∨ e.fundFrozen = 0 := by
      by_cases hr : e.request.reserves = true
      · exact Or.inr (Classical.byContradiction fun hz => hskip ⟨hr, hz⟩)
      · exact Or.inl hr
    simp only
    rw [if_pos hgo, if_neg hskip, hsame]
    rfl

/-- The settlement of a buy fill. -/
theorem run_settleBuyTradeFund (r : TradeResponse) (hside : r.tradeSide = .buy)
    (h : w.book.findOrder orderId = some e) :
    ((settleBuyTradeFund orderId r.dvalueTraded r.dfee).run w).2 =
      w.settle orderId (fillEffect w.positions.fund e.fundFrozen r) := by
  have hsame : ∀ f, w.settle orderId (f, e.fundFrozen) =
      { w with positions := { w.positions with fund := f } } := by
    intro f
    simp only [World.settle]
    rw [OrderBook.setFrozen_of_eq h]
  simp only [settleBuyTradeFund, fillEffect]
  rw [Program.run_bind, run_findOrder, h, hside]
  simp only
  -- Without a reservation the order pays from the available money.
  by_cases hzero : e.fundFrozen = 0
  · rw [if_pos hzero, if_pos hzero, run_onFund, PositionManager.onFund_fund, hsame]
  · rw [if_neg hzero, if_neg hzero, tryTotalWithFee_eq]
    -- The total with the fee overflows, which the caller and `deductFund` both refuse.
    by_cases hwrap : r.dvalueTraded + r.dfee < r.dvalueTraded
    · have hnone : w.positions.fund.deductFund r.dvalueTraded r.dfee = none := by
        rw [FundInfo.deductFund, if_pos hwrap]
      rw [if_pos hwrap, hnone, hsame]
      rfl
    · rw [if_neg hwrap]
      simp only
      rw [Program.run_bind, run_onFund]
      -- The fund cannot pay.
      cases hop : w.positions.fund.deductFund r.dvalueTraded r.dfee with
      | none =>
          rw [PositionManager.onFund_ok, PositionManager.onFund_fund, hop]
          exact (hsame _).symm
      -- Paid: the order spends of its reservation, down to zero.
      | some g =>
          rw [PositionManager.onFund_ok, PositionManager.onFund_fund, hop]
          have hspend : w.book.modifyOrder orderId (fun e => e.spend (r.dvalueTraded + r.dfee)) =
              w.book.setFrozen orderId (e.spend (r.dvalueTraded + r.dfee)).fundFrozen := by
            simp only [OrderBook.setFrozen, OrderBook.modifyOrder]
            rw [SlotTable.modify_congr]
            intro v hv
            have : v = e := Option.some.inj (hv.symm.trans h)
            rw [this]
            rfl
          simp only [Option.isSome_some, if_true, Program.run_bind,
            run_modifyOrder, Program.run_pure, Option.getD_some]
          rw [hspend]
          rfl

/-- The settlement of the funds of a fill. -/
theorem run_settleFund (r : TradeResponse) (h : w.book.findOrder r.internalOrderId = some e) :
    ∃ errors, (settleFund r).run w =
      ((), { w.settle r.internalOrderId (fillEffect w.positions.fund e.fundFrozen r) with
        errors := errors }) := by
  have hsame : ∀ f, w.settle r.internalOrderId (f, e.fundFrozen) =
      { w with positions := { w.positions with fund := f } } := by
    intro f
    rw [World.settle]
    rw [OrderBook.setFrozen_of_eq h]
  -- An error is recorded or not; nothing else of the world depends on it.
  have hrecord : ∀ (ok : Bool) (v : World) (error : ErrorStatus), ∃ errors,
      (if ok = true then (pure () : Service Unit) else recordError error).run v =
        ((), { v with errors := errors }) := by
    intro ok v error
    cases ok with
    | true => exact ⟨v.errors, rfl⟩
    | false => exact ⟨_, rfl⟩
  rw [settleFund]
  cases hside : r.tradeSide with
  | buy =>
      simp only
      rw [Program.run_bind, run_settleBuyTradeFund r hside h]
      exact hrecord _ _ _
  | sell =>
      simp only
      rw [Program.run_bind, run_onFund, PositionManager.onFund_fund]
      have heff : fillEffect w.positions.fund e.fundFrozen r =
          ((w.positions.fund.applySellTradeFund r.dvalueTraded r.dfee).getD w.positions.fund,
            e.fundFrozen) := by
        rw [fillEffect]
        rw [hside]
      rw [heff, hsame]
      exact hrecord _ _ _
  | notSet =>
      have heff : fillEffect w.positions.fund e.fundFrozen r =
          (w.positions.fund, e.fundFrozen) := by
        rw [fillEffect]
        rw [hside]
      rw [heff, hsame]
      exact ⟨w.errors, rfl⟩

end Service

/-! ## What the event loop preserves -/

/-- A property of the world that the steps of the event loop preserve too, apart from those that
move reservations. -/
structure LoopStable (Adds : OrderEntry → Prop) (Inv : World → Prop) : Prop extends
    EngineStable Adds Inv where
  beside : ∀ (w : World) positions risk deadlines, w.positions.RowStep positions → Inv w →
    Inv { w with positions := positions, risk := risk, pendingArchiveDeadlines := deadlines }
  annotate : ∀ (w : World) orderId (f : OrderEntry → OrderEntry), (∀ e, (f e).terms = e.terms) →
    Inv w → Inv { w with book := w.book.modifyOrder orderId f }
  updateTrade : ∀ (w : World) orderId vol px val fee now, Inv w →
    Inv { w with book := (w.book.updateTrade orderId vol px val fee now).book }

theorem LoopStable.and {Adds Adds' : OrderEntry → Prop} {Inv Inv' : World → Prop}
    (h : LoopStable Adds Inv) (h' : LoopStable Adds' Inv') :
    LoopStable (fun e => Adds e ∧ Adds' e) fun w => Inv w ∧ Inv' w where
  shared w _ _ _ _ hw := ⟨h.shared w _ _ _ _ hw.1, h'.shared w _ _ _ _ hw.2⟩
  nextOrderId w hw := ⟨h.nextOrderId w hw.1, h'.nextOrderId w hw.2⟩
  addOrder w _ _ ha hw := ⟨h.addOrder w _ _ ha.1 hw.1, h'.addOrder w _ _ ha.2 hw.2⟩
  updateState w _ _ _ hw := ⟨h.updateState w _ _ _ hw.1, h'.updateState w _ _ _ hw.2⟩
  engine w _ _ hw := ⟨h.engine w _ _ hw.1, h'.engine w _ _ hw.2⟩
  markManagedParent w _ hw := ⟨h.markManagedParent w _ hw.1, h'.markManagedParent w _ hw.2⟩
  syncManagedParentView w _ _ _ _ hw :=
    ⟨h.syncManagedParentView w _ _ _ _ hw.1, h'.syncManagedParentView w _ _ _ _ hw.2⟩
  beside w _ _ _ hf hw := ⟨h.beside w _ _ _ hf hw.1, h'.beside w _ _ _ hf hw.2⟩
  annotate w _ _ hf hw := ⟨h.annotate w _ _ hf hw.1, h'.annotate w _ _ hf hw.2⟩
  updateTrade w _ _ _ _ _ _ hw :=
    ⟨h.updateTrade w _ _ _ _ _ _ hw.1, h'.updateTrade w _ _ _ _ _ _ hw.2⟩

/-- Terms do not change while an order is annotated. -/
theorem OrderBook.sameTerms_annotate (b : OrderBook) (orderId : InternalOrderId)
    {f : OrderEntry → OrderEntry} (hf : ∀ e, (f e).terms = e.terms) :
    OrderBook.SameTerms b (b.modifyOrder orderId f) := by
  cases he : b.findOrder orderId with
  | none =>
      have heq : b.modifyOrder orderId f = b := by
        rw [modifyOrder]
        rw [SlotTable.modify_of_eq]
        intro v hv
        exact absurd (hv.symm.trans he) (by simp)
      rw [heq]
      exact OrderBook.SameTerms.refl b
  | some e => exact OrderBook.sameTerms_modifyOrder he (hf e)

/-- The order is live with these terms. -/
def World.Live (orderId : InternalOrderId) (t : OrderTerms) (w : World) : Prop :=
  w.book.terms orderId = some t

/-- Apart from reservations and the archive, nothing that the event loop does ends an order or
changes its terms. -/
theorem stable_live (orderId : InternalOrderId) (t : OrderTerms) :
    LoopStable (fun _ => True) (World.Live orderId t) where
  shared _ _ _ _ _ h := h
  nextOrderId w h := by
    obtain ⟨_, _, _, heq⟩ := w.allocateOrderId_eq
    rw [heq]
    exact h
  addOrder _ entry now _ h := OrderBook.terms_addOrder_of_live h entry now
  updateState w id state now h :=
    ((OrderBook.sameTerms_updateState w.book id state now).terms orderId).trans h
  engine _ _ _ h := h
  markManagedParent w id h :=
    ((OrderBook.sameTerms_markManagedParent w.book id).terms orderId).trans h
  syncManagedParentView w id view state now h :=
    ((OrderBook.sameTerms_syncManagedParentView w.book id view state now).terms orderId).trans h
  beside _ _ _ _ _ h := h
  annotate w id _ hf h := ((w.book.sameTerms_annotate id hf).terms orderId).trans h
  updateTrade w id vol px val fee now h :=
    ((OrderBook.sameTerms_updateTrade w.book id vol px val fee now).terms orderId).trans h

theorem World.Live.exists_entry {orderId : InternalOrderId} {t : OrderTerms} {w : World}
    (h : World.Live orderId t w) : ∃ e, w.book.findOrder orderId = some e ∧ e.terms = t :=
  Option.map_eq_some_iff.1 h

namespace Service

section Preserves

open Program

variable {Adds : OrderEntry → Prop} {Inv : World → Prop} (hstable : LoopStable Adds Inv)

include hstable

theorem preserves_onPositions {α : Type} {op : PositionManager → α × PositionManager}
    (hop : ∀ m : PositionManager, m.RowStep (op m).2) : Preserves Inv (onPositions op) :=
  Preserves.atomic fun w h => hstable.beside w _ w.risk w.pendingArchiveDeadlines
    (hop w.positions) h

theorem preserves_clearArchiveDeadline (orderId : InternalOrderId) :
    Preserves Inv (clearArchiveDeadline orderId) :=
  Preserves.modify fun w h => hstable.beside w w.positions w.risk _ .same h

theorem preserves_setArchiveDeadline (orderId : InternalOrderId) (deadline : TimestampNs) :
    Preserves Inv (setArchiveDeadline orderId deadline) :=
  Preserves.modify fun w h => hstable.beside w w.positions w.risk _ .same h

theorem preserves_assignOrderId (env : Env) (index : OrderIndex) (request : OrderRequest) :
    Preserves Inv (assignOrderId env index request) :=
  Preserves.ite (Preserves.bind (preserves_allocateInternalOrderId hstable.toStable) fun _ =>
    Preserves.bind (preserves_onOrdersShm hstable.toStable _ _ _) fun _ => Preserves.pure _)
    (Preserves.pure _)

theorem preserves_passesRisk (env : Env) (request : OrderRequest) :
    Preserves Inv (passesRisk env request) := by
  refine Preserves.ite (Preserves.bind (Preserves.atomic fun w h => ?_) fun result =>
    Preserves.bind (Preserves.modify fun w h => ?_) fun _ => Preserves.pure _) (Preserves.pure _)
  · exact hstable.beside w w.positions _ w.pendingArchiveDeadlines .same h
  · exact hstable.annotate w _ _ (fun _ => rfl) h

theorem preserves_manageOrder (hsplit : AdmitsSplit Adds) (cfg : Config) (env : Env)
    (index : OrderIndex) (orderId : InternalOrderId) :
    Preserves Inv (manageOrder cfg env index orderId) := by
  refine Preserves.bind (Preserves.modify fun w h => hstable.annotate w _ _ (fun _ => rfl) h)
    fun _ =>
    Preserves.bind (preserves_updateState hstable.toStable _ _ _) fun _ =>
      Preserves.bind Preserves.read fun found => ?_
  split
  · exact Preserves.pure _
  · refine Preserves.bind (hstable.toEngineStable.engineRules.startSession hsplit _ _ _ _ _ _)
      fun result => Preserves.ite (Preserves.pure _) ?_
    exact Preserves.bind (preserves_updateState hstable.toStable _ _ _) fun _ =>
      Preserves.bind (preserves_updateStage hstable.toStable _ _ _) fun _ =>
        preserves_recordError hstable.toStable _

theorem preserves_ensurePositionRow (order : OrderEntry) (securityId : InternalSecurityId) :
    Preserves Inv (ensurePositionRow order securityId) := by
  refine Preserves.bind Preserves.read fun known => Preserves.ite (Preserves.pure _) ?_
  refine Preserves.bind (preserves_onPositions hstable fun _ => .addSecurity _ _ _) fun added => ?_
  split
  · exact preserves_recordError hstable.toStable _
  · exact Preserves.ite (Preserves.pure _) (preserves_recordError hstable.toStable _)

theorem preserves_updatePosition (r : TradeResponse) (securityId : InternalSecurityId) :
    Preserves Inv (updatePosition r securityId) := by
  rw [updatePosition]
  split
  · exact Preserves.bind (preserves_onPositions hstable fun _ => .onPosition _ _) fun ok =>
      Preserves.ite (Preserves.pure _) (preserves_recordError hstable.toStable _)
  · exact Preserves.bind (preserves_onPositions hstable fun _ => .onPosition _ _) fun ok =>
      Preserves.ite (Preserves.pure _) (preserves_recordError hstable.toStable _)
  · exact Preserves.pure _

end Preserves

end Service

end AccountServices
