import AccountServices.Core.Request
import AccountServices.Core.TerminalStates

/-!
# Frozen money and reservations

The FUND row keeps one number of frozen money for all orders, and every live order keeps its own
share of it. Two things can part the two sides. A fill of a buy order is paid from the common
number, so a fill above the share of its order takes the money of other orders. And an archived
order takes its share out of the book, so a share that could not be released before stays frozen for
nobody. In runs without either, the frozen money is what was frozen at the start plus the shares of
the live orders.
-/

set_option autoImplicit false

namespace AccountServices

open Foundation

/-! ## Fills that a reservation covers -/

/-- What a fill costs. -/
def TradeResponse.total (r : TradeResponse) : Nat := r.dvalueTraded.toNat + r.dfee.toNat

/-- The frozen money pays the fill, and the market value takes it. -/
def FundInfo.Pays (f : FundInfo) (r : TradeResponse) : Prop :=
  r.total ≤ f.frozen.toNat ∧ f.marketValue.toNat + r.dvalueTraded.toNat < 2 ^ 64

instance (f : FundInfo) (r : TradeResponse) : Decidable (f.Pays r) :=
  inferInstanceAs (Decidable (_ ∧ _))

/-- A buy fill is paid from the frozen money, and costs more than the order has reserved. -/
def Overdraws (f : FundInfo) (frozen : DValue) (r : TradeResponse) : Prop :=
  frozen ≠ 0 ∧ r.volumeTraded > 0 ∧ r.tradeSide = .buy ∧ f.Pays r ∧ frozen.toNat < r.total

theorem FundInfo.deductFund_isSome_iff (f : FundInfo) (r : TradeResponse) :
    (f.deductFund r.dvalueTraded r.dfee).isSome = true ↔ f.Pays r := by
  have hfrozen := f.frozen.toNat_lt
  have hwrap := Word.add_lt_self_iff r.dvalueTraded r.dfee
  have hvalue := Word.add_lt_self_iff f.marketValue r.dvalueTraded
  rw [FundInfo.deductFund, FundInfo.Pays, TradeResponse.total]
  split
  next h =>
    rw [hwrap] at h
    exact iff_of_false (by simp) (by omega)
  next h =>
    have hsum := (Word.toNat_add_of_not_lt h).2
    split
    next h' =>
      rw [Word.lt_iff, hsum] at h'
      exact iff_of_false (by simp) (by omega)
    next h' =>
      rw [Word.lt_iff, hsum] at h'
      split
      next h'' =>
        rw [hvalue] at h''
        exact iff_of_false (by simp) (by omega)
      next h'' =>
        rw [hvalue] at h''
        exact iff_of_true (by simp) ⟨by omega, by omega⟩

/-- A fill of an order with a reservation that is paid from it. -/
theorem fillEffect_paid {f : FundInfo} {frozen : DValue} {r : TradeResponse} (hne : frozen ≠ 0)
    (hside : r.tradeSide = .buy) (hpays : f.Pays r) :
    (fillEffect f frozen r).1.frozen.toNat + r.total = f.frozen.toNat ∧
      (fillEffect f frozen r).1.available = f.available ∧
      (fillEffect f frozen r).2.toNat = frozen.toNat - r.total := by
  obtain ⟨g, hg⟩ := Option.isSome_iff_exists.1 ((f.deductFund_isSome_iff r).2 hpays)
  obtain ⟨htotal, havail, -, -, hfrozen⟩ := FundInfo.deductFund_facts hg
  have heff : fillEffect f frozen r =
      (g, if frozen ≥ r.dvalueTraded + r.dfee then frozen - (r.dvalueTraded + r.dfee) else 0) := by
    rw [fillEffect]
    rw [hside]
    simp only
    rw [if_neg hne, hg]
  have hsum := Word.toNat_add_of_lt htotal
  rw [heff]
  refine ⟨hfrozen, havail, ?_⟩
  rw [TradeResponse.total]
  simp only
  split
  next hge => rw [UInt64.toNat_sub_of_le _ _ hge, hsum]
  next hlt =>
    rw [ge_iff_le, Word.le_iff, hsum] at hlt
    rw [UInt64.toNat_zero]
    omega

/-- Every other fill leaves the frozen money and the reservation alone. -/
theorem fillEffect_unpaid {f : FundInfo} {frozen : DValue} {r : TradeResponse}
    (h : ¬ (frozen ≠ 0 ∧ r.tradeSide = .buy ∧ f.Pays r)) :
    (fillEffect f frozen r).1.frozen = f.frozen ∧ (fillEffect f frozen r).2 = frozen := by
  rw [fillEffect]
  cases hside : r.tradeSide with
  | buy =>
      simp only
      split
      next hzero =>
        refine ⟨?_, rfl⟩
        cases hop : f.applyBuyTradeFund r.dvalueTraded r.dfee with
        | none => rfl
        | some g => exact (FundInfo.applyBuyTradeFund_facts hop).1
      next hne =>
        cases hop : f.deductFund r.dvalueTraded r.dfee with
        | none => exact ⟨rfl, rfl⟩
        | some g =>
            have hpays := (f.deductFund_isSome_iff r).1 (by rw [hop]; rfl)
            exact absurd ⟨hne, hside, hpays⟩ h
  | sell =>
      simp only
      refine ⟨?_, trivial⟩
      cases hop : f.applySellTradeFund r.dvalueTraded r.dfee with
      | none => rfl
      | some g => exact (FundInfo.applySellTradeFund_facts hop).1
  | notSet => exact ⟨rfl, rfl⟩

/-- A fill that the reservation covers moves frozen money and reservation by the same amount. -/
theorem fillEffect_balance {f : FundInfo} {frozen : DValue} {r : TradeResponse}
    (hvol : r.volumeTraded > 0) (h : ¬ Overdraws f frozen r) :
    (fillEffect f frozen r).1.frozen.toNat + frozen.toNat =
      f.frozen.toNat + (fillEffect f frozen r).2.toNat := by
  by_cases hpaid : frozen ≠ 0 ∧ r.tradeSide = .buy ∧ f.Pays r
  · obtain ⟨hne, hside, hpays⟩ := hpaid
    obtain ⟨h₁, -, h₂⟩ := fillEffect_paid hne hside hpays
    have hcovered : r.total ≤ frozen.toNat :=
      Nat.le_of_not_lt fun hlt => h ⟨hne, hvol, hside, hpays, hlt⟩
    omega
  · obtain ⟨h₁, h₂⟩ := fillEffect_unpaid hpaid
    rw [h₁, h₂]

/-- No fill creates a reservation. -/
theorem fillEffect_ne_zero {f : FundInfo} {frozen : DValue} {r : TradeResponse}
    (h : (fillEffect f frozen r).2 ≠ 0) : frozen ≠ 0 := by
  intro hzero
  rw [(fillEffect_unpaid fun hpaid => hpaid.1 hzero).2] at h
  exact h hzero

/-- A release moves frozen money and reservation by the same amount. -/
theorem releaseEffect_balance (f : FundInfo) (e : OrderEntry) :
    (releaseEffect f e).1.frozen.toNat + e.fundFrozen.toNat =
      f.frozen.toNat + (releaseEffect f e).2.toNat := by
  rw [releaseEffect]
  split
  next h =>
    cases hop : f.unfreezeFund e.fundFrozen with
    | none => rfl
    | some g => exact (FundInfo.unfreezeFund_facts hop).2.2.2
  next => rfl

theorem releaseEffect_ne_zero {f : FundInfo} {e : OrderEntry} (h : (releaseEffect f e).2 ≠ 0) :
    e.fundFrozen ≠ 0 := by
  intro hzero
  rw [releaseEffect] at h
  rw [if_neg fun hgo => hgo.2 hzero] at h
  exact h hzero

/-! ## The invariant -/

/-- The frozen money is `base` plus the reservations of the live orders. Reservations belong to new
buy orders, no order is linked to another, and no order has the id 0. -/
structure FundsAccounted (base : Nat) (w : World) : Prop where
  balance : w.positions.fund.frozen.toNat = base + w.book.reserved
  holders : ∀ id t, w.book.terms id = some t → t.fundFrozen ≠ 0 →
    t.orderType = .new ∧ t.tradeSide = .buy
  unlinked : w.book.Unlinked
  zero : w.book.terms 0 = none

/-- The orders that such a service adds: without a reservation and without a parent. -/
def AddsPlain (e : OrderEntry) : Prop := e.fundFrozen = 0 ∧ e.isSplitChild = false

theorem admitsPlain : AdmitsPlain AddsPlain := fun _ hplain hzero => ⟨hzero, hplain⟩

namespace FundsAccounted

variable {base : Nat} {w v : World} {orderId : InternalOrderId} {e : OrderEntry}

theorem quiet (h : FundsAccounted base w) (hquiet : w.Quiet v) : FundsAccounted base v where
  balance := by rw [hquiet.fund, hquiet.terms.reserved, h.balance]
  holders id t ht := h.holders id t ((hquiet.terms.terms id).symm.trans ht)
  unlinked := hquiet.links.trans h.unlinked
  zero := (hquiet.terms.terms 0).trans h.zero

theorem addOrder (h : FundsAccounted base w) {entry : OrderEntry} (hadds : AddsPlain entry)
    (now : TimestampNs) :
    FundsAccounted base { w with book := (w.book.addOrder entry now).book } where
  balance := h.balance.trans (congrArg (base + ·) (OrderBook.reserved_addOrder now hadds.1).symm)
  holders id t ht hne := by
    cases hok : (w.book.addOrder entry now).ok with
    | false =>
        rw [OrderBook.addOrder_of_not_ok hok] at ht
        exact h.holders id t ht hne
    | true =>
        rw [OrderBook.terms_addOrder hok] at ht
        split at ht
        · exact absurd hadds.1 (by rw [← Option.some.inj ht] at hne; exact hne)
        · exact h.holders id t ht hne
  unlinked := (OrderBook.links_addOrder_plain w.book now hadds.2).trans h.unlinked
  zero := by
    cases hok : (w.book.addOrder entry now).ok with
    | false =>
        rw [OrderBook.addOrder_of_not_ok hok]
        exact h.zero
    | true =>
        rw [OrderBook.terms_addOrder hok, if_neg ((OrderBook.addOrder_ok_iff _ _ _).1 hok).1.symm]
        exact h.zero

theorem stable (base : Nat) : LoopStable AddsPlain (FundsAccounted base) :=
  LoopStable.of_quiet (fun _ _ hquiet h => h.quiet hquiet) fun _ _ now hadds h =>
    h.addOrder hadds now

/-- A settlement that moves frozen money and reservation by the same amount. -/
theorem settle (h : FundsAccounted base w) (he : w.book.findOrder orderId = some e)
    {out : FundInfo × DValue}
    (hholder : out.2 ≠ 0 → e.request.orderType = .new ∧ e.request.tradeSide = .buy)
    (hbalance : out.1.frozen.toNat + e.fundFrozen.toNat =
      w.positions.fund.frozen.toNat + out.2.toNat) :
    FundsAccounted base (w.settle orderId out) where
  balance := by
    have hreserved := OrderBook.reserved_setFrozen he out.2
    have hle := OrderBook.le_reserved he
    have hw := h.balance
    change out.1.frozen.toNat = base + (w.book.setFrozen orderId out.2).reserved
    omega
  holders id t ht hne := by
    change (w.book.setFrozen orderId out.2).terms id = some t at ht
    rw [OrderBook.terms_setFrozen] at ht
    split at ht
    next heq =>
      rw [OrderBook.terms, he, Option.map_some, Option.map_some, Option.some.injEq] at ht
      subst ht
      exact hholder hne
    next => exact h.holders id t ht hne
  unlinked := h.unlinked
  zero := by
    refine (OrderBook.terms_setFrozen w.book orderId out.2 0).trans ?_
    split
    next heq => rw [← heq, h.zero, Option.map_none]
    next => exact h.zero

theorem holder (h : FundsAccounted base w) (he : w.book.findOrder orderId = some e)
    (hne : e.fundFrozen ≠ 0) : e.request.orderType = .new ∧ e.request.tradeSide = .buy :=
  h.holders orderId e.terms (by rw [OrderBook.terms, he, Option.map_some]) hne

theorem release (h : FundsAccounted base w) (orderId : InternalOrderId) :
    FundsAccounted base (w.release orderId) := by
  rw [World.release]
  split
  · exact h
  next e he =>
    exact h.settle he (fun hne => h.holder he (releaseEffect_ne_zero hne))
      (releaseEffect_balance w.positions.fund e)

theorem releaseAfter (h : FundsAccounted base w) (orderId : InternalOrderId) :
    FundsAccounted base (w.releaseAfter orderId) := by
  rw [World.releaseAfter]
  split
  · exact h
  · split
    · split
      · exact (h.release _).release _
      · exact h.release _
    · exact h

theorem settleFill (h : FundsAccounted base w) {r : TradeResponse}
    (hcovered : ∀ e, w.book.findOrder r.internalOrderId = some e →
      ¬ Overdraws w.positions.fund e.fundFrozen r) : FundsAccounted base (w.settleFill r) := by
  rw [World.settleFill]
  split
  · exact h
  next e he =>
    split
    next hfill =>
      exact h.settle he (fun hne => h.holder he (fillEffect_ne_zero hne))
        (fillEffect_balance hfill.1 (hcovered e he))
    next => exact h

/-- The share of an archived order stays frozen. -/
theorem archive (h : FundsAccounted base w) (he : w.book.findOrder orderId = some e) :
    FundsAccounted (base + e.fundFrozen.toNat) (w.archive orderId) where
  balance := by
    have htotal :
        (w.book.archiveOrder orderId).book.reserved + e.fundFrozen.toNat = w.book.reserved :=
      OrderBook.totalTerms_archiveOrder he fun t => t.fundFrozen.toNat
    have hw := h.balance
    change w.positions.fund.frozen.toNat = _ + (w.book.archiveOrder orderId).book.reserved
    omega
  holders id t ht := by
    change (w.book.archiveOrder orderId).book.terms id = some t at ht
    rw [OrderBook.terms_archiveOrder] at ht
    split at ht
    · exact absurd ht (by simp)
    · exact h.holders id t ht
  unlinked := (OrderBook.links_archiveOrder w.book orderId).trans h.unlinked
  zero := by
    refine (OrderBook.terms_archiveOrder w.book orderId 0).trans ?_
    split
    · rfl
    · exact h.zero

theorem archive_none (h : FundsAccounted base w) (he : w.book.findOrder orderId = none) :
    FundsAccounted base (w.archive orderId) := by
  rw [World.archive]
  rw [OrderBook.archiveOrder_of_none he]
  exact h

end FundsAccounted

namespace Service

open Program

/-- Without links a cancel is never fanned out. -/
theorem preserves_routeOrder_unlinked {Adds : OrderEntry → Prop} {Inv : World → Prop}
    (hstable : LoopStable Adds Inv) (hplain : AdmitsPlain Adds)
    (hunlinked : ∀ w, Inv w → w.book.Unlinked) (now : TimestampNs) (entry : OrderEntry) :
    Preserves Inv (routeOrder now entry) := by
  by_cases hcancel : entry.request.orderType = .cancel
  · intro w hw
    have hchildren : w.book.getChildren entry.request.origInternalOrderId = [] := by
      rw [OrderBook.getChildren, show w.book.parentToChildren = ∅ from congrArg Prod.snd
        (hunlinked w hw)]
      rfl
    rw [routeOrder, routeCancel]
    rw [if_pos hcancel, run_bind, run_read, hchildren]
    exact Preserves.bind (preserves_placeInternalOrder hstable.toStable now _
      fun index => hplain _ rfl rfl) (fun placed => Preserves.pure _) w hw
  · exact hstable.toStable.routerRules.routeOrder_new now hcancel

/-- An order request that the engine leaves to the router keeps the frozen money accounted for. -/
theorem fundsAccounted_handleOrderRequest {base : Nat} {cfg : Config} {env : Env}
    {index : OrderIndex} {request : OrderRequest} (hunmanaged : cfg.Unmanaged request) {w : World}
    (h : FundsAccounted base w) :
    FundsAccounted base ((handleOrderRequest cfg env index request).run w).2 := by
  refine ensures_handleOrderRequest (FundsAccounted.stable base) admitsPlain ?_ h
  intro complete w₀ v hcomplete _ _ hv hlive
  obtain ⟨active, hactive, hterms⟩ := hlive.exists_entry
  have hid : active.request.internalOrderId = complete.internalOrderId :=
    congrArg OrderTerms.internalOrderId hterms
  have hroute : ¬ (cfg.hasExecutionEngine = true ∧ shouldManage cfg active.request = true) := by
    rw [shouldManage_congr cfg
      ((congrArg OrderTerms.orderType hterms).trans hcomplete.orderType)
      ((congrArg OrderTerms.passiveExecutionAlgo hterms).trans hcomplete.passiveExecutionAlgo)]
    exact hunmanaged
  rw [dispatchOrder]
  rw [run_bind, run_findOrder, hactive]
  simp only
  rw [if_neg hroute]
  refine ensures_routeNewOrder (fun u => u = v) (FundsAccounted.stable base) ?_ ?_ ?_ ?_ rfl
  · rintro u rfl
    exact hv
  · rintro u total g rfl hres hfreeze
    have hzero : active.fundFrozen = 0 := congrArg OrderTerms.fundFrozen hterms
    rw [hid]
    refine hv.settle hactive (fun _ => of_decide_eq_true hres) ?_
    rw [hzero, UInt64.toNat_zero]
    exact (FundInfo.freezeFund_facts hfreeze).2.2.2
  · exact preserves_routeOrder_unlinked (FundsAccounted.stable base) admitsPlain
      (fun u hu => hu.unlinked) _ _
  · exact fun u hu => hu.release _

end Service

/-! ## Archived shares -/

namespace TradeResponse

/-- The available cash when the order of the response is released: a sell fill changes it first. -/
def cashAtRelease (r : TradeResponse) (f : FundInfo) : Nat :=
  if r.volumeTraded > 0 ∧ r.tradeSide = .sell then
    ((f.availableAfterSell r.dvalueTraded r.dfee).getD f.available).toNat
  else f.available.toNat

/-- The share of the order when it is released: a buy fill is taken from it first. -/
def shareAtRelease (r : TradeResponse) (f : FundInfo) (frozen : DValue) : Nat :=
  if r.volumeTraded > 0 ∧ r.tradeSide = .buy ∧ f.Pays r then frozen.toNat - r.total
  else frozen.toNat

end TradeResponse

theorem fillEffect_cash {f : FundInfo} {frozen : DValue} {r : TradeResponse} (hne : frozen ≠ 0)
    (hvol : r.volumeTraded > 0) :
    (fillEffect f frozen r).1.available.toNat = r.cashAtRelease f ∧
      (fillEffect f frozen r).2.toNat = r.shareAtRelease f frozen := by
  rw [TradeResponse.cashAtRelease, TradeResponse.shareAtRelease]
  cases hside : r.tradeSide with
  -- A buy is paid from the reservation, or leaves everything as it is.
  | buy =>
      rw [if_neg (by simp)]
      by_cases hpays : f.Pays r
      · obtain ⟨-, havail, hleft⟩ := fillEffect_paid hne hside hpays
        rw [if_pos ⟨hvol, rfl, hpays⟩, havail]
        exact ⟨rfl, hleft⟩
      · have hnone : f.deductFund r.dvalueTraded r.dfee = none := by
          rw [← Option.not_isSome_iff_eq_none, FundInfo.deductFund_isSome_iff]
          exact hpays
        have heff : fillEffect f frozen r = (f, frozen) := by
          rw [fillEffect]
          rw [hside]
          simp only
          rw [if_neg hne, hnone]
        rw [if_neg fun h => hpays h.2.2, heff]
        exact ⟨rfl, rfl⟩
  -- A sale adds to the cash and leaves the reservation alone.
  | sell =>
      have heff : fillEffect f frozen r =
          ((f.applySellTradeFund r.dvalueTraded r.dfee).getD f, frozen) := by
        rw [fillEffect]
        rw [hside]
      rw [if_pos ⟨hvol, rfl⟩, if_neg (by simp), heff]
      refine ⟨?_, rfl⟩
      rw [FundInfo.applySellTradeFund]
      cases f.availableAfterSell r.dvalueTraded r.dfee with
      | none => rfl
      | some cash => rfl
  | notSet =>
      have heff : fillEffect f frozen r = (f, frozen) := by
        rw [fillEffect]
        rw [hside]
      rw [if_neg (by simp), if_neg (by simp), heff]
      exact ⟨rfl, rfl⟩

theorem FundInfo.unfreezeFund_isSome {f : FundInfo} {amount : DValue}
    (hfrozen : amount.toNat ≤ f.frozen.toNat) (hroom : f.available.toNat + amount.toNat < 2 ^ 64) :
    ∃ g, f.unfreezeFund amount = some g := by
  rw [FundInfo.unfreezeFund]
  rw [if_neg (by rw [Word.lt_iff]; omega), if_neg (by rw [Word.add_lt_self_iff]; omega)]
  exact ⟨_, rfl⟩

/-- The order holds no share. -/
def World.FreeAt (w : World) (orderId : InternalOrderId) : Prop :=
  ∀ e, w.book.findOrder orderId = some e → e.fundFrozen = 0

theorem World.findOrder_settle (w : World) (orderId : InternalOrderId) (out : FundInfo × DValue)
    (id : InternalOrderId) : (w.settle orderId out).book.findOrder id =
      if id = orderId then (w.book.findOrder orderId).map fun e => { e with fundFrozen := out.2 }
      else w.book.findOrder id :=
  OrderBook.findOrder_setFrozen w.book orderId out.2 id

theorem World.FreeAt.release {w : World} {orderId : InternalOrderId} (h : w.FreeAt orderId)
    (target : InternalOrderId) : (w.release target).FreeAt orderId := by
  intro e' he'
  rw [World.release] at he'
  split at he'
  · exact h e' he'
  next e he =>
    rw [World.findOrder_settle] at he'
    split at he'
    next heq =>
      rw [he, Option.map_some, Option.some.injEq] at he'
      subst he' heq
      exact Classical.byContradiction fun hne => releaseEffect_ne_zero hne (h e he)
    next => exact h e' he'

/-- A terminal order whose share fits the cash is free after the release. -/
theorem World.freeAt_releaseAfter {w : World} {orderId : InternalOrderId} {e : OrderEntry}
    (he : w.book.findOrder orderId = some e) (hterminal : e.isTerminal = true)
    (hrelease : (releaseEffect w.positions.fund e).2 = 0) :
    (w.releaseAfter orderId).FreeAt orderId := by
  have hfree : (w.release orderId).FreeAt orderId := by
    intro e' he'
    rw [World.release] at he'
    rw [he] at he'
    simp only at he'
    rw [World.findOrder_settle, if_pos rfl, he, Option.map_some, Option.some.injEq] at he'
    subst he'
    exact hrelease
  rw [World.releaseAfter]
  rw [he]
  simp only
  rw [if_pos hterminal]
  split
  · exact hfree.release _
  · exact hfree

theorem OrderBook.not_reopens_of_unlinked {b : OrderBook} (h : b.Unlinked)
    {orderId : InternalOrderId}
    {state : OrderState} (hterminal : state.isTerminal = true) (id : InternalOrderId) :
    ¬ b.Reopens orderId state id := by
  rintro (⟨-, hopen⟩ | ⟨hparent, -⟩)
  · exact absurd hopen (by simp [hterminal])
  · rw [show b.childToParent = ∅ from congrArg Prod.fst h] at hparent
    exact absurd hparent (by simp)

namespace Service

open Program

variable {base : Nat} (cfg : Config) (env : Env) {r : TradeResponse} {w : World}

/-- Up to the archive, a response whose fill is covered keeps the frozen money accounted for. -/
theorem fundsAccounted_respond (h : FundsAccounted base w)
    (hcovered : ∀ e, w.book.findOrder r.internalOrderId = some e →
      ¬ Overdraws w.positions.fund e.fundFrozen r) :
    FundsAccounted base ((respond cfg env r).run w).2 :=
  (h.settleFill hcovered).quiet (quiet_respond cfg env r w)

theorem freeAt_of_none (he : w.book.findOrder r.internalOrderId = none) :
    (((respond cfg env r).run w).2.releaseAfter r.internalOrderId).FreeAt r.internalOrderId := by
  have hquiet := quiet_respond cfg env r w
  rw [World.settleFill, he] at hquiet
  have hnone := hquiet.findOrder_none he
  rw [World.releaseAfter]
  rw [hnone]
  exact fun e he => absurd (hnone.symm.trans he) (by simp)

/-- The share of an order that is archived at once has been released, when the cash has room for
it. -/
theorem freeAt_of_room (h : FundsAccounted base w) {e : OrderEntry}
    (he : w.book.findOrder r.internalOrderId = some e)
    (hcovered : ¬ Overdraws w.positions.fund e.fundFrozen r)
    (hterminal : r.newState.isTerminal = true)
    (hroom : e.fundFrozen ≠ 0 → r.cashAtRelease w.positions.fund +
      r.shareAtRelease w.positions.fund e.fundFrozen < 2 ^ 64) :
    (((respond cfg env r).run w).2.releaseAfter r.internalOrderId).FreeAt r.internalOrderId := by
  have hquiet := quiet_respond cfg env r w
  have haccounted := fundsAccounted_respond cfg env h
    (fun e' he' => Option.some.inj (he.symm.trans he') ▸ hcovered)
  have hsettled := settledAt_respond cfg env (Or.inl rfl)
    (OrderBook.not_reopens_of_unlinked h.unlinked hterminal r.internalOrderId)
  set w₂ := ((respond cfg env r).run w).2
  -- The order after the fill: its share and the FUND row are those of the settlement.
  obtain ⟨e₁, he₁, hfund₁, hshare₁⟩ :
      ∃ e₁, (w.settleFill r).book.findOrder r.internalOrderId = some e₁ ∧
      (e₁.fundFrozen ≠ 0 → (w.settleFill r).positions.fund.available.toNat =
        r.cashAtRelease w.positions.fund) ∧
      (e₁.fundFrozen ≠ 0 → e.fundFrozen ≠ 0 ∧
        e₁.fundFrozen.toNat = r.shareAtRelease w.positions.fund e.fundFrozen) := by
    rw [World.settleFill]
    rw [he]
    simp only
    by_cases hfill : r.volumeTraded > 0 ∧ e.request.orderType = .new
    · rw [if_pos hfill, World.findOrder_settle, if_pos rfl, he]
      refine ⟨_, rfl, fun hne => ?_, fun hne => ?_⟩
      · exact (fillEffect_cash (fillEffect_ne_zero hne) hfill.1).1
      · exact ⟨fillEffect_ne_zero hne, (fillEffect_cash (fillEffect_ne_zero hne) hfill.1).2⟩
    · rw [if_neg hfill]
      have hvol : e.fundFrozen ≠ 0 → ¬ r.volumeTraded > 0 :=
        fun hne hvol => hfill ⟨hvol, (h.holder he hne).1⟩
      refine ⟨e, he, fun hne => ?_, fun hne => ⟨hne, ?_⟩⟩
      · rw [TradeResponse.cashAtRelease, if_neg fun hsell => hvol hne hsell.1]
      · rw [TradeResponse.shareAtRelease, if_neg fun hbuy => hvol hne hbuy.1]
  obtain ⟨e₂, he₂, hterms⟩ := hquiet.findOrder_some he₁
  have hfrozen : e₂.fundFrozen = e₁.fundFrozen := congrArg OrderTerms.fundFrozen hterms
  refine World.freeAt_releaseAfter he₂
    (hsettled _ (by rw [OrderBook.stateOf, he₂, Option.map_some])) ?_
  rw [releaseEffect]
  by_cases hzero : e₂.fundFrozen = 0
  · rw [if_neg fun hgo => hgo.2 hzero]
    exact hzero
  · have hholder := haccounted.holder he₂ hzero
    have hne₁ : e₁.fundFrozen ≠ 0 := hfrozen ▸ hzero
    have hle := OrderBook.le_reserved he₂
    have hbalance := haccounted.balance
    have hcash : w₂.positions.fund.available.toNat + e₂.fundFrozen.toNat < 2 ^ 64 := by
      rw [hquiet.fund, hfund₁ hne₁, hfrozen, (hshare₁ hne₁).2]
      exact hroom (hshare₁ hne₁).1
    obtain ⟨g, hg⟩ := FundInfo.unfreezeFund_isSome (by omega) hcash
    rw [if_pos ⟨decide_eq_true hholder, hzero⟩, hg]

/-- A response whose fill is covered: a share that is archived stays in the base. -/
theorem fundsAccounted_handleTradeResponse (h : FundsAccounted base w)
    (hcovered : ∀ e, w.book.findOrder r.internalOrderId = some e →
      ¬ Overdraws w.positions.fund e.fundFrozen r) :
    ∃ share, FundsAccounted (base + share) ((handleTradeResponse cfg env r).run w).2 ∧
      ((r.archives cfg → (((respond cfg env r).run w).2.releaseAfter r.internalOrderId).FreeAt
        r.internalOrderId) → share = 0) := by
  by_cases hid : r.internalOrderId = 0
  · obtain ⟨hbook, hpositions⟩ := run_handleTradeResponse_zero cfg env hid w
    refine ⟨0, h.quiet ⟨by rw [hpositions], ?_, by rw [hbook]⟩, fun _ => rfl⟩
    rw [hbook]
    exact OrderBook.SameTerms.refl _
  · rw [run_handleTradeResponse cfg env hid]
    have hreleased := (fundsAccounted_respond cfg env h hcovered).releaseAfter r.internalOrderId
    have hquiet := quiet_archiveAfterResponse cfg env r
      (((respond cfg env r).run w).2.releaseAfter r.internalOrderId)
    set w₃ := ((respond cfg env r).run w).2.releaseAfter r.internalOrderId
    by_cases harchives : r.archives cfg
    · rw [if_pos harchives] at hquiet
      cases he : w₃.book.findOrder r.internalOrderId with
      | none => exact ⟨0, (hreleased.archive_none he).quiet hquiet, fun _ => rfl⟩
      | some e =>
          refine ⟨e.fundFrozen.toNat, (hreleased.archive he).quiet hquiet, fun hfree => ?_⟩
          rw [hfree harchives e he, UInt64.toNat_zero]
    · rw [if_neg harchives] at hquiet
      exact ⟨0, hreleased.quiet hquiet, fun _ => rfl⟩

/-- One turn of the archive loop removes a terminal order, or is quiet. -/
theorem quiet_archiveDueOrder (env : Env) (orderId : InternalOrderId) (w : World) :
    ((archiveDueOrder env orderId).run w).2.book =
        (if (w.book.findOrder orderId).any OrderEntry.isTerminal then
          w.archive orderId else w).book ∧
      ((archiveDueOrder env orderId).run w).2.positions = w.positions := by
  rw [archiveDueOrder]
  rw [run_bind, run_findOrder]
  cases he : w.book.findOrder orderId with
  | none => exact ⟨rfl, rfl⟩
  | some e =>
      simp only [Option.any_some]
      split
      · rw [run_bind, archiveOrder, run_onBook]
        exact ⟨w.book_applyBook _ _, w.positions_applyBook _ _⟩
      · exact ⟨rfl, rfl⟩

/-- The archive loop only removes orders. -/
theorem findOrder_archiveDueOrder {orderId id : InternalOrderId} {e : OrderEntry}
    (he : ((archiveDueOrder env orderId).run w).2.book.findOrder id = some e) :
    w.book.findOrder id = some e := by
  rw [(quiet_archiveDueOrder env orderId w).1] at he
  split at he
  · rw [World.archive, OrderBook.findOrder_archiveOrder] at he
    split at he
    · exact absurd he (by simp)
    · exact he
  · exact he

theorem findOrder_processPendingArchives (nowNs : TimestampNs)
    {id : InternalOrderId} {e : OrderEntry}
    (he : ((processPendingArchives env nowNs).run w).2.book.findOrder id = some e) :
    w.book.findOrder id = some e := by
  have hloop : Ensures (processPendingArchives env nowNs) w fun _ v =>
      v.book.findOrder id = some e → w.book.findOrder id = some e := by
    refine Ensures.bind (Ensures.read (Ensures.forEach ?_ fun he' => he'))
    intro orderId _ v hv he'
    exact hv (findOrder_archiveDueOrder env he')
  exact hloop he

/-- The archive loop: the shares of the archived orders stay in the base. -/
theorem fundsAccounted_processPendingArchives (h : FundsAccounted base w) (nowNs : TimestampNs) :
    ∃ share, FundsAccounted (base + share) ((processPendingArchives env nowNs).run w).2 ∧
      ((∀ id deadline, w.pendingArchiveDeadlines.lookup id = some deadline → deadline ≤ nowNs →
        ∀ e, w.book.findOrder id = some e → e.isTerminal = true → e.fundFrozen = 0) →
          share = 0) := by
  set AllFree : Prop := ∀ id deadline, w.pendingArchiveDeadlines.lookup id = some deadline →
    deadline ≤ nowNs → ∀ e, w.book.findOrder id = some e → e.isTerminal = true → e.fundFrozen = 0
  -- The loop only removes orders, so what it meets was in the book from the start.
  have hloop : Ensures (processPendingArchives env nowNs) w fun _ v =>
      (∀ id e, v.book.findOrder id = some e → w.book.findOrder id = some e) ∧
        ∃ share, FundsAccounted (base + share) v ∧ (AllFree → share = 0) := by
    refine Ensures.bind (Ensures.read (Ensures.forEach ?_ ⟨fun _ _ he => he, 0, h, fun _ => rfl⟩))
    rintro id hid v ⟨hsub, share, hv, hfree⟩
    obtain ⟨hbook, hpositions⟩ := quiet_archiveDueOrder env id v
    have hquiet :
        (if (v.book.findOrder id).any OrderEntry.isTerminal then v.archive id else v).Quiet
        ((archiveDueOrder env id).run v).2 := by
      refine ⟨?_, by rw [hbook]; exact OrderBook.SameTerms.refl _, congrArg OrderBook.links hbook⟩
      rw [hpositions]
      split <;> rfl
    refine ⟨fun id' e' he' => hsub id' e' (findOrder_archiveDueOrder env he'), ?_⟩
    cases he : v.book.findOrder id with
    | none =>
        rw [he, Option.any_none, if_neg Bool.false_ne_true] at hquiet
        exact ⟨share, hv.quiet hquiet, hfree⟩
    | some e =>
        rw [he, Option.any_some] at hquiet
        by_cases hterminal : e.isTerminal = true
        · rw [if_pos hterminal] at hquiet
          refine ⟨share + e.fundFrozen.toNat, ?_, fun hall => ?_⟩
          · rw [← Nat.add_assoc]
            exact (hv.archive he).quiet hquiet
          · obtain ⟨⟨id', deadline⟩, hmem, rfl⟩ := List.mem_map.1 hid
            obtain ⟨hentry, hdue⟩ := List.mem_filter.1 hmem
            have hzero := hall id' deadline (Map.mem_entries_iff.1 hentry)
              (of_decide_eq_true hdue) e (hsub id' e he) hterminal
            rw [hfree hall, hzero, UInt64.toNat_zero]
        · rw [if_neg hterminal] at hquiet
          exact ⟨share, hv.quiet hquiet, hfree⟩
  exact hloop.2

end Service

/-! ## Runs -/

/-- The calls of a service without managed orders. -/
def Event.Ordinary (cfg : Config) : Event → Prop
  | .orderRequest _ request => cfg.Unmanaged request
  | .tradeResponse _ => True
  | .pendingArchives _ => True
  | .engineTick _ => False
  | .routeCancel _ _ _ => False

/-- No fill takes more out of the frozen money than its order has reserved. -/
def Event.FillCovered (w : World) : Event → Prop
  | .tradeResponse r => ∀ e, w.book.findOrder r.internalOrderId = some e →
      ¬ Overdraws w.positions.fund e.fundFrozen r
  | _ => True

/-- No order is archived with a share: an order that a response archives at once leaves a share that
the available cash has room for, and an order that is due holds none. -/
def Event.ArchivesReleased (cfg : Config) (w : World) : Event → Prop
  | .tradeResponse r => r.archives cfg → ∀ e, w.book.findOrder r.internalOrderId = some e →
      e.fundFrozen ≠ 0 → r.cashAtRelease w.positions.fund +
        r.shareAtRelease w.positions.fund e.fundFrozen < 2 ^ 64
  | .pendingArchives nowNs => ∀ id deadline, w.pendingArchiveDeadlines.lookup id = some deadline →
      deadline ≤ nowNs → ∀ e, w.book.findOrder id = some e → e.isTerminal = true → e.fundFrozen = 0
  | _ => True

/-- One call keeps the frozen money accounted for; a share that is archived stays in the base. -/
theorem fundsAccounted_step {base : Nat} (cfg : Config) {w : World} (h : FundsAccounted base w)
    (env : Env) {event : Event} (hordinary : event.Ordinary cfg) (hcovered : event.FillCovered w) :
    ∃ share, FundsAccounted (base + share) (w.step cfg (env, event)) ∧
      (event.ArchivesReleased cfg w → share = 0) := by
  cases event with
  | orderRequest index request =>
      exact ⟨0, Service.fundsAccounted_handleOrderRequest hordinary h, fun _ => rfl⟩
  | tradeResponse r =>
      obtain ⟨share, hshare, hfree⟩ := Service.fundsAccounted_handleTradeResponse cfg env h hcovered
      refine ⟨share, hshare, fun hreleased => hfree fun harchives => ?_⟩
      cases he : w.book.findOrder r.internalOrderId with
      | none => exact Service.freeAt_of_none cfg env he
      | some e =>
          exact Service.freeAt_of_room cfg env h he (hcovered e he) harchives.1
            (hreleased harchives e he)
  | pendingArchives nowNs => exact Service.fundsAccounted_processPendingArchives env h nowNs
  | engineTick nowNs => exact hordinary.elim
  | routeCancel origId cancelId time => exact hordinary.elim

theorem fundsAccounted_of_empty {w : World} (hempty : w.book = OrderBook.empty) :
    FundsAccounted w.positions.fund.frozen.toNat w where
  balance := by
    rw [hempty]
    rfl
  holders id t ht := by
    rw [hempty] at ht
    exact absurd ht (by simp [OrderBook.terms, OrderBook.findOrder, OrderBook.empty])
  unlinked := by
    rw [hempty]
    rfl
  zero := by
    rw [hempty]
    rfl

/-- In every run without overdrawn fills and without archived shares, the frozen money is what was
frozen at the start plus the reservations of the live orders. -/
theorem frozen_eq_reserved (cfg : Config) {w : World} (hempty : w.book = OrderBook.empty)
    {calls : List (Env × Event)} (hordinary : ∀ call ∈ calls, call.2.Ordinary cfg)
    (hmeet : StepsMeet (World.step cfg)
      (fun v call => call.2.FillCovered v ∧ call.2.ArchivesReleased cfg v) w calls) :
    ∀ v ∈ trace (World.step cfg) w calls,
      v.positions.fund.frozen.toNat = w.positions.fund.frozen.toNat + v.book.reserved := by
  have hinv := trace_invariant (FundsAccounted w.positions.fund.frozen.toNat) ?_
    (fundsAccounted_of_empty hempty) (hmeet.and_mem hordinary)
  · exact fun v hv => (hinv v hv).balance
  · rintro v ⟨env, event⟩ hv ⟨hevent, hcovered, hreleased⟩
    obtain ⟨share, hshare, hzero⟩ := fundsAccounted_step cfg hv env hevent hcovered
    rw [hzero hreleased, Nat.add_zero] at hshare
    exact hshare

def twoBuys : World :=
  World.start { totalAsset := 10000, available := 10000 } {}
    (OrdersShm.ofClients [.ofClient 7 .buy 100 10, .ofClient 8 .buy 100 10])

/-- Two buy orders reserve 1000 each, and the first is filled for 1000 with this fee. -/
def placeAndFill (fee : DValue) : List (Env × Event) :=
  [({}, .orderRequest 0 (.ofClient 7 .buy 100 10)),
    ({}, .orderRequest 1 (.ofClient 8 .buy 100 10)),
    ({}, .tradeResponse
      { internalOrderId := 7, tradeSide := .buy, newState := .marketAccepted, volumeTraded := 100
        dpriceTraded := 10, dvalueTraded := 1000, dfee := fee })]

/-- A fill that its order has reserved. -/
theorem frozen_eq_reserved_two_orders :
    (twoBuys.run {} (placeAndFill 0)).positions.fund.frozen.toNat =
      0 + (twoBuys.run {} (placeAndFill 0)).book.reserved := by
  have hall : ∀ v ∈ trace (World.step {}) twoBuys (placeAndFill 0),
      v.positions.fund.frozen.toNat = 0 + v.book.reserved := by
    refine frozen_eq_reserved {} rfl ?_ ⟨⟨trivial, trivial⟩, ⟨trivial, trivial⟩, ⟨?_, ?_⟩, trivial⟩
    · simp only [placeAndFill, List.forall_mem_cons]
      exact ⟨(by decide : ({} : Config).Unmanaged (.ofClient 7 .buy 100 10)),
        (by decide : ({} : Config).Unmanaged (.ofClient 8 .buy 100 10)), trivial, by simp⟩
    · rintro e he ⟨-, -, -, -, hlt⟩
      have hshare : (((twoBuys.run {} ((placeAndFill 0).take 2)).book.findOrder 7).all fun e =>
          decide (e.fundFrozen = 1000)) = true := by decide
      rw [show (twoBuys.run {} ((placeAndFill 0).take 2)).book.findOrder 7 = some e from he,
        Option.all_some, decide_eq_true_eq] at hshare
      rw [hshare] at hlt
      exact absurd hlt (by decide)
    · exact fun harchives => absurd harchives (by decide)
  exact hall _ (foldl_mem_trace _ _ _)

/-- A fee above the estimate is paid from the money that is frozen for the other order. -/
theorem frozen_ne_reserved_after_overdraft :
    (twoBuys.run {} (placeAndFill 5)).positions.fund.frozen.toNat = 995 ∧
      (twoBuys.run {} (placeAndFill 5)).book.reserved = 1000 := by
  decide

end AccountServices
