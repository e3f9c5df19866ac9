import AccountServices.Core.Invariant
import AccountServices.Core.FundReservation

/-!
# Whole and partial settlement of a fill

`handle_trade_response` settles a fill in separate calls on the FUND row and on the row of the
security, and goes on when one of them refuses. The fill is settled as a whole exactly when both
rows take it, or when neither row moves at all.
-/

set_option autoImplicit false

namespace AccountServices

open Foundation

/-! ## What it means to reflect a fill -/

/-- The cash of the FUND row; a release moves it from one column to the other. -/
def FundInfo.cash (f : FundInfo) : Nat := f.available.toNat + f.frozen.toNat

/-- The FUND row is settled for the value and the fee of the fill. -/
def FundReflects (r : TradeResponse) (f g : FundInfo) : Prop :=
  g.totalAsset.toNat = f.totalAsset.toNat - r.dfee.toNat ∧
    match r.tradeSide with
    | .buy => g.cash + r.total = f.cash ∧
        g.marketValue.toNat = f.marketValue.toNat + r.dvalueTraded.toNat
    | .sell => g.cash + r.dfee.toNat = f.cash + r.dvalueTraded.toNat ∧
        g.marketValue.toNat = f.marketValue.toNat - r.dvalueTraded.toNat
    | .notSet => False

/-- The row of the security has gained or lost the shares of the fill; a missing row holds none. -/
def PositionReflects (r : TradeResponse) (p q : Option Position) : Prop :=
  ∃ p', q = some p' ∧
    match r.tradeSide with
    | .buy => p'.held = (p.map Position.held).getD 0 + r.volumeTraded.toNat
    | .sell => p'.held + r.volumeTraded.toNat = (p.map Position.held).getD 0
    | .notSet => False

/-- Both rows reflect the fill, or both are as before. -/
def SettledWhole (r : TradeResponse) (securityId : InternalSecurityId) (m m' : PositionManager) :
    Prop :=
  FundReflects r m.fund m'.fund ∧
      PositionReflects r (m.getPosition securityId) (m'.getPosition securityId) ∨
    m'.fund = m.fund ∧ m'.getPosition securityId = m.getPosition securityId

/-! ## When a row takes a fill -/

/-- The FUND row takes the fill of an order with this reservation. -/
def FundInfo.Accepts (f : FundInfo) (frozen : DValue) (r : TradeResponse) : Prop :=
  match r.tradeSide with
  | .buy =>
      if frozen = 0 then
        r.total ≤ f.available.toNat ∧ f.marketValue.toNat + r.dvalueTraded.toNat < 2 ^ 64
      else f.Pays r
  | .sell =>
      r.dfee.toNat ≤ f.available.toNat + r.dvalueTraded.toNat ∧
        f.available.toNat + r.dvalueTraded.toNat < 2 ^ 64 + r.dfee.toNat
  | .notSet => False

/-- The settlement of the fill would change nothing: the amounts are 0, or they cancel out in a row
without value. -/
def FundInfo.IgnoresFill (f : FundInfo) (r : TradeResponse) : Prop :=
  match r.tradeSide with
  | .buy => r.dvalueTraded = 0 ∧ r.dfee = 0
  | .sell => r.dvalueTraded = r.dfee ∧ (r.dvalueTraded = 0 ∨ f.marketValue = 0 ∧ f.totalAsset = 0)
  | .notSet => False

/-- The order is terminal once the response is booked, and its reservation can be released. -/
def World.ReleasesAfter (w : World) (r : TradeResponse) (now : TimestampNs) (e : OrderEntry) :
    Prop :=
  ((w.book.booked r now).stateOf r.internalOrderId).any OrderState.isTerminal = true ∧
    e.request.reserves = true ∧ e.fundFrozen ≠ 0 ∧
    e.fundFrozen.toNat ≤ w.positions.fund.frozen.toNat ∧
    w.positions.fund.available.toNat + e.fundFrozen.toNat < 2 ^ 64

/-- The FUND row does not move. -/
def World.FundKept (w : World) (r : TradeResponse) (now : TimestampNs) (e : OrderEntry) : Prop :=
  (¬ w.positions.fund.Accepts e.fundFrozen r ∨ w.positions.fund.IgnoresFill r) ∧
    ¬ w.ReleasesAfter r now e

/-- `add_security` would create the missing row from the order. -/
def PositionManager.CreatableFrom (m : PositionManager) (e : OrderEntry)
    (securityId : InternalSecurityId) : Prop :=
  m.Creatable e.request.securityId.view e.request.market securityId

/-- The row of the security takes the fill: a buy needs a row, or one that can be created; a sell
needs the shares. -/
def PositionManager.RowAccepts (m : PositionManager) (r : TradeResponse) (e : OrderEntry)
    (securityId : InternalSecurityId) : Prop :=
  match r.tradeSide, m.getPosition securityId with
  | .buy, none => m.CreatableFrom e securityId
  | .buy, some p => p.volumeAvailableT1.toNat + r.volumeTraded.toNat < 2 ^ 64
  | .sell, some p => r.volumeTraded.toNat ≤ p.volumeSell.toNat + p.volumeAvailableT0.toNat
  | _, _ => False

/-- The row of the security does not move: it is missing and cannot be created, or a sell finds no
frozen share and too few sellable ones. A fill without a side never moves an existing row. -/
def PositionManager.RowKept (m : PositionManager) (r : TradeResponse) (e : OrderEntry)
    (securityId : InternalSecurityId) : Prop :=
  match r.tradeSide, m.getPosition securityId with
  | _, none => ¬ m.CreatableFrom e securityId
  | .sell, some p => p.volumeSell = 0 ∧ p.volumeAvailableT0.toNat < r.volumeTraded.toNat
  | .buy, some _ => False
  | .notSet, some _ => True

/-! ## The FUND row -/

namespace FundInfo

variable {f g : FundInfo} {frozen : DValue} {r : TradeResponse}

theorem applyBuyTradeFund_isSome_iff (f : FundInfo) (r : TradeResponse) :
    (f.applyBuyTradeFund r.dvalueTraded r.dfee).isSome = true ↔
      r.total ≤ f.available.toNat ∧ f.marketValue.toNat + r.dvalueTraded.toNat < 2 ^ 64 := by
  -- The check is the one of `deduct_fund` with the available cash in the place of the frozen one.
  have h := deductFund_isSome_iff { f with frozen := f.available } r
  simp only [deductFund, Pays] at h
  rw [← h]
  simp only [applyBuyTradeFund]
  split
  · rfl
  split
  · rfl
  split <;> rfl

theorem applySellTradeFund_isSome_iff (f : FundInfo) (r : TradeResponse) :
    (f.applySellTradeFund r.dvalueTraded r.dfee).isSome = true ↔
      r.dfee.toNat ≤ f.available.toNat + r.dvalueTraded.toNat ∧
        f.available.toNat + r.dvalueTraded.toNat < 2 ^ 64 + r.dfee.toNat := by
  have hnone := applySellTradeFund_eq_none_iff f r.dvalueTraded r.dfee
  rw [availableAfterSell_eq_none_iff] at hnone
  cases hop : f.applySellTradeFund r.dvalueTraded r.dfee with
  | none =>
      have := hnone.1 hop
      exact iff_of_false (by simp) (by omega)
  | some g =>
      have := fun h => (hop.symm.trans (hnone.2 h) : some g = none)
      exact iff_of_true rfl ⟨by by_contra hc; exact absurd (this (by omega)) (by simp),
        by by_contra hc; exact absurd (this (by omega)) (by simp)⟩

/-- A fill that the FUND row takes is reflected in it. -/
theorem fillEffect_accepted (h : f.Accepts frozen r) :
    FundReflects r f (fillEffect f frozen r).1 := by
  simp only [Accepts] at h
  simp only [FundReflects, fillEffect, cash, TradeResponse.total]
  cases hside : r.tradeSide with
  | buy =>
      rw [hside] at h
      simp only at h ⊢
      split at h
      next hzero =>
        obtain ⟨g, hg⟩ := Option.isSome_iff_exists.1 ((f.applyBuyTradeFund_isSome_iff r).2 h)
        obtain ⟨hfrozen, htotal, hvalue, havail⟩ := applyBuyTradeFund_facts hg
        rw [if_pos hzero, hg, Option.getD_some]
        simp only
        rw [hfrozen]
        exact ⟨htotal, by omega, hvalue⟩
      next hne =>
        obtain ⟨g, hg⟩ := Option.isSome_iff_exists.1 ((f.deductFund_isSome_iff r).2 h)
        obtain ⟨-, havail, htotal, hvalue, hfrozen⟩ := deductFund_facts hg
        rw [if_neg hne, hg]
        simp only
        rw [havail]
        exact ⟨htotal, by omega, hvalue⟩
  | sell =>
      rw [hside] at h
      obtain ⟨g, hg⟩ := Option.isSome_iff_exists.1 ((f.applySellTradeFund_isSome_iff r).2 h)
      obtain ⟨hfrozen, htotal, hvalue, havail⟩ := applySellTradeFund_facts hg
      simp only
      rw [hg, Option.getD_some, hfrozen]
      exact ⟨htotal, by omega, hvalue⟩
  | notSet => rw [hside] at h; exact h.elim

/-- A fill that the FUND row refuses changes neither row nor reservation. -/
theorem fillEffect_refused (h : ¬ f.Accepts frozen r) : fillEffect f frozen r = (f, frozen) := by
  rw [Accepts] at h
  rw [fillEffect]
  cases hside : r.tradeSide with
  | buy =>
      rw [hside] at h
      simp only at h ⊢
      split at h
      next hzero =>
        rw [← applyBuyTradeFund_isSome_iff, Bool.not_eq_true, Option.isSome_eq_false_iff,
          Option.isNone_iff_eq_none] at h
        rw [if_pos hzero, h, Option.getD_none]
      next hne =>
        rw [← deductFund_isSome_iff, Bool.not_eq_true, Option.isSome_eq_false_iff,
          Option.isNone_iff_eq_none] at h
        rw [if_neg hne, h]
  | sell =>
      rw [hside] at h
      simp only at h ⊢
      rw [← applySellTradeFund_isSome_iff, Bool.not_eq_true, Option.isSome_eq_false_iff,
        Option.isNone_iff_eq_none] at h
      rw [h, Option.getD_none]
  | notSet => rfl

/-- A row reflects a fill without having moved exactly when the fill is one it ignores. -/
theorem reflects_self_iff : FundReflects r f f ↔ f.IgnoresFill r := by
  rw [FundReflects, IgnoresFill, TradeResponse.total]
  cases r.tradeSide with
  | buy =>
      simp only [Word.eq_iff, UInt64.toNat_zero]
      omega
  | sell =>
      simp only [Word.eq_iff, UInt64.toNat_zero]
      omega
  | notSet => simp

theorem IgnoresFill.accepts (h : f.IgnoresFill r) : f.Accepts frozen r := by
  have havail := f.available.toNat_lt
  have hvalue := f.marketValue.toNat_lt
  rw [IgnoresFill] at h
  rw [Accepts, Pays, TradeResponse.total]
  cases hside : r.tradeSide with
  | buy =>
      rw [hside] at h
      simp only at h ⊢
      rw [h.1, h.2, UInt64.toNat_zero]
      split <;> omega
  | sell =>
      rw [hside] at h
      simp only at h ⊢
      rw [h.1]
      omega
  | notSet => rw [hside] at h; exact h.elim

theorem ext_toNat (htotal : g.totalAsset.toNat = f.totalAsset.toNat)
    (havail : g.available.toNat = f.available.toNat) (hfrozen : g.frozen.toNat = f.frozen.toNat)
    (hvalue : g.marketValue.toNat = f.marketValue.toNat) : g = f := by
  cases f
  cases g
  simp only [mk.injEq, ← UInt64.toNat_inj]
  exact ⟨htotal, havail, hfrozen, hvalue⟩

/-- A fill that is ignored changes neither row nor reservation. -/
theorem fillEffect_ignored (h : f.IgnoresFill r) : fillEffect f frozen r = (f, frozen) := by
  have haccepts : f.Accepts frozen r := h.accepts
  rw [IgnoresFill] at h
  rw [Accepts] at haccepts
  rw [fillEffect]
  cases hside : r.tradeSide with
  | buy =>
      rw [hside] at h haccepts
      simp only at h haccepts ⊢
      obtain ⟨hvalue, hfee⟩ := h
      split at haccepts
      -- An order without a reservation: nothing is taken from the available money.
      next hzero =>
        obtain ⟨g, hg⟩ := Option.isSome_iff_exists.1 ((f.applyBuyTradeFund_isSome_iff r).2 haccepts)
        obtain ⟨hfrozen, htotal, hmarket, havail⟩ := applyBuyTradeFund_facts hg
        rw [hfee] at htotal
        rw [hvalue] at hmarket
        rw [hvalue, hfee] at havail
        rw [if_pos hzero, hg, Option.getD_some,
          ext_toNat htotal havail (congrArg UInt64.toNat hfrozen) hmarket]
      -- With one: nothing is taken from the frozen money.
      next hne =>
        obtain ⟨g, hg⟩ := Option.isSome_iff_exists.1 ((f.deductFund_isSome_iff r).2 haccepts)
        obtain ⟨-, havail, htotal, hmarket, hfrozen⟩ := deductFund_facts hg
        rw [hfee] at htotal
        rw [hvalue] at hmarket
        rw [hvalue, hfee] at hfrozen
        have hsame : g = f := ext_toNat htotal (congrArg UInt64.toNat havail) hfrozen hmarket
        have hzero : frozen ≥ (0 : UInt64) := (Word.le_iff _ _).2 (Nat.zero_le _)
        rw [if_neg hne, hg, hsame]
        simp only
        rw [hvalue, hfee, UInt64.add_zero, if_pos hzero, UInt64.sub_zero]
  -- What the sale brings is its fee, and the row has no market value to lose, or the sale takes
  -- none.
  | sell =>
      rw [hside] at h haccepts
      simp only at h haccepts ⊢
      obtain ⟨g, hg⟩ := Option.isSome_iff_exists.1 ((f.applySellTradeFund_isSome_iff r).2 haccepts)
      obtain ⟨hfrozen, htotal, hmarket, havail⟩ := applySellTradeFund_facts hg
      simp only [Word.eq_iff, UInt64.toNat_zero] at h
      rw [hg, Option.getD_some, ext_toNat (by omega) (by omega)
        (congrArg UInt64.toNat hfrozen) (by omega)]
  | notSet => rfl

end FundInfo

/-- A release keeps the numbers that the reflection of a fill looks at. -/
theorem fundReflects_release_iff {r : TradeResponse} {f g : FundInfo} (e : OrderEntry) :
    FundReflects r f (releaseEffect g e).1 ↔ FundReflects r f g := by
  unfold releaseEffect
  split
  next =>
    cases hop : g.unfreezeFund e.fundFrozen with
    | none => rfl
    | some g' =>
        obtain ⟨htotal, hvalue, havail, hfrozen⟩ := FundInfo.unfreezeFund_facts hop
        have hcash : g'.cash = g.cash := by
          unfold FundInfo.cash
          omega
        unfold FundReflects
        simp only
        rw [htotal, hvalue, hcash]
  next => rfl

/-- A release moves the row exactly when there is something to release and room for it. -/
theorem releaseEffect_eq_iff (f : FundInfo) (e : OrderEntry) :
    (releaseEffect f e).1 = f ↔ ¬ (e.request.reserves = true ∧ e.fundFrozen ≠ 0 ∧
      e.fundFrozen.toNat ≤ f.frozen.toNat ∧ f.available.toNat + e.fundFrozen.toNat < 2 ^ 64) := by
  rw [releaseEffect]
  split
  next hgo =>
    have hpos : e.fundFrozen.toNat ≠ 0 := fun hzero => hgo.2 ((Word.eq_iff _ _).2 hzero)
    cases hop : f.unfreezeFund e.fundFrozen with
    | none =>
        refine iff_of_true rfl fun h => ?_
        obtain ⟨g, hg⟩ := FundInfo.unfreezeFund_isSome h.2.2.1 h.2.2.2
        exact absurd (hop.symm.trans hg) (by simp)
    | some g =>
        obtain ⟨-, -, havail, hfrozen⟩ := FundInfo.unfreezeFund_facts hop
        have hlt := g.available.toNat_lt
        refine iff_of_false (fun heq => ?_) (not_not.2 ⟨hgo.1, hgo.2, by omega, by omega⟩)
        rw [show g = f from heq] at havail
        omega
  next hgo => exact iff_of_true rfl fun h => hgo ⟨h.1, h.2.1⟩

namespace World

variable {w : World} {r : TradeResponse} {e : OrderEntry}

/-- The FUND row after a response: the fill, and then the release of an order that is terminal. -/
def fundAfter (w : World) (r : TradeResponse) (now : TimestampNs) (e : OrderEntry) : FundInfo :=
  let out := fillEffect w.positions.fund e.fundFrozen r
  if ((w.book.booked r now).stateOf r.internalOrderId).any OrderState.isTerminal then
    (releaseEffect out.1 { e with fundFrozen := out.2 }).1
  else out.1

theorem fundReflects_fundAfter_iff (now : TimestampNs) :
    FundReflects r w.positions.fund (w.fundAfter r now e) ↔
      w.positions.fund.Accepts e.fundFrozen r := by
  have hrelease : FundReflects r w.positions.fund (w.fundAfter r now e) ↔
      FundReflects r w.positions.fund (fillEffect w.positions.fund e.fundFrozen r).1 := by
    simp only [fundAfter]
    split
    · exact fundReflects_release_iff _
    · rfl
  rw [hrelease]
  by_cases haccepts : w.positions.fund.Accepts e.fundFrozen r
  · exact iff_of_true (FundInfo.fillEffect_accepted haccepts) haccepts
  · refine iff_of_false (fun h => haccepts ?_) haccepts
    rw [FundInfo.fillEffect_refused haccepts, FundInfo.reflects_self_iff] at h
    exact h.accepts

theorem fundAfter_eq_iff (now : TimestampNs) :
    w.fundAfter r now e = w.positions.fund ↔ w.FundKept r now e := by
  by_cases hkept : ¬ w.positions.fund.Accepts e.fundFrozen r ∨ w.positions.fund.IgnoresFill r
  · have hfill : fillEffect w.positions.fund e.fundFrozen r = (w.positions.fund, e.fundFrozen) :=
      hkept.elim FundInfo.fillEffect_refused FundInfo.fillEffect_ignored
    simp only [fundAfter, hfill, FundKept, ReleasesAfter, hkept, true_and]
    split
    next hclosed => rw [releaseEffect_eq_iff, hclosed, eq_self_iff_true, true_and]
    next hopen => exact iff_of_true rfl fun h => hopen h.1
  · refine iff_of_false (fun heq => hkept (Or.inr ?_)) fun h => hkept h.1
    have haccepts : w.positions.fund.Accepts e.fundFrozen r :=
      Classical.byContradiction fun hnot => hkept (Or.inl hnot)
    have hreflects := (fundReflects_fundAfter_iff (w := w) (e := e) now).2 haccepts
    rw [heq, FundInfo.reflects_self_iff] at hreflects
    exact hreflects

end World

/-! ## The row of the security -/

namespace PositionManager

variable {m : PositionManager} {r : TradeResponse} {e : OrderEntry}
  {securityId : InternalSecurityId}

/-- The name that `handle_trade_response` gives a new row. -/
def rowName (e : OrderEntry) (securityId : InternalSecurityId) : Bytes :=
  if e.request.internalSecurityId.isEmpty then securityId.view else
    e.request.internalSecurityId.view

instance (m : PositionManager) (e : OrderEntry) (securityId : InternalSecurityId) :
    Decidable (m.CreatableFrom e securityId) :=
  inferInstanceAs (Decidable (m.Creatable _ _ _))

/-- The row that the update of a fill finds. -/
def rowBefore (m : PositionManager) (e : OrderEntry) (securityId : InternalSecurityId) :
    Option Position :=
  match m.getPosition securityId with
  | some p => some p
  | none =>
      if m.CreatableFrom e securityId then
        some (freshRow e.request.securityId.view (rowName e securityId) e.request.market)
      else none

/-- The row after a fill. -/
def rowAfter (m : PositionManager) (r : TradeResponse) (e : OrderEntry)
    (securityId : InternalSecurityId) : Option Position :=
  match r.tradeSide with
  | .buy => (m.rowBefore e securityId).map fun p => (p.addPosition r.volumeTraded r.dpriceTraded).2
  | .sell => (m.rowBefore e securityId).map fun p =>
      (p.deductPosition r.volumeTraded r.dvalueTraded).2
  | .notSet => m.rowBefore e securityId

theorem positionReflects_rowAfter_iff (hvol : r.volumeTraded > 0) :
    PositionReflects r (m.getPosition securityId) (m.rowAfter r e securityId) ↔
      m.RowAccepts r e securityId := by
  have hpos : 0 < r.volumeTraded.toNat := (Word.lt_iff 0 r.volumeTraded).1 hvol
  rw [PositionReflects, rowAfter, rowBefore, RowAccepts]
  cases hside : r.tradeSide with
  | notSet => simp
  | buy =>
      cases hrow : m.getPosition securityId with
      | some p =>
          simp only [Option.map_some, Option.getD_some, Option.some.injEq, exists_eq_left']
          exact p.held_addPosition_iff r.volumeTraded r.dpriceTraded
      | none =>
          simp only [Option.map_none, Option.getD_none]
          by_cases hcreatable : m.CreatableFrom e securityId
          · rw [if_pos hcreatable]
            refine iff_of_true ⟨_, rfl, ?_⟩ hcreatable
            have hheld := (freshRow e.request.securityId.view (rowName e securityId)
              e.request.market).held_addPosition_iff r.volumeTraded r.dpriceTraded
            have hlt : (0 : UInt64).toNat + r.volumeTraded.toNat < 2 ^ 64 := by
              rw [UInt64.toNat_zero, Nat.zero_add]
              exact r.volumeTraded.toNat_lt
            exact hheld.2 hlt
          · rw [if_neg hcreatable]
            exact iff_of_false (by simp) hcreatable
  | sell =>
      cases hrow : m.getPosition securityId with
      | some p =>
          simp only [Option.map_some, Option.getD_some, Option.some.injEq, exists_eq_left']
          constructor
          · intro hheld
            by_contra hshort
            rw [Position.deductPosition_short _ (by omega)] at hheld
            simp only [Position.held, UInt64.toNat_zero] at hheld
            omega
          · exact fun henough => Position.held_deductPosition r.dvalueTraded henough
      | none =>
          -- Without a row there is nothing to sell, also when the row is created on the way.
          simp only [Option.map_none, Option.getD_none, iff_false, not_exists, not_and]
          intro p' _ hheld
          omega

theorem rowAfter_eq_iff (hvol : r.volumeTraded > 0) :
    m.rowAfter r e securityId = m.getPosition securityId ↔ m.RowKept r e securityId := by
  have hpos : 0 < r.volumeTraded.toNat := (Word.lt_iff 0 r.volumeTraded).1 hvol
  rw [rowAfter, rowBefore, RowKept]
  cases hrow : m.getPosition securityId with
  | none =>
      cases r.tradeSide with
      | notSet => simp
      | buy => simp
      | sell => simp
  | some p =>
      cases r.tradeSide with
      | notSet => simp
      | buy =>
          -- A buy adds shares to the row.
          simp only [Option.map_some, Option.some.injEq, iff_false]
          intro heq
          have hbought := congrArg (fun q => q.volumeAvailableT1.toNat) heq
          have hlt := r.volumeTraded.toNat_lt
          have hlt' := p.volumeAvailableT1.toNat_lt
          simp only [Position.addPosition, UInt64.toNat_add] at hbought
          omega
      | sell =>
          simp only [Option.map_some, Option.some.injEq]
          -- A sale that is covered takes shares from the row.
          by_cases henough : r.volumeTraded.toNat ≤ p.volumeSell.toNat + p.volumeAvailableT0.toNat
          · have hheld := Position.held_deductPosition r.dvalueTraded henough
            refine iff_of_false (fun heq => ?_) fun h => ?_
            · rw [heq] at hheld
              omega
            · rw [h.1, UInt64.toNat_zero] at henough
              omega
          -- One that is not still clears what was to be sold.
          · rw [Position.deductPosition_short _ (by omega)]
            constructor
            · intro heq
              have hsell : (0 : UInt64) = p.volumeSell := congrArg Position.volumeSell heq
              exact ⟨hsell.symm, by omega⟩
            · rintro ⟨hsell, -⟩
              rw [← hsell]

end PositionManager

/-! ## Both rows after a response -/

namespace Service

open Program

variable {w : World} {r : TradeResponse} {e : OrderEntry} {securityId : InternalSecurityId}

theorem positions_recordError_ite (ok : Bool) (error : ErrorStatus) (w : World) :
    ((if ok = true then (pure () : Service Unit) else recordError error).run w).2.positions =
      w.positions := by
  cases ok with
  | true => rfl
  | false => rfl

/-- The update finds the row of the security, or the one that was created for it. -/
theorem getPosition_ensurePositionRow (hw : w.positions.WellIndexed) :
    ((ensurePositionRow e securityId).run w).2.positions.getPosition securityId =
      w.positions.rowBefore e securityId := by
  rw [ensurePositionRow, PositionManager.rowBefore]
  rw [run_bind, run_read]
  cases hrow : w.positions.getPosition securityId with
  | some p =>
      simp only [Option.isSome_some, true_or, if_true, run_pure]
      exact hrow
  | none =>
      simp only [Option.isSome_none, Bool.false_eq_true, false_or]
      by_cases hcode : e.request.securityId.isEmpty = true
      · have hnot : ¬ w.positions.CreatableFrom e securityId := fun h =>
          absurd (hcode.symm.trans h.1) (by simp)
        rw [if_pos hcode, if_neg hnot, run_pure]
        exact hrow
      · have hadd := PositionManager.getPosition_addSecurity hw hrow e.request.securityId.view
          (PositionManager.rowName e securityId) e.request.market
        rw [if_neg hcode, run_bind, run_onPositions]
        refine Eq.trans ?_ hadd
        simp only
        split
        · rfl
        · split <;> rfl

theorem getPosition_updatePosition (r : TradeResponse) (w : World)
    (securityId : InternalSecurityId) :
    ((updatePosition r securityId).run w).2.positions.getPosition securityId =
      match r.tradeSide with
      | .buy => (w.positions.getPosition securityId).map fun p =>
          (p.addPosition r.volumeTraded r.dpriceTraded).2
      | .sell => (w.positions.getPosition securityId).map fun p =>
          (p.deductPosition r.volumeTraded r.dvalueTraded).2
      | .notSet => w.positions.getPosition securityId := by
  rw [updatePosition]
  cases r.tradeSide with
  | buy =>
      simp only
      rw [run_bind, run_onPositions, positions_recordError_ite]
      exact PositionManager.getPosition_onPosition _ _ _
  | sell =>
      simp only
      rw [run_bind, run_onPositions, positions_recordError_ite]
      exact PositionManager.getPosition_onPosition _ _ _
  | notSet => rfl

/-- The row of the security after the first half of a response. -/
theorem getPosition_respond (cfg : Config) (env : Env) (hw : w.positions.WellIndexed)
    (he : w.book.findOrder r.internalOrderId = some e) (hnew : e.request.orderType = .new)
    (hvol : r.volumeTraded > 0) (hkey : (fillSecurity r e).isEmpty = false) :
    ((respond cfg env r).run w).2.positions.getPosition (fillSecurity r e) =
      w.positions.rowAfter r e (fillSecurity r e) := by
  obtain ⟨hbook, hpositions⟩ := run_engineOnTradeResponse cfg r w
  simp only [respond, applyFill]
  simp only [run_bind, if_pos hvol]
  set w₁ := ((if cfg.hasExecutionEngine = true then engineOnTradeResponse r
      else pure () : Service Unit).run w).2
  simp only [updateState, updateTrade, run_onBook, run_findOrder]
  set w₂ := (w₁.applyBook env.nowNs fun b =>
    b.updateState r.internalOrderId r.newState env.nowNs).applyBook
    env.nowNs fun b => b.updateTrade r.internalOrderId r.volumeTraded r.dpriceTraded r.dvalueTraded
      r.dfee env.nowNs with hw₂
  have hrows : w₂.positions = w.positions := by
    rw [hw₂, World.positions_applyBook, World.positions_applyBook, hpositions]
  have hterms : OrderBook.SameTerms w.book w₂.book := by
    rw [hw₂, World.book_applyBook, World.book_applyBook, hbook]
    exact (OrderBook.sameTerms_updateState _ _ _ _).trans
      (OrderBook.sameTerms_updateTrade _ _ _ _ _ _ _)
  -- The fill is settled for the entry as the book has it now; its terms are the old ones.
  obtain ⟨e₂, he₂, heq⟩ : ∃ e₂, w₂.book.findOrder r.internalOrderId = some e₂ ∧
      e₂.terms = e.terms := by
    have := hterms.terms r.internalOrderId
    rw [OrderBook.terms, OrderBook.terms, he, Option.map_some, Option.map_eq_some_iff] at this
    exact this
  have htype : e₂.request.orderType = .new := (congrArg OrderTerms.orderType heq).trans hnew
  have hcode : e₂.request.securityId = e.request.securityId := congrArg OrderTerms.securityId heq
  have hmarket : e₂.request.market = e.request.market := congrArg OrderTerms.market heq
  have hinternal : e₂.request.internalSecurityId = e.request.internalSecurityId :=
    congrArg OrderTerms.internalSecurityId heq
  have hsecurity : fillSecurity r e₂ = fillSecurity r e := by
    simp only [fillSecurity]
    rw [hinternal]
  rw [he₂]
  simp only
  rw [if_pos htype]
  simp only [settleTrade]
  simp only [run_bind, hsecurity, hkey, Bool.false_eq_true, if_false]
  obtain ⟨errors, hsettle⟩ := run_settleFund r he₂
  rw [hsettle, getPosition_updatePosition, getPosition_ensurePositionRow]
  · have hbefore : ∀ m : PositionManager, ∀ fund,
        ({ m with fund := fund } : PositionManager).rowBefore e₂ (fillSecurity r e) =
          m.rowBefore e (fillSecurity r e) := by
      intro m fund
      simp only [PositionManager.rowBefore, PositionManager.CreatableFrom,
        PositionManager.rowName, hcode, hmarket, hinternal]
      rfl
    simp only [World.settle, hbefore, hrows]
    rfl
  · rw [← hrows] at hw
    exact ⟨hw.count_le, hw.row_le⟩

end Service

namespace Service

open Program

variable {w : World} {r : TradeResponse} {e : OrderEntry}

/-- The FUND row after the whole response. -/
theorem fund_handleTradeResponse (cfg : Config) (env : Env) (hid : r.internalOrderId ≠ 0)
    (he : w.book.findOrder r.internalOrderId = some e) (hnew : e.request.orderType = .new)
    (hvol : r.volumeTraded > 0) :
    ((handleTradeResponse cfg env r).run w).2.positions.fund = w.fundAfter r env.nowNs e := by
  have hquiet := quiet_respond cfg env r w
  have hstate := stateOf_respond cfg env hvol w r.internalOrderId
  rw [run_handleTradeResponse cfg env hid, (run_archiveAfterResponse cfg env r _).2]
  set w₂ := ((respond cfg env r).run w).2
  set out := fillEffect w.positions.fund e.fundFrozen r with hout
  have hfill : w.settleFill r = w.settle r.internalOrderId out := by
    simp only [World.settleFill, he]
    rw [if_pos ⟨hvol, hnew⟩]
  rw [hfill] at hquiet
  have hfund : w₂.positions.fund = out.1 := hquiet.fund
  have hself : (w.settle r.internalOrderId out).book.findOrder r.internalOrderId =
      some { e with fundFrozen := out.2 } := OrderBook.findOrder_setFrozen_self he out.2
  obtain ⟨e₂, he₂, hterms⟩ := hquiet.findOrder_some hself
  have hfrozen : e₂.fundFrozen = out.2 := congrArg OrderTerms.fundFrozen hterms
  have htype : e₂.request.orderType = .new := (congrArg OrderTerms.orderType hterms).trans hnew
  have hreserves : e₂.request.reserves = e.request.reserves := by
    simp only [OrderRequest.reserves]
    rw [show e₂.request.orderType = e.request.orderType from congrArg OrderTerms.orderType hterms,
      show e₂.request.tradeSide = e.request.tradeSide from congrArg OrderTerms.tradeSide hterms]
  have hterminal : ((w.book.booked r env.nowNs).stateOf r.internalOrderId).any
      OrderState.isTerminal = e₂.isTerminal := by
    rw [← hstate, OrderBook.stateOf, he₂]
    rfl
  simp only [World.fundAfter, ← hout, hterminal, World.releaseAfter, he₂]
  split
  · rw [if_neg fun h => absurd (htype.symm.trans h.1) (by simp)]
    simp only [World.release, he₂, World.settle, releaseEffect, hfund, hfrozen, hreserves]
  · exact hfund

theorem getPosition_handleTradeResponse (cfg : Config) (env : Env) (hid : r.internalOrderId ≠ 0)
    (w : World) (securityId : InternalSecurityId) :
    ((handleTradeResponse cfg env r).run w).2.positions.getPosition securityId =
      ((respond cfg env r).run w).2.positions.getPosition securityId := by
  have hrelease : ∀ (v : World) orderId, (v.release orderId).positions.getPosition securityId =
      v.positions.getPosition securityId := by
    intro v orderId
    rw [World.release]
    split <;> rfl
  rw [run_handleTradeResponse cfg env hid, (run_archiveAfterResponse cfg env r _).2]
  rw [World.releaseAfter]
  split
  · rfl
  split
  · split
    · rw [hrelease, hrelease]
    · rw [hrelease]
  · rfl

end Service

/-! ## The result -/

/-- In every reachable state, the fill of a new order is settled as a whole exactly when both rows
take it or neither row moves. -/
theorem settled_whole_iff {cfg : Config} {w : World} (hreach : w.Reachable cfg) (env : Env)
    {r : TradeResponse} {e : OrderEntry} (he : w.book.findOrder r.internalOrderId = some e)
    (hnew : e.request.orderType = .new) (hvol : r.volumeTraded > 0)
    (hkey : (Service.fillSecurity r e).isEmpty = false) :
    SettledWhole r (Service.fillSecurity r e) w.positions
      (w.step cfg (env, .tradeResponse r)).positions ↔
      w.positions.fund.Accepts e.fundFrozen r ∧
        w.positions.RowAccepts r e (Service.fillSecurity r e) ∨
        w.FundKept r env.nowNs e ∧ w.positions.RowKept r e (Service.fillSecurity r e) := by
  have hindexed := hreach.indexed
  have hid : r.internalOrderId ≠ 0 := by
    intro hzero
    have hnone := hindexed.zero
    rw [OrderBook.terms, ← hzero, he] at hnone
    exact absurd hnone (by simp)
  have hfund : (w.step cfg (env, .tradeResponse r)).positions.fund = w.fundAfter r env.nowNs e :=
    Service.fund_handleTradeResponse cfg env hid he hnew hvol
  have hrow : (w.step cfg (env, .tradeResponse r)).positions.getPosition
      (Service.fillSecurity r e) = w.positions.rowAfter r e (Service.fillSecurity r e) :=
    (Service.getPosition_handleTradeResponse cfg env hid w _).trans
      (Service.getPosition_respond cfg env hindexed.rows he hnew hvol hkey)
  rw [SettledWhole]
  rw [hfund, hrow, World.fundReflects_fundAfter_iff,
    PositionManager.positionReflects_rowAfter_iff hvol,
    World.fundAfter_eq_iff, PositionManager.rowAfter_eq_iff hvol]

/-- The key of the security of a client order. -/
def clientSecurity : InternalSecurityId :=
  FixedString.assign (asciiBytes ['X', 'S', 'H', 'G', '_', '6', '0', '0', '0', '0', '0'])

/-- The complete fill of the order of `workingBuy` with this fee. -/
def fillOfBuy (fee : DValue) : TradeResponse :=
  { internalOrderId := 7, tradeSide := .buy, newState := .marketAccepted, volumeTraded := 100
    dpriceTraded := 10, dvalueTraded := 1000, dfee := fee }

/-- A fill that its order has reserved is paid, and its shares enter a new row. -/
theorem settled_whole_of_reserved_fill :
    SettledWhole (fillOfBuy 0) clientSecurity workingBuy.positions
      (workingBuy.step {} ({}, .tradeResponse (fillOfBuy 0))).positions := by
  cases he : workingBuy.book.findOrder 7 with
  | none => exact absurd he (by decide)
  | some e =>
      have hentry : (workingBuy.book.findOrder 7).all (fun e => decide (e.request.orderType = .new ∧
          Service.fillSecurity (fillOfBuy 0) e = clientSecurity ∧ e.fundFrozen = 1000 ∧
          workingBuy.positions.CreatableFrom e clientSecurity)) = true := by decide
      rw [he, Option.all_some, decide_eq_true_eq] at hentry
      obtain ⟨hnew, hsecurity, hfrozen, hcreatable⟩ := hentry
      have hkey : (Service.fillSecurity (fillOfBuy 0) e).isEmpty = false := by
        rw [hsecurity]
        decide
      rw [← hsecurity]
      refine (settled_whole_iff workingBuy_reachable {} he hnew (by decide) hkey).2
        (Or.inl ⟨?_, ?_⟩)
      · rw [hfrozen]
        exact (by decide : workingBuy.positions.fund.Pays (fillOfBuy 0))
      · have hnone : workingBuy.positions.getPosition clientSecurity = none := by decide
        rw [hsecurity]
        rw [PositionManager.RowAccepts]
        rw [hnone]
        exact hcreatable

/-- A fee above the estimate: the payment is refused, the shares are booked, and the reservation
goes back to the available cash. -/
theorem settled_in_part_of_unexpected_fee :
    workingBuy.Reachable {} ∧
      (workingBuy.book.findOrder 7).any (fun e => decide (e.request.orderType = .new ∧
        Service.fillSecurity (fillOfBuy 5) e = clientSecurity)) = true ∧
      ¬ SettledWhole (fillOfBuy 5) clientSecurity workingBuy.positions
        (workingBuy.step {} ({}, .tradeResponse (fillOfBuy 5))).positions := by
  refine ⟨workingBuy_reachable, by decide, ?_⟩
  have hfund : (workingBuy.step {} ({}, .tradeResponse (fillOfBuy 5))).positions.fund =
      { totalAsset := 10000, available := 10000 } := by decide
  have hrow : ((workingBuy.step {} ({}, .tradeResponse (fillOfBuy 5))).positions.getPosition
      clientSecurity).map Position.held = some 100 := by decide
  rintro (⟨⟨-, hcash, -⟩, -⟩ | ⟨-, hsame⟩)
  · rw [hfund] at hcash
    exact absurd hcash (by decide)
  · rw [hsame] at hrow
    exact absurd hrow (by decide)

end AccountServices
