import AccountServices.Foundation.Program
import AccountServices.Foundation.Word
import AccountServices.Portfolio.PositionManager

/-!
# The FUND row as a ledger

What each fund operation does to the four columns of the FUND row, as equations between natural
numbers, and the balance identity

  total asset = available + frozen + market value.

Five of the six operations keep it. `apply_sell_trade_fund` keeps it while the proceeds do not
exceed the recorded market value; above that, the market value stops at 0 and the excess is cash
that the total asset does not know of.
-/

set_option autoImplicit false

namespace AccountServices

open Foundation

namespace FundInfo

variable {f g : FundInfo} {amount fee : DValue}

/-! ## The operations -/

theorem freezeFund_facts (h : f.freezeFund amount = some g) :
    g.totalAsset = f.totalAsset ∧ g.marketValue = f.marketValue ∧
      g.available.toNat + amount.toNat = f.available.toNat ∧
      g.frozen.toNat = f.frozen.toNat + amount.toNat := by
  rw [freezeFund] at h
  split at h
  · exact absurd h (by simp)
  next havail =>
    split at h
    · exact absurd h (by simp)
    next hfrozen =>
      cases h
      have h₁ := Word.toNat_sub_of_not_lt havail
      have h₂ := Word.toNat_add_of_not_lt hfrozen
      exact ⟨rfl, rfl, by simp only; omega, h₂.2⟩

theorem unfreezeFund_facts (h : f.unfreezeFund amount = some g) :
    g.totalAsset = f.totalAsset ∧ g.marketValue = f.marketValue ∧
      g.available.toNat = f.available.toNat + amount.toNat ∧
      g.frozen.toNat + amount.toNat = f.frozen.toNat := by
  rw [unfreezeFund] at h
  split at h
  · exact absurd h (by simp)
  next hfrozen =>
    split at h
    · exact absurd h (by simp)
    next havail =>
      cases h
      have h₁ := Word.toNat_sub_of_not_lt hfrozen
      have h₂ := Word.toNat_add_of_not_lt havail
      exact ⟨rfl, rfl, h₂.2, by simp only; omega⟩

theorem totalAssetAfter_toNat (f : FundInfo) (fee : DValue) :
    (f.totalAssetAfter fee).toNat = f.totalAsset.toNat - fee.toNat := by
  rw [totalAssetAfter]
  split
  next hlt =>
    rw [Word.lt_iff] at hlt
    rw [UInt64.toNat_zero]
    omega
  next hge => exact (Word.toNat_sub_of_not_lt hge).2

theorem deductFund_facts (h : f.deductFund amount fee = some g) :
    amount.toNat + fee.toNat < 2 ^ 64 ∧ g.available = f.available ∧
      g.totalAsset.toNat = f.totalAsset.toNat - fee.toNat ∧
      g.marketValue.toNat = f.marketValue.toNat + amount.toNat ∧
      g.frozen.toNat + (amount.toNat + fee.toNat) = f.frozen.toNat := by
  rw [deductFund] at h
  split at h
  · exact absurd h (by simp)
  next htotal =>
    split at h
    · exact absurd h (by simp)
    next hfrozen =>
      split at h
      · exact absurd h (by simp)
      next hvalue =>
        cases h
        have h₁ := Word.toNat_add_of_not_lt htotal
        have h₂ := Word.toNat_sub_of_not_lt hfrozen
        have h₃ := Word.toNat_add_of_not_lt hvalue
        refine ⟨h₁.1, rfl, totalAssetAfter_toNat f fee, h₃.2, ?_⟩
        simp only
        omega

theorem addFund_facts (h : f.addFund amount = some g) :
    g.frozen = f.frozen ∧ g.marketValue = f.marketValue ∧
      g.available.toNat = f.available.toNat + amount.toNat ∧
      g.totalAsset.toNat = f.totalAsset.toNat + amount.toNat := by
  rw [addFund] at h
  split at h
  · exact absurd h (by simp)
  next havail =>
    split at h
    · exact absurd h (by simp)
    next htotal =>
      cases h
      exact ⟨rfl, rfl, (Word.toNat_add_of_not_lt havail).2, (Word.toNat_add_of_not_lt htotal).2⟩

theorem applyBuyTradeFund_facts (h : f.applyBuyTradeFund amount fee = some g) :
    g.frozen = f.frozen ∧
      g.totalAsset.toNat = f.totalAsset.toNat - fee.toNat ∧
      g.marketValue.toNat = f.marketValue.toNat + amount.toNat ∧
      g.available.toNat + (amount.toNat + fee.toNat) = f.available.toNat := by
  rw [applyBuyTradeFund] at h
  split at h
  · exact absurd h (by simp)
  next htotal =>
    split at h
    · exact absurd h (by simp)
    next havail =>
      split at h
      · exact absurd h (by simp)
      next hvalue =>
        cases h
        have h₁ := Word.toNat_add_of_not_lt htotal
        have h₂ := Word.toNat_sub_of_not_lt havail
        have h₃ := Word.toNat_add_of_not_lt hvalue
        refine ⟨rfl, totalAssetAfter_toNat f fee, h₃.2, ?_⟩
        simp only
        omega

/-- The sell is refused exactly when the cash cannot carry the difference of proceeds and fee. -/
theorem availableAfterSell_eq_none_iff (f : FundInfo) (amount fee : DValue) :
    f.availableAfterSell amount fee = none ↔
      f.available.toNat + amount.toNat < fee.toNat ∨
        2 ^ 64 + fee.toNat ≤ f.available.toNat + amount.toNat := by
  have havail := f.available.toNat_lt
  have hamount := amount.toNat_lt
  have hfee := fee.toNat_lt
  rw [availableAfterSell]
  -- The surplus of the sale is added, or the shortfall is taken.
  by_cases hge : amount ≥ fee
  · have hge' := (Word.le_iff fee amount).1 hge
    have hsub := UInt64.toNat_sub_of_le amount fee hge
    have hwrap := Word.add_lt_self_iff f.available (amount - fee)
    rw [if_pos hge]
    split
    next hlt =>
      have := hwrap.1 hlt
      exact iff_of_true rfl (by omega)
    next hlt =>
      rw [hwrap] at hlt
      exact iff_of_false (by simp) (by omega)
  · have hlt : amount.toNat < fee.toNat := by
      rw [ge_iff_le, Word.le_iff] at hge
      omega
    have hsub := UInt64.toNat_sub_of_le fee amount ((Word.le_iff amount fee).2 (by omega))
    rw [if_neg hge]
    split
    next hshort =>
      rw [Word.lt_iff] at hshort
      exact iff_of_true rfl (by omega)
    next hshort =>
      rw [Word.lt_iff] at hshort
      exact iff_of_false (by simp) (by omega)

theorem availableAfterSell_facts {cash : UInt64} (h : f.availableAfterSell amount fee = some cash) :
    cash.toNat + fee.toNat = f.available.toNat + amount.toNat := by
  rw [availableAfterSell] at h
  split at h
  next hge =>
    split at h
    · exact absurd h (by simp)
    next hwrap =>
      cases h
      have h₁ := Word.toNat_add_of_not_lt hwrap
      have h₂ := UInt64.toNat_sub_of_le amount fee hge
      have h₃ := (Word.le_iff fee amount).1 hge
      omega
  next hge =>
    have hle : amount.toNat ≤ fee.toNat := by
      rw [ge_iff_le, Word.le_iff] at hge
      omega
    split at h
    · exact absurd h (by simp)
    next hshort =>
      cases h
      have h₁ := Word.toNat_sub_of_not_lt hshort
      have h₂ := UInt64.toNat_sub_of_le fee amount ((Word.le_iff amount fee).2 hle)
      omega

theorem applySellTradeFund_eq_none_iff (f : FundInfo) (amount fee : DValue) :
    f.applySellTradeFund amount fee = none ↔ f.availableAfterSell amount fee = none := by
  rw [applySellTradeFund]
  split
  next h => simp [h]
  next cash h => simp [h]

theorem applySellTradeFund_facts (h : f.applySellTradeFund amount fee = some g) :
    g.frozen = f.frozen ∧
      g.totalAsset.toNat = f.totalAsset.toNat - fee.toNat ∧
      g.marketValue.toNat = f.marketValue.toNat - amount.toNat ∧
      g.available.toNat + fee.toNat = f.available.toNat + amount.toNat := by
  rw [applySellTradeFund] at h
  split at h
  · exact absurd h (by simp)
  next cash hcash =>
    cases h
    refine ⟨rfl, totalAssetAfter_toNat f fee, ?_, availableAfterSell_facts hcash⟩
    simp only
    split
    next hlt =>
      rw [Word.lt_iff] at hlt
      rw [UInt64.toNat_zero]
      omega
    next hge => exact (Word.toNat_sub_of_not_lt hge).2

end FundInfo

/-! ## The balance identity -/

/-- The balance identity of the FUND row. -/
def FundInfo.Balanced (f : FundInfo) : Prop :=
  f.totalAsset.toNat = f.available.toNat + f.frozen.toNat + f.marketValue.toNat

instance (f : FundInfo) : Decidable f.Balanced := inferInstanceAs (Decidable (_ = _))

/-- A call of one of the six fund operations. -/
inductive FundCall where
  | freezeFund (amount : DValue)
  | unfreezeFund (amount : DValue)
  | deductFund (amount fee : DValue)
  | addFund (amount : DValue)
  | applyBuyTradeFund (amount fee : DValue)
  | applySellTradeFund (amount fee : DValue)
  deriving DecidableEq, Repr

namespace FundCall

/-- The operation that is called. -/
def op : FundCall → FundInfo → Option FundInfo
  | .freezeFund amount, f => f.freezeFund amount
  | .unfreezeFund amount, f => f.unfreezeFund amount
  | .deductFund amount fee, f => f.deductFund amount fee
  | .addFund amount, f => f.addFund amount
  | .applyBuyTradeFund amount fee, f => f.applyBuyTradeFund amount fee
  | .applySellTradeFund amount fee, f => f.applySellTradeFund amount fee

/-- The FUND row after the call: unchanged when the operation refuses. -/
def apply (f : FundInfo) (call : FundCall) : FundInfo := (call.op f).getD f

/-- A sell above the recorded market value, unless it is refused for lack of cash or for overflow or
takes everything there is. -/
def OversellsValue (f : FundInfo) : FundCall → Prop
  | .applySellTradeFund amount fee =>
      f.marketValue < amount ∧ fee.toNat ≤ f.available.toNat + amount.toNat ∧
        f.available.toNat + amount.toNat < 2 ^ 64 + fee.toNat ∧
        ¬ (f.frozen = 0 ∧ fee.toNat = f.available.toNat + amount.toNat)
  | _ => False

instance (f : FundInfo) : (call : FundCall) → Decidable (call.OversellsValue f)
  | .applySellTradeFund _ _ => inferInstanceAs (Decidable (_ ∧ _))
  | .freezeFund _ | .unfreezeFund _ | .deductFund _ _ | .addFund _ | .applyBuyTradeFund _ _ =>
      inferInstanceAs (Decidable False)

theorem oversellsValue_sell_iff (f : FundInfo) (amount fee : DValue) :
    (FundCall.applySellTradeFund amount fee).OversellsValue f ↔
      f.marketValue.toNat < amount.toNat ∧ fee.toNat ≤ f.available.toNat + amount.toNat ∧
        f.available.toNat + amount.toNat < 2 ^ 64 + fee.toNat ∧
        ¬ (f.frozen = 0 ∧ fee.toNat = f.available.toNat + amount.toNat) := by
  rw [OversellsValue, Word.lt_iff]

/-- A call that is refused, or that keeps the identity, leaves a balanced row balanced. -/
theorem balanced_apply_of_op {f : FundInfo} {call : FundCall} (hf : f.Balanced)
    (h : ∀ g, call.op f = some g → g.Balanced) : (call.apply f).Balanced := by
  rw [apply]
  cases hop : call.op f with
  | none => exact hf
  | some g => exact h g hop

/-- The effect of a sell on the identity: the row stays balanced exactly when the market value
covers the proceeds or nothing is left. -/
theorem balanced_sell_iff {f g : FundInfo} {amount fee : DValue} (hf : f.Balanced)
    (h : f.applySellTradeFund amount fee = some g) :
    g.Balanced ↔ amount ≤ f.marketValue ∨
      (f.frozen = 0 ∧ fee.toNat = f.available.toNat + amount.toNat) := by
  obtain ⟨hfrozen, htotal, hvalue, hcash⟩ := FundInfo.applySellTradeFund_facts h
  have hzero := Word.eq_iff f.frozen 0
  rw [UInt64.toNat_zero] at hzero
  rw [FundInfo.Balanced] at hf ⊢
  rw [htotal, hvalue, hfrozen, Word.le_iff, hzero]
  constructor
  · intro hbal
    by_cases hle : amount.toNat ≤ f.marketValue.toNat
    · exact Or.inl hle
    · refine Or.inr ⟨?_, ?_⟩ <;> omega
  · rintro (hle | ⟨hnone, hfee⟩) <;> omega

/-- One call keeps a balanced row balanced exactly when it does not oversell. -/
theorem balanced_apply_iff {f : FundInfo} (call : FundCall) (hf : f.Balanced) :
    (call.apply f).Balanced ↔ ¬ call.OversellsValue f := by
  have hbal := hf
  rw [FundInfo.Balanced] at hbal
  -- Five operations change the parts and the total alike; a refused one changes nothing.
  cases call with
  | freezeFund amount =>
      refine iff_of_true (balanced_apply_of_op hf fun g hg => ?_) (fun h => h)
      obtain ⟨htotal, hvalue, havail, hfrozen⟩ := FundInfo.freezeFund_facts hg
      rw [FundInfo.Balanced]
      rw [htotal, hvalue]
      omega
  | unfreezeFund amount =>
      refine iff_of_true (balanced_apply_of_op hf fun g hg => ?_) (fun h => h)
      obtain ⟨htotal, hvalue, havail, hfrozen⟩ := FundInfo.unfreezeFund_facts hg
      rw [FundInfo.Balanced]
      rw [htotal, hvalue]
      omega
  | deductFund amount fee =>
      refine iff_of_true (balanced_apply_of_op hf fun g hg => ?_) (fun h => h)
      obtain ⟨-, havail, htotal, hvalue, hfrozen⟩ := FundInfo.deductFund_facts hg
      rw [FundInfo.Balanced]
      rw [htotal, hvalue, havail]
      omega
  | addFund amount =>
      refine iff_of_true (balanced_apply_of_op hf fun g hg => ?_) (fun h => h)
      obtain ⟨hfrozen, hvalue, havail, htotal⟩ := FundInfo.addFund_facts hg
      rw [FundInfo.Balanced]
      rw [hfrozen, hvalue]
      omega
  | applyBuyTradeFund amount fee =>
      refine iff_of_true (balanced_apply_of_op hf fun g hg => ?_) (fun h => h)
      obtain ⟨hfrozen, htotal, hvalue, havail⟩ := FundInfo.applyBuyTradeFund_facts hg
      rw [FundInfo.Balanced]
      rw [hfrozen, htotal, hvalue]
      omega
  -- A sale takes its amount from the market value down to zero, and adds all of it to the cash.
  | applySellTradeFund amount fee =>
      have happly : apply f (.applySellTradeFund amount fee) =
          (f.applySellTradeFund amount fee).getD f := rfl
      rw [happly, oversellsValue_sell_iff]
      cases hop : f.applySellTradeFund amount fee with
      | none =>
          rw [FundInfo.applySellTradeFund_eq_none_iff,
            FundInfo.availableAfterSell_eq_none_iff] at hop
          exact iff_of_true hf (by omega)
      | some g =>
          have hcash : ¬ (f.applySellTradeFund amount fee = none) := by simp [hop]
          rw [FundInfo.applySellTradeFund_eq_none_iff,
            FundInfo.availableAfterSell_eq_none_iff] at hcash
          rw [Option.getD_some, balanced_sell_iff hf hop, Word.le_iff]
          constructor
          · rintro (hle | hnone) ⟨hlt, -, -, hrest⟩
            · omega
            · exact hrest hnone
          · intro hno
            by_cases hle : amount.toNat ≤ f.marketValue.toNat
            · exact Or.inl hle
            · refine Or.inr (Classical.byContradiction fun hrest => hno ?_)
              exact ⟨by omega, by omega, by omega, hrest⟩

/-- In every run of fund operations in which no sell exceeds the recorded market value, the identity
holds after every call. -/
theorem balanced_of_no_oversell (f : FundInfo) (calls : List FundCall) (hf : f.Balanced)
    (hmeet : StepsMeet apply (fun g call => ¬ call.OversellsValue g) f calls) :
    ∀ g ∈ trace apply f calls, g.Balanced :=
  trace_invariant FundInfo.Balanced (fun _ call hg hcall => (balanced_apply_iff call hg).2 hcall) hf
    hmeet

/-- A freeze, a sell within the market value and a settlement from the frozen cash. -/
theorem balanced_of_no_oversell_example :
    ({ totalAsset := 1000, available := 700, frozen := 100, marketValue :=
      200 } : FundInfo).Balanced ∧
    ∀ g ∈ trace apply { totalAsset := 1000, available := 700, frozen := 100, marketValue := 200 }
        [.freezeFund 50, .applySellTradeFund 200 3, .deductFund 120 5], g.Balanced :=
  ⟨by decide, balanced_of_no_oversell _ _ (by decide) (by
    refine ⟨?_, ?_, ?_, trivial⟩ <;> decide)⟩

/-- Selling for 150 what is recorded with a value of 100 leaves a total asset of 1100 against 1150
in cash. -/
theorem not_balanced_after_oversell :
    ¬ (∀ (f : FundInfo) (calls : List FundCall), f.Balanced →
      ∀ g ∈ trace apply f calls,
        g.available.toNat + g.frozen.toNat + g.marketValue.toNat < 2 ^ 64 → g.Balanced) := by
  intro h
  have hbad := h { totalAsset := 1100, available := 1000, frozen := 0, marketValue := 100 }
    [.applySellTradeFund 150 0] (by decide)
    { totalAsset := 1100, available := 1150, frozen := 0, marketValue := 0 } (by decide) (by decide)
  exact absurd hbad (by decide)

end FundCall

end AccountServices
