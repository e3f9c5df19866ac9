import AccountServices.Foundation.LockedRows
import AccountServices.Portfolio.FundLedger

/-!
# The locks of the position table

`portfolio/positions.h` and `portfolio/position_manager.cpp`, one access to the shared memory at a
time. Each row of the table has a lock of its own, a flag that is exchanged until it was free. The
operations load and store the columns of their row one by one.

The FUND row is the row `none` here and the security row `n` is the row `some n`.
-/

set_option autoImplicit false

namespace AccountServices

open Foundation

/-- `position_lock`. -/
def positionLock : Lock where
  Wait := Unit
  first := ()
  Access _ flag out flag' := flag' = true ∧ out = if flag then some () else none
  waits := by
    rintro w w' b b' ⟨rfl, hout⟩
    cases b with
    | true => rfl
    | false => exact absurd hout (by simp)
  takes := by
    rintro w b b' ⟨rfl, hout⟩
    cases b with
    | true => exact absurd hout (by simp)
    | false => exact ⟨rfl, rfl⟩

/-- A row of the table. -/
abbrev TableRow : Option Nat → Type
  | none => FundInfo
  | some _ => Position

/-- The two kinds of accesses to a column. -/
inductive ColumnAccess where
  | load | store
  deriving DecidableEq, Repr

/-! ## The operations on the FUND row -/

namespace FundRow

/-- An operation on the FUND row. -/
abbrev Body (A : Type) := Program ColumnAccess FundInfo A

def loadAvailable : Body UInt64 := .read .load FundInfo.available

def loadFrozen : Body UInt64 := .read .load FundInfo.frozen

def loadTotalAsset : Body UInt64 := .read .load FundInfo.totalAsset

def loadMarketValue : Body UInt64 := .read .load FundInfo.marketValue

def storeAvailable (v : UInt64) : Body Unit := .modify .store fun f => { f with available := v }

def storeFrozen (v : UInt64) : Body Unit := .modify .store fun f => { f with frozen := v }

def storeTotalAsset (v : UInt64) : Body Unit := .modify .store fun f => { f with totalAsset := v }

def storeMarketValue (v : UInt64) : Body Unit := .modify .store fun f => { f with marketValue := v }

/-- `freeze_fund`, with the lock held. -/
def freezeFund (amount : DValue) : Body Bool := do
  let available ← loadAvailable
  let frozen ← loadFrozen
  if available < amount then return false
  if frozen + amount < frozen then return false
  storeAvailable (available - amount)
  storeFrozen (frozen + amount)
  return true

/-- `unfreeze_fund`, with the lock held. -/
def unfreezeFund (amount : DValue) : Body Bool := do
  let available ← loadAvailable
  let frozen ← loadFrozen
  if frozen < amount then return false
  if available + amount < available then return false
  storeFrozen (frozen - amount)
  storeAvailable (available + amount)
  return true

/-- `deduct_fund`, with the lock held. -/
def deductFund (amount fee : DValue) : Body Bool := do
  let frozen ← loadFrozen
  if frozen < amount + fee then return false
  let marketValue ← loadMarketValue
  if marketValue + amount < marketValue then return false
  let totalAsset ← loadTotalAsset
  storeFrozen (frozen - (amount + fee))
  storeTotalAsset (if totalAsset < fee then 0 else totalAsset - fee)
  storeMarketValue (marketValue + amount)
  return true

/-- `add_fund`, with the lock held. -/
def addFund (amount : DValue) : Body Bool := do
  let available ← loadAvailable
  let totalAsset ← loadTotalAsset
  if available + amount < available then return false
  if totalAsset + amount < totalAsset then return false
  storeAvailable (available + amount)
  storeTotalAsset (totalAsset + amount)
  return true

/-- `apply_buy_trade_fund`, with the lock held. -/
def applyBuyTradeFund (amount fee : DValue) : Body Bool := do
  let available ← loadAvailable
  if available < amount + fee then return false
  let marketValue ← loadMarketValue
  if marketValue + amount < marketValue then return false
  let totalAsset ← loadTotalAsset
  storeAvailable (available - (amount + fee))
  storeTotalAsset (if totalAsset < fee then 0 else totalAsset - fee)
  storeMarketValue (marketValue + amount)
  return true

/-- The end of `apply_sell_trade_fund`, once the new cash is known. -/
def applySell (amount fee : DValue) (newAvailable : UInt64) : Body Bool := do
  let marketValue ← loadMarketValue
  let totalAsset ← loadTotalAsset
  storeAvailable newAvailable
  storeTotalAsset (if totalAsset < fee then 0 else totalAsset - fee)
  storeMarketValue (if marketValue < amount then 0 else marketValue - amount)
  return true

/-- `apply_sell_trade_fund`, with the lock held. -/
def applySellTradeFund (amount fee : DValue) : Body Bool := do
  let available ← loadAvailable
  if amount ≥ fee then
    if available + (amount - fee) < available then return false
    applySell amount fee (available + (amount - fee))
  else
    if available < fee - amount then return false
    applySell amount fee (available - (fee - amount))

/-- `get_fund_info`, with the lock held: `load_fund_info`. -/
def getFundInfo : Body FundInfo := do
  let totalAsset ← loadTotalAsset
  let available ← loadAvailable
  let frozen ← loadFrozen
  let marketValue ← loadMarketValue
  return {
    totalAsset := totalAsset
    available := available
    frozen := frozen
    marketValue := marketValue }

/-- `overwrite_fund_info`, with the lock held: `store_fund_info`. -/
def overwriteFundInfo (fund : FundInfo) : Body Bool := do
  storeTotalAsset fund.totalAsset
  storeAvailable fund.available
  storeFrozen fund.frozen
  storeMarketValue fund.marketValue
  return true

/-- An operation that refuses leaves the row as it is. -/
def settle (out : Option FundInfo) (f : FundInfo) : Bool × FundInfo := (out.isSome, out.getD f)

variable (f : FundInfo) (amount fee : DValue)

theorem run_freezeFund : (freezeFund amount).run f = settle (f.freezeFund amount) f := by
  simp only [freezeFund, loadAvailable, loadFrozen, storeAvailable, storeFrozen,
    FundInfo.freezeFund, settle, Program.run_bind, Program.run_read]
  by_cases hshort : f.available < amount
  · simp [hshort]
  · by_cases hover : f.frozen + amount < f.frozen <;> simp [hshort, hover]

theorem run_unfreezeFund : (unfreezeFund amount).run f = settle (f.unfreezeFund amount) f := by
  simp only [unfreezeFund, loadAvailable, loadFrozen, storeAvailable, storeFrozen,
    FundInfo.unfreezeFund, settle, Program.run_bind, Program.run_read]
  by_cases hshort : f.frozen < amount
  · simp [hshort]
  · by_cases hover : f.available + amount < f.available <;> simp [hshort, hover]

theorem run_deductFund (hfits : ¬amount + fee < amount) :
    (deductFund amount fee).run f = settle (f.deductFund amount fee) f := by
  simp only [deductFund, loadFrozen, loadMarketValue, loadTotalAsset, storeFrozen, storeTotalAsset,
    storeMarketValue, FundInfo.deductFund, FundInfo.totalAssetAfter, settle, Program.run_bind,
    Program.run_read, if_neg hfits]
  by_cases hshort : f.frozen < amount + fee
  · simp [hshort]
  · by_cases hover : f.marketValue + amount < f.marketValue
    · simp [hshort, hover]
    · simp [hshort, hover]
      rfl

theorem run_addFund : (addFund amount).run f = settle (f.addFund amount) f := by
  simp only [addFund, loadAvailable, loadTotalAsset, storeAvailable, storeTotalAsset,
    FundInfo.addFund, settle, Program.run_bind, Program.run_read]
  by_cases hcash : f.available + amount < f.available
  · simp [hcash]
  · by_cases htotal : f.totalAsset + amount < f.totalAsset <;> simp [hcash, htotal]

theorem run_applyBuyTradeFund (hfits : ¬amount + fee < amount) :
    (applyBuyTradeFund amount fee).run f = settle (f.applyBuyTradeFund amount fee) f := by
  simp only [applyBuyTradeFund, loadAvailable, loadMarketValue, loadTotalAsset, storeAvailable,
    storeTotalAsset, storeMarketValue, FundInfo.applyBuyTradeFund, FundInfo.totalAssetAfter, settle,
    Program.run_bind, Program.run_read, if_neg hfits]
  by_cases hshort : f.available < amount + fee
  · simp [hshort]
  · by_cases hover : f.marketValue + amount < f.marketValue
    · simp [hshort, hover]
    · simp [hshort, hover]
      rfl

theorem run_applySellTradeFund :
    (applySellTradeFund amount fee).run f = settle (f.applySellTradeFund amount fee) f := by
  simp only [applySellTradeFund, applySell, loadAvailable, loadMarketValue,
    loadTotalAsset, storeAvailable,
    storeTotalAsset, storeMarketValue, FundInfo.applySellTradeFund, FundInfo.availableAfterSell,
    FundInfo.totalAssetAfter, settle, Program.run_bind, Program.run_read]
  by_cases hgain : amount ≥ fee
  · by_cases hover : f.available + (amount - fee) < f.available
    · simp [hgain, hover]
    · simp [hgain, hover]
      exact ⟨rfl, rfl⟩
  · by_cases hshort : f.available < fee - amount
    · simp [hgain, hshort]
    · simp [hgain, hshort]
      exact ⟨rfl, rfl⟩

/-- The six operations on the FUND row, with the lock held. -/
def body : FundCall → Body Bool
  | .freezeFund amount => freezeFund amount
  | .unfreezeFund amount => unfreezeFund amount
  | .deductFund amount fee => deductFund amount fee
  | .addFund amount => addFund amount
  | .applyBuyTradeFund amount fee => applyBuyTradeFund amount fee
  | .applySellTradeFund amount fee => applySellTradeFund amount fee

/-- Whether a call is refused before it takes the lock. -/
def refusedAtOnce : FundCall → Bool
  | .deductFund amount fee => decide (amount + fee < amount)
  | .applyBuyTradeFund amount fee => decide (amount + fee < amount)
  | _ => false

variable {f}

theorem op_of_refused {call : FundCall} (h : refusedAtOnce call = true) : call.op f = none := by
  cases call with
  | deductFund amount fee => exact if_pos (of_decide_eq_true h)
  | applyBuyTradeFund amount fee => exact if_pos (of_decide_eq_true h)
  | freezeFund amount => exact absurd h Bool.false_ne_true
  | unfreezeFund amount => exact absurd h Bool.false_ne_true
  | addFund amount => exact absurd h Bool.false_ne_true
  | applySellTradeFund amount fee => exact absurd h Bool.false_ne_true

/-- With the lock held an operation does what the atomic one does. -/
theorem run_body {call : FundCall} (h : refusedAtOnce call = false) :
    (body call).run f = settle (call.op f) f := by
  cases call with
  | freezeFund amount => exact run_freezeFund f amount
  | unfreezeFund amount => exact run_unfreezeFund f amount
  | deductFund amount fee => exact run_deductFund f amount fee (of_decide_eq_false h)
  | addFund amount => exact run_addFund f amount
  | applyBuyTradeFund amount fee => exact run_applyBuyTradeFund f amount fee (of_decide_eq_false h)
  | applySellTradeFund amount fee => exact run_applySellTradeFund f amount fee

end FundRow

/-! ## The operations on a security row -/

namespace SecurityRow

/-- An operation on a security row. -/
abbrev Body (A : Type) := Program ColumnAccess Position A

def loadVolumeAvailableT0 : Body UInt64 := .read .load Position.volumeAvailableT0

def loadVolumeSell : Body UInt64 := .read .load Position.volumeSell

def storeVolumeSell (v : UInt64) : Body Unit := .modify .store fun p => { p with volumeSell := v }

/-- A compound assignment of a column: a load, then a store. -/
def assign (get : Position → UInt64) (set : UInt64 → Position → Position)
    (change : UInt64 → UInt64) : Body Unit := do
  let v ← Program.read .load get
  .modify .store (set (change v))

/-- `freeze_position`, with the lock held. -/
def freezePosition (volume : Volume) : Body Bool := do
  if (← loadVolumeAvailableT0) < volume then return false
  assign Position.volumeAvailableT0 (fun v p => { p with volumeAvailableT0 := v }) (· - volume)
  assign Position.volumeSell (fun v p => { p with volumeSell := v }) (· + volume)
  assign Position.countOrder (fun v p => { p with countOrder := v }) (· + 1)
  return true

/-- `unfreeze_position`, with the lock held. -/
def unfreezePosition (volume : Volume) : Body Bool := do
  if (← loadVolumeSell) < volume then return false
  assign Position.volumeSell (fun v p => { p with volumeSell := v }) (· - volume)
  assign Position.volumeAvailableT0 (fun v p => { p with volumeAvailableT0 := v }) (· + volume)
  return true

/-- The end of `deduct_position`. -/
def countSold (volume : Volume) (value : DValue) : Body Bool := do
  assign Position.volumeSellTraded (fun v p => { p with volumeSellTraded := v }) (· + volume)
  assign Position.dvalueSellTraded (fun v p => { p with dvalueSellTraded := v }) (· + value)
  return true

/-- The shares of `deduct_position` that are still to be taken from the sellable ones. -/
def deductRemaining (volume : Volume) (value : DValue) (remaining : Volume) : Body Bool := do
  if (← loadVolumeAvailableT0) < remaining then return false
  assign Position.volumeAvailableT0 (fun v p => { p with volumeAvailableT0 := v }) (· - remaining)
  countSold volume value

/-- `deduct_position`, with the lock held. -/
def deductPosition (volume : Volume) (value : DValue) : Body Bool := do
  if (← loadVolumeSell) ≥ volume then
    assign Position.volumeSell (fun v p => { p with volumeSell := v }) (· - volume)
    countSold volume value
  else if (← loadVolumeSell) > 0 then
    let frozen ← loadVolumeSell
    storeVolumeSell 0
    deductRemaining volume value (volume - frozen)
  else
    deductRemaining volume value volume

/-- `add_position`, with the lock held. -/
def addPosition (volume : Volume) (price : DPrice) : Body Bool := do
  let value := if volume = 0 ∨ price = 0 then 0 else volume * price
  assign Position.volumeBuy (fun v p => { p with volumeBuy := v }) (· + volume)
  assign Position.dvalueBuy (fun v p => { p with dvalueBuy := v }) (· + value)
  assign Position.volumeBuyTraded (fun v p => { p with volumeBuyTraded := v }) (· + volume)
  assign Position.dvalueBuyTraded (fun v p => { p with dvalueBuyTraded := v }) (· + value)
  assign Position.volumeAvailableT1 (fun v p => { p with volumeAvailableT1 := v }) (· + volume)
  return true

@[simp] theorem run_assign (get : Position → UInt64) (set : UInt64 → Position → Position)
    (change : UInt64 → UInt64)
    (p : Position) : (assign get set change).run p = ((), set (change (get p)) p) := rfl

variable (p : Position) (volume : Volume)

theorem run_freezePosition : (freezePosition volume).run p = p.freezePosition volume := by
  simp only [freezePosition, loadVolumeAvailableT0, Position.freezePosition,
    Program.run_bind, Program.run_read]
  by_cases hshort : p.volumeAvailableT0 < volume <;> simp [hshort]

theorem run_unfreezePosition : (unfreezePosition volume).run p = p.unfreezePosition volume := by
  simp only [unfreezePosition, loadVolumeSell, Position.unfreezePosition,
    Program.run_bind, Program.run_read]
  by_cases hshort : p.volumeSell < volume <;> simp [hshort]

theorem run_deductPosition (value : DValue) :
    (deductPosition volume value).run p = p.deductPosition volume value := by
  simp only [deductPosition, deductRemaining, countSold, loadVolumeSell, loadVolumeAvailableT0,
    storeVolumeSell, Position.deductPosition, Program.run_bind, Program.run_read]
  by_cases hfrozen : p.volumeSell ≥ volume
  · simp [hfrozen]
  · by_cases hsome : p.volumeSell > 0
    · by_cases hshort : p.volumeAvailableT0 < volume - p.volumeSell <;>
        simp [hfrozen, hsome, hshort]
    · have hzero : p.volumeSell = 0 := UInt64.le_antisymm (UInt64.not_lt.1 hsome) (UInt64.zero_le)
      by_cases hshort : p.volumeAvailableT0 < volume <;> simp [hfrozen, hshort, ← hzero]

theorem run_addPosition (price : DPrice) :
    (addPosition volume price).run p = p.addPosition volume price := rfl

end SecurityRow

/-! ## The table -/

/-- A call on the rows of the table. -/
inductive TableCall where
  | getAvailableFund
  | getFundInfo
  | overwriteFundInfo (fund : FundInfo)
  | fund (call : FundCall)
  | getSellableVolume (securityId : InternalSecurityId)
  | freezePosition (securityId : InternalSecurityId) (volume : Volume)
  | unfreezePosition (securityId : InternalSecurityId) (volume : Volume)
  | deductPosition (securityId : InternalSecurityId) (volume : Volume) (value : DValue)
  | addPosition (securityId : InternalSecurityId) (volume : Volume) (price : DPrice)

inductive TableAnswer where
  | amount (v : UInt64)
  | fund (f : FundInfo)
  | ok (b : Bool)

namespace PositionManager

/-- The atomic operations of `PositionManager`. -/
def tableCall (m : PositionManager) : TableCall → TableAnswer × PositionManager
  | .getAvailableFund => (.amount m.fund.available, m)
  | .getFundInfo => (.fund m.fund, m)
  | .overwriteFundInfo fund => (.ok true, m.overwriteFundInfo fund)
  | .fund call => (.ok (m.onFund call.op).1, (m.onFund call.op).2)
  | .getSellableVolume securityId => (.amount (m.getSellableVolume securityId), m)
  | .freezePosition securityId volume =>
      (.ok (m.freezePosition securityId volume).1, (m.freezePosition securityId volume).2)
  | .unfreezePosition securityId volume =>
      (.ok (m.unfreezePosition securityId volume).1, (m.unfreezePosition securityId volume).2)
  | .deductPosition securityId volume value =>
      (.ok (m.deductPosition securityId volume value).1,
        (m.deductPosition securityId volume value).2)
  | .addPosition securityId volume price =>
      (.ok (m.addPosition securityId volume price).1, (m.addPosition securityId volume price).2)

/-- The rows that the locks protect. -/
def lockedRows (m : PositionManager) : ∀ r, TableRow r
  | none => m.fund
  | some n => m.rows n

/-- The table with these rows. -/
def withRows (m : PositionManager) (t : ∀ r, TableRow r) : PositionManager :=
  { m with fund := t none, rows := fun n => t (some n) }

/-- An operation on the row that `get_position_mut` finds, or the answer when it finds none. -/
def onRow (m : PositionManager) (securityId : InternalSecurityId) (missing : TableAnswer)
    (body : Program ColumnAccess Position TableAnswer) :
    TableAnswer ⊕ Σ r, Program ColumnAccess (TableRow r) TableAnswer :=
  match m.findRow securityId with
  | none => .inl missing
  | some row => .inr ⟨some row, body⟩

/-- The row that a call works on, and what it does there with the lock held. The map from the
securities to the rows is read before, and no security is added meanwhile. -/
def plan (m : PositionManager) :
    TableCall → TableAnswer ⊕ Σ r, Program ColumnAccess (TableRow r) TableAnswer
  | .getAvailableFund => .inr ⟨none, FundRow.loadAvailable.bind fun v => pure (.amount v)⟩
  | .getFundInfo => .inr ⟨none, FundRow.getFundInfo.bind fun f => pure (.fund f)⟩
  | .overwriteFundInfo fund =>
      .inr ⟨none, (FundRow.overwriteFundInfo fund).bind fun b => pure (.ok b)⟩
  | .fund call =>
      if FundRow.refusedAtOnce call then .inl (.ok false)
      else .inr ⟨none, (FundRow.body call).bind fun b => pure (.ok b)⟩
  | .getSellableVolume securityId =>
      m.onRow securityId (.amount 0)
        (SecurityRow.loadVolumeAvailableT0.bind fun v => pure (.amount v))
  | .freezePosition securityId volume =>
      m.onRow securityId (.ok false)
        ((SecurityRow.freezePosition volume).bind fun b => pure (.ok b))
  | .unfreezePosition securityId volume =>
      m.onRow securityId (.ok false)
        ((SecurityRow.unfreezePosition volume).bind fun b => pure (.ok b))
  | .deductPosition securityId volume value =>
      m.onRow securityId (.ok false)
        ((SecurityRow.deductPosition volume value).bind fun b => pure (.ok b))
  | .addPosition securityId volume price =>
      m.onRow securityId (.ok false)
        ((SecurityRow.addPosition volume price).bind fun b => pure (.ok b))

/-- The atomic table. -/
def tableSpec (m : PositionManager) (c : TableCall) (a : TableAnswer) (m' : PositionManager) :
    Prop :=
  m.tableCall c = (a, m')

variable {m : PositionManager} {t t' : ∀ r, TableRow r}

@[simp] theorem withRows_lockedRows (m : PositionManager) : m.withRows m.lockedRows = m := rfl

theorem findRow_withRows (m : PositionManager) (t : ∀ r, TableRow r)
    (securityId : InternalSecurityId) :
    (m.withRows t).findRow securityId = m.findRow securityId := rfl

theorem withRows_fund (m : PositionManager) (t : ∀ r, TableRow r) (f : FundInfo) :
    m.withRows (Function.update t none f) = { m.withRows t with fund := f } := by
  have hrows : ∀ n, Function.update t none f (some n) = t (some n) := fun n =>
    Function.update_of_ne (by simp) _ _
  simp only [withRows, Function.update_self, hrows]

theorem withRows_row (m : PositionManager) (t : ∀ r, TableRow r) (n : Nat) (p : Position) :
    m.withRows (Function.update t (some n) p) =
      { m.withRows t with rows := Function.update (m.withRows t).rows n p } := by
  have hfund : Function.update t (some n) p none = t none := Function.update_of_ne (by simp) _ _
  have hrows : (fun k => Function.update t (some n) p (some k)) = Function.update
      (fun k => t (some k)) n p := by
    funext k
    by_cases hk : k = n
    · subst hk
      rw [Function.update_self, Function.update_self]
    · rw [Function.update_of_ne (by simpa using hk), Function.update_of_ne hk]
  simp only [withRows, hfund, hrows]

/-- An operation on the row of a security does what the atomic one does. -/
theorem onRow_spec {c : TableCall} {securityId : InternalSecurityId} {missing a : TableAnswer}
    {body : Program ColumnAccess Position TableAnswer}
    (hplan : m.plan c = m.onRow securityId missing body)
    (hmissing : m.findRow securityId = none → (m.withRows t).tableCall c = (missing, m.withRows t))
    (hrow : ∀ row, m.findRow securityId = some row →
      (m.withRows t).tableCall c = ((body.run (t (some row))).1,
        { m.withRows t with
          rows := Function.update (m.withRows t).rows row (body.run (t (some row))).2 }))
    (h : LockedRows.spec m.plan t c a t') : tableSpec (m.withRows t) c a (m.withRows t') := by
  rw [LockedRows.spec, hplan, onRow] at h
  cases hfind : m.findRow securityId with
  | none =>
      simp only [hfind, Sum.inl.injEq, reduceCtorEq, false_and, exists_false, or_false] at h
      obtain ⟨a', rfl, rfl, rfl⟩ := h
      exact hmissing hfind
  | some row =>
      simp only [hfind, Sum.inr.injEq, reduceCtorEq, false_and, exists_false, false_or] at h
      obtain ⟨r, b, heq, rfl, rfl⟩ := h
      obtain ⟨rfl, hb⟩ := Sigma.mk.inj heq
      obtain rfl := eq_of_heq hb
      rw [tableSpec, hrow row hfind, withRows_row]

/-- What a call does with the lock held is what the atomic operation does. -/
theorem spec_plan {c : TableCall} {a : TableAnswer} (h : LockedRows.spec m.plan t c a t') :
    tableSpec (m.withRows t) c a (m.withRows t') := by
  -- a call on the FUND row is the run of its body
  have hfund : ∀ {body : Program ColumnAccess FundInfo TableAnswer}, m.plan c = .inr ⟨none, body⟩ →
      a = (body.run (t none)).1 ∧
        m.withRows t' = { m.withRows t with fund := (body.run (t none)).2 } := by
    intro body hplan
    rcases h with ⟨a', hplan', -⟩ | ⟨r, body', hplan', rfl, rfl⟩
    · rw [hplan] at hplan'
      exact absurd hplan' (by simp)
    · rw [hplan] at hplan'
      obtain ⟨rfl, hb⟩ := Sigma.mk.inj (Sum.inr.inj hplan')
      obtain rfl := eq_of_heq hb
      exact ⟨rfl, withRows_fund m t _⟩
  cases c with
  | getAvailableFund =>
      obtain ⟨rfl, ht'⟩ := hfund rfl
      exact Prod.ext rfl ht'.symm
  | getFundInfo =>
      obtain ⟨rfl, ht'⟩ := hfund rfl
      exact Prod.ext rfl ht'.symm
  | overwriteFundInfo fund =>
      obtain ⟨rfl, ht'⟩ := hfund rfl
      exact Prod.ext rfl ht'.symm
  | fund call =>
      cases hrefused : FundRow.refusedAtOnce call with
      | true =>
          have hplan : m.plan (.fund call) = .inl (.ok false) := by
            rw [plan, hrefused, if_pos rfl]
          rcases h with ⟨a', hplan', rfl, rfl⟩ | ⟨r, body, hplan', -⟩
          · rw [hplan] at hplan'
            obtain rfl := Sum.inl.inj hplan'
            rw [tableSpec, tableCall, onFund, FundRow.op_of_refused hrefused]
          · rw [hplan] at hplan'
            exact absurd hplan' (by simp)
      | false =>
          have hplan : m.plan (.fund call) = .inr
              ⟨none, (FundRow.body call).bind fun b => pure (.ok b)⟩ := by
            rw [plan, hrefused, if_neg Bool.false_ne_true]
          obtain ⟨rfl, ht'⟩ := hfund hplan
          have hop : (m.withRows t).onFund call.op =
              ((call.op (t none)).isSome,
                { m.withRows t with fund := (call.op (t none)).getD (t none) }) := by
            rw [onFund, show (m.withRows t).fund = t none from rfl]
            cases call.op (t none) <;> rfl
          rw [ht', Program.run_bind', FundRow.run_body hrefused, tableSpec, tableCall, hop]
          rfl
  | getSellableVolume securityId =>
      refine onRow_spec rfl (fun hnone => ?_) (fun row hrow => ?_) h
      · rw [tableCall, getSellableVolume, getPosition, findRow_withRows, hnone]
        rfl
      · rw [tableCall, getSellableVolume, getPosition, findRow_withRows, hrow]
        refine Prod.ext rfl ?_
        exact congrArg (fun rows => { m.withRows t with rows := rows })
          (Function.update_eq_self row _).symm
  | freezePosition securityId volume =>
      refine onRow_spec rfl (fun hnone => ?_) (fun row hrow => ?_) h
      · rw [tableCall, freezePosition, onPosition, findRow_withRows, hnone]
      · rw [tableCall, freezePosition, onPosition, findRow_withRows, hrow, Program.run_bind',
          SecurityRow.run_freezePosition]
        rfl
  | unfreezePosition securityId volume =>
      refine onRow_spec rfl (fun hnone => ?_) (fun row hrow => ?_) h
      · rw [tableCall, unfreezePosition, onPosition, findRow_withRows, hnone]
      · rw [tableCall, unfreezePosition, onPosition, findRow_withRows, hrow, Program.run_bind',
          SecurityRow.run_unfreezePosition]
        rfl
  | deductPosition securityId volume value =>
      refine onRow_spec rfl (fun hnone => ?_) (fun row hrow => ?_) h
      · rw [tableCall, deductPosition, onPosition, findRow_withRows, hnone]
      · rw [tableCall, deductPosition, onPosition, findRow_withRows, hrow, Program.run_bind',
          SecurityRow.run_deductPosition]
        rfl
  | addPosition securityId volume price =>
      refine onRow_spec rfl (fun hnone => ?_) (fun row hrow => ?_) h
      · rw [tableCall, addPosition, onPosition, findRow_withRows, hnone]
      · rw [tableCall, addPosition, onPosition, findRow_withRows, hrow, Program.run_bind',
          SecurityRow.run_addPosition]
        rfl

/-- The position table under its row locks: whatever loads and stores of columns the threads make in
between, each call does what the atomic operation does, at one moment between its call and its
answer. -/
theorem position_table_linearizable {ι : Type} [DecidableEq ι] (m : PositionManager) :
    (LockedRows.machine positionLock m.plan).Linearizable (fun _ (_ : ι) _ => True)
      ⟨fun _ => false, m.lockedRows⟩ tableSpec m := by
  have hlin : (LockedRows.machine positionLock m.plan).Linearizable (fun _ (_ : ι) _ => True)
      ⟨fun _ => false, m.lockedRows⟩ (LockedRows.spec m.plan) m.lockedRows :=
        LockedRows.linearizable m.lockedRows
  exact hlin.map m.withRows fun t c a t' => spec_plan

end PositionManager

/-! ## What the locks are for -/

/-- The cash of the account, available or frozen. -/
def FundInfo.held (f : FundInfo) : Nat := f.available.toNat + f.frozen.toNat

/-- The calls that leave the cash of the account as it is. -/
def TableCall.KeepsCash : TableCall → Prop
  | .overwriteFundInfo _ => False
  | .fund (.freezeFund _) => True
  | .fund (.unfreezeFund _) => True
  | .fund _ => False
  | _ => True

namespace PositionManager

variable {m m' : PositionManager}

theorem held_onFund {call : FundCall} (hc : (TableCall.fund call).KeepsCash) :
    (m.onFund call.op).2.fund.held = m.fund.held := by
  rw [onFund]
  cases hop : call.op m.fund with
  | none => rfl
  | some g =>
      cases call with
      | freezeFund amount =>
          obtain ⟨-, -, havailable, hfrozen⟩ := FundInfo.freezeFund_facts hop
          simp only [FundInfo.held]
          omega
      | unfreezeFund amount =>
          obtain ⟨-, -, havailable, hfrozen⟩ := FundInfo.unfreezeFund_facts hop
          simp only [FundInfo.held]
          omega
      | deductFund amount fee => exact absurd hc id
      | addFund amount => exact absurd hc id
      | applyBuyTradeFund amount fee => exact absurd hc id
      | applySellTradeFund amount fee => exact absurd hc id

theorem fund_onPosition (securityId : InternalSecurityId) (op : Position → Bool × Position) :
    (m.onPosition securityId op).2.fund = m.fund := by
  rw [onPosition]
  cases m.findRow securityId <;> rfl

theorem tableSpec_keepsCash {c : TableCall} {a : TableAnswer} (h : tableSpec m c a m')
    (hc : c.KeepsCash) : m'.fund.held = m.fund.held ∧ ∀ f, a = .fund f → f.held = m.fund.held := by
  rw [tableSpec] at h
  cases c with
  | getAvailableFund =>
      obtain ⟨rfl, rfl⟩ := Prod.mk.inj h
      exact ⟨rfl, by simp⟩
  | getFundInfo =>
      obtain ⟨rfl, rfl⟩ := Prod.mk.inj h
      exact ⟨rfl, fun f hf => by rw [TableAnswer.fund.inj hf]⟩
  | overwriteFundInfo fund => exact absurd hc id
  | fund call =>
      obtain ⟨rfl, rfl⟩ := Prod.mk.inj h
      exact ⟨held_onFund hc, by simp⟩
  | getSellableVolume securityId =>
      obtain ⟨rfl, rfl⟩ := Prod.mk.inj h
      exact ⟨rfl, by simp⟩
  | freezePosition securityId volume =>
      obtain ⟨rfl, rfl⟩ := Prod.mk.inj h
      exact ⟨congrArg FundInfo.held (fund_onPosition _ _), by simp⟩
  | unfreezePosition securityId volume =>
      obtain ⟨rfl, rfl⟩ := Prod.mk.inj h
      exact ⟨congrArg FundInfo.held (fund_onPosition _ _), by simp⟩
  | deductPosition securityId volume value =>
      obtain ⟨rfl, rfl⟩ := Prod.mk.inj h
      exact ⟨congrArg FundInfo.held (fund_onPosition _ _), by simp⟩
  | addPosition securityId volume price =>
      obtain ⟨rfl, rfl⟩ := Prod.mk.inj h
      exact ⟨congrArg FundInfo.held (fund_onPosition _ _), by simp⟩

/-- The locks keep the columns of the FUND row together: while cash is frozen and released by any
number of threads, every `get_fund_info` answers with available and frozen cash that add up to the
same. -/
theorem cash_shown {ι : Type} [DecidableEq ι] (m : PositionManager)
    {h : List (Occurrence ι TableCall TableAnswer)} {s : Threads ι (LockedRows TableRow) _}
    (hrun : (LockedRows.machine positionLock m.plan).Run (fun _ _ _ => True)
      ⟨fun _ => false, m.lockedRows⟩ h s)
    (hcalls : ∀ i c, .call i c ∈ h → c.KeepsCash) (i : ι) (f : FundInfo)
    (hanswer : .answer i (.fund f) ∈ h) :
    f.held = m.fund.held := by
  have hlin : (LockedRows.machine positionLock m.plan).Linearizable (fun _ (_ : ι) _ => True)
      ⟨fun _ => false, m.lockedRows⟩ (LockedRows.spec m.plan) m.lockedRows :=
        LockedRows.linearizable m.lockedRows
  have hspec : ∀ t c a t', tableSpec t c a t' → t.fund.held = m.fund.held → c.KeepsCash →
      t'.fund.held = m.fund.held ∧ ∀ f, a = .fund f → f.held = m.fund.held := by
    intro t c a t' htable hheld hc
    rw [← hheld]
    exact tableSpec_keepsCash htable hc
  exact (hlin.map m.withRows fun t c a t' => spec_plan).answers hspec rfl hrun
    hcalls i _ hanswer f rfl

/-- A table with the default fund and no securities. -/
def ofDefaultFund : PositionManager where
  header := {}
  fund := defaultFund
  rows := fun _ => {}
  positionCount := 0
  securityToRow := ∅

/-- A thread freezes 1000. While it works on the row another thread asks for the fund, waits for the
lock, and then sees both columns changed. -/
theorem cash_shown_frozen :
    ∃ s, (LockedRows.machine positionLock ofDefaultFund.plan).Run (fun _ (_ : Nat) _ => True)
        ⟨fun _ => false, ofDefaultFund.lockedRows⟩
        ([.call 0 (.fund (.freezeFund 1000))] ++ [.call 1 .getFundInfo] ++ [.answer 0 (.ok true)] ++
          [.answer 1 (.fund { defaultFund with available := 99999000, frozen := 1000 })]) s ∧
      FundInfo.held { defaultFund with available := 99999000, frozen := 1000 } =
        ofDefaultFund.fund.held := by
  have hstart : (LockedRows.machine positionLock ofDefaultFund.plan).Run (fun _ (_ : Nat) _ => True)
      ⟨fun _ => false, ofDefaultFund.lockedRows⟩ [] ⟨_, fun _ => none⟩ := Machine.Run.start
  -- The first thread freezes under the lock; the second asks in the middle of it and has to wait.
  have hfreeze := Machine.Run.call (i := 0) (c := .fund (.freezeFund 1000)) hstart rfl trivial
  have hlock := Machine.Run.access (i := 0) hfreeze rfl (.takes (b := true) ⟨rfl, rfl⟩)
  have havailable := Machine.Run.access (i := 0) hlock rfl (.works _ _ _ _ _)
  have hfrozen := Machine.Run.access (i := 0) havailable rfl (.works _ _ _ _ _)
  have hstore := Machine.Run.access (i := 0) hfrozen rfl (.works _ _ _ _ _)
  have hasks := Machine.Run.call (i := 1) (c := .getFundInfo) hstore rfl trivial
  have hwaits := Machine.Run.access (i := 1) hasks rfl (.waits (b := true) ⟨rfl, rfl⟩)
  have hstores := Machine.Run.access (i := 0) hwaits rfl (.works _ _ _ _ _)
  have hfroze := Machine.Run.answer (i := 0) hstores rfl (.releases _ _ _)
  -- Now it has the lock, and reads the four fields.
  have hlocks := Machine.Run.access (i := 1) hfroze rfl (.takes (b := true) ⟨rfl, rfl⟩)
  have htotal := Machine.Run.access (i := 1) hlocks rfl (.works _ _ _ _ _)
  have hseesAvailable := Machine.Run.access (i := 1) htotal rfl (.works _ _ _ _ _)
  have hseesFrozen := Machine.Run.access (i := 1) hseesAvailable rfl (.works _ _ _ _ _)
  have hmarket := Machine.Run.access (i := 1) hseesFrozen rfl (.works _ _ _ _ _)
  have hrun := Machine.Run.answer (i := 1) hmarket rfl (.releases _ _ _)
  refine ⟨_, hrun,
    cash_shown ofDefaultFund hrun ?_ 1 _ (List.mem_append_right _ List.mem_cons_self)⟩
  intro i c hmem
  simp only [List.nil_append, List.cons_append, List.mem_cons, Occurrence.call.injEq, reduceCtorEq,
    List.not_mem_nil, or_self, or_false] at hmem
  rcases hmem with ⟨-, rfl⟩ | ⟨-, rfl⟩
  · trivial
  · trivial

end PositionManager

end AccountServices
