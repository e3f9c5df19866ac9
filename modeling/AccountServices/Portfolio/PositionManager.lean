import AccountServices.Common.SecurityIdentity

/-!
# Funds and positions

`portfolio/position_manager.cpp` over the shared memory of `portfolio/positions.h`. Row 0 of the
table is the FUND row; the source reads it through `load_fund_info`, which gives four of its columns
other names, and so does `FundInfo`. The rows from 1 on hold the securities. Every operation holds
the lock of the row it works on and is one atomic function here.

The fund operations check first and write afterwards: they return `none` when they refuse. A row
operation returns the row with its answer, because `deduct_position` can refuse after it has
written.
-/

set_option autoImplicit false

namespace AccountServices

open Foundation

/-- `fund_info`. -/
structure FundInfo where
  totalAsset : UInt64 := 0
  available : UInt64 := 0
  frozen : UInt64 := 0
  marketValue : UInt64 := 0
  deriving DecidableEq, Repr

namespace FundInfo

/-- `freeze_fund`. -/
def freezeFund (f : FundInfo) (amount : DValue) : Option FundInfo :=
  if f.available < amount then none
  -- The new amount is wrapped, so it is below the old one exactly when the sum overflows.
  else if f.frozen + amount < f.frozen then none
  else some { f with available := f.available - amount, frozen := f.frozen + amount }

/-- `unfreeze_fund`. -/
def unfreezeFund (f : FundInfo) (amount : DValue) : Option FundInfo :=
  if f.frozen < amount then none
  else if f.available + amount < f.available then none
  else some { f with frozen := f.frozen - amount, available := f.available + amount }

/-- The total asset after a fee: a fee above the total leaves 0. -/
def totalAssetAfter (f : FundInfo) (fee : DValue) : UInt64 :=
  if f.totalAsset < fee then 0 else f.totalAsset - fee

/-- `deduct_fund`. -/
def deductFund (f : FundInfo) (amount fee : DValue) : Option FundInfo :=
  if amount + fee < amount then none
  -- Any frozen cash will do: the row does not know which order froze it.
  else if f.frozen < amount + fee then none
  else if f.marketValue + amount < f.marketValue then none
  else
    some { f with
      frozen := f.frozen - (amount + fee)
      totalAsset := f.totalAssetAfter fee
      marketValue := f.marketValue + amount }

/-- `add_fund`. -/
def addFund (f : FundInfo) (amount : DValue) : Option FundInfo :=
  if f.available + amount < f.available then none
  else if f.totalAsset + amount < f.totalAsset then none
  else some { f with available := f.available + amount, totalAsset := f.totalAsset + amount }

/-- `apply_buy_trade_fund`. -/
def applyBuyTradeFund (f : FundInfo) (amount fee : DValue) : Option FundInfo :=
  if amount + fee < amount then none
  else if f.available < amount + fee then none
  else if f.marketValue + amount < f.marketValue then none
  else
    some { f with
      available := f.available - (amount + fee)
      totalAsset := f.totalAssetAfter fee
      marketValue := f.marketValue + amount }

/-- The available cash after a sell; `none` when it would overflow or not cover the fee. -/
def availableAfterSell (f : FundInfo) (amount fee : DValue) : Option UInt64 :=
  if amount ≥ fee then
    if f.available + (amount - fee) < f.available then none
    else some (f.available + (amount - fee))
  else if f.available < fee - amount then none
  else some (f.available - (fee - amount))

/-- `apply_sell_trade_fund`. Proceeds above the recorded market value leave a market value of 0. -/
def applySellTradeFund (f : FundInfo) (amount fee : DValue) : Option FundInfo :=
  match f.availableAfterSell amount fee with
  | none => none
  | some newAvailable =>
      some { f with
        available := newAvailable
        totalAsset := f.totalAssetAfter fee
        marketValue := if f.marketValue < amount then 0 else f.marketValue - amount }

end FundInfo

/-- `position`, a security row. The column `available` is used in the FUND row only. -/
structure Position where
  volumeAvailableT0 : UInt64 := 0
  volumeAvailableT1 : UInt64 := 0
  volumeBuy : UInt64 := 0
  dvalueBuy : UInt64 := 0
  volumeBuyTraded : UInt64 := 0
  dvalueBuyTraded : UInt64 := 0
  volumeSell : UInt64 := 0
  dvalueSell : UInt64 := 0
  volumeSellTraded : UInt64 := 0
  dvalueSellTraded : UInt64 := 0
  countOrder : UInt64 := 0
  id : FixedString 16 := FixedString.clear
  name : FixedString 16 := FixedString.clear
  deriving DecidableEq

namespace Position

/-- The row operation of `freeze_position`. -/
def freezePosition (p : Position) (volume : Volume) : Bool × Position :=
  if p.volumeAvailableT0 < volume then (false, p)
  else
    (true,
      { p with
        volumeAvailableT0 := p.volumeAvailableT0 - volume
        volumeSell := p.volumeSell + volume
        countOrder := p.countOrder + 1 })

/-- The row operation of `unfreeze_position`. -/
def unfreezePosition (p : Position) (volume : Volume) : Bool × Position :=
  if p.volumeSell < volume then (false, p)
  else
    (true,
      { p with
        volumeSell := p.volumeSell - volume
        volumeAvailableT0 := p.volumeAvailableT0 + volume })

/-- The row operation of `deduct_position`. Without enough frozen shares the frozen ones are used up
first; the rest is then refused when the sellable shares do not cover it. -/
def deductPosition (p : Position) (volume : Volume) (value : DValue) : Bool × Position :=
  if p.volumeSell ≥ volume then
    (true,
      { p with
        volumeSell := p.volumeSell - volume
        volumeSellTraded := p.volumeSellTraded + volume
        dvalueSellTraded := p.dvalueSellTraded + value })
  else
    let remaining := if p.volumeSell > 0 then volume - p.volumeSell else volume
    -- What was frozen is gone also when the rest is refused.
    let p' := { p with volumeSell := 0 }
    if p'.volumeAvailableT0 < remaining then (false, p')
    else
      (true,
        { p' with
          volumeAvailableT0 := p'.volumeAvailableT0 - remaining
          volumeSellTraded := p'.volumeSellTraded + volume
          dvalueSellTraded := p'.dvalueSellTraded + value })

/-- The row operation of `add_position`. -/
def addPosition (p : Position) (volume : Volume) (price : DPrice) : Bool × Position :=
  let value := if volume = 0 ∨ price = 0 then 0 else volume * price
  (true,
    { p with
      volumeBuy := p.volumeBuy + volume
      dvalueBuy := p.dvalueBuy + value
      volumeBuyTraded := p.volumeBuyTraded + volume
      dvalueBuyTraded := p.dvalueBuyTraded + value
      volumeAvailableT1 := p.volumeAvailableT1 + volume })

end Position

/-- `kDefaultInitialFund`. -/
def kDefaultInitialFund : DValue := 100000000

/-- `kMaxSecurityPositions`. -/
def kMaxSecurityPositions : Nat := kMaxPositions - 1

/-- `clamp_security_count`. -/
def clampSecurityCount (count : Nat) : Nat :=
  if count > kMaxSecurityPositions then kMaxSecurityPositions else count

/-- `PositionsHeader`, without its times. -/
structure PositionsHeader where
  magic : UInt32 := 0x41435354
  version : UInt32 := 4
  headerSize : UInt32 := 64
  totalSize : UInt32 := 1114240
  capacity : UInt32 := 8192
  initState : UInt32 := 0
  id : UInt32 := 1
  deriving DecidableEq

/-- `header_compatible`: every field but the state and the id generator is the one of this build. -/
def PositionsHeader.compatible (h : PositionsHeader) : Bool :=
  decide (h = { initState := h.initState, id := h.id })

/-- `PositionManager` and the `positions_shm_layout` it is attached to. -/
structure PositionManager where
  header : PositionsHeader
  fund : FundInfo
  rows : Nat → Position
  positionCount : Nat
  securityToRow : Map InternalSecurityId Nat

namespace PositionManager

/-- An operation on the FUND row. -/
def onFund (m : PositionManager) (op : FundInfo → Option FundInfo) : Bool × PositionManager :=
  match op m.fund with
  | some fund => (true, { m with fund := fund })
  | none => (false, m)

/-- `security_position_by_row`: whether the row is in use. -/
def rowInUse (m : PositionManager) (row : Nat) : Bool :=
  decide (1 ≤ row ∧ row < kMaxPositions ∧ row ≤ clampSecurityCount m.positionCount)

/-- The row that `get_position` and `get_position_mut` point to. -/
def findRow (m : PositionManager) (securityId : InternalSecurityId) : Option Nat :=
  match normalizeSecurityKey securityId.view with
  | none => none
  | some key =>
      match m.securityToRow.lookup key with
      | none => none
      | some row => if m.rowInUse row then some row else none

/-- `get_position`. -/
def getPosition (m : PositionManager) (securityId : InternalSecurityId) : Option Position :=
  (m.findRow securityId).map m.rows

/-- `get_sellable_volume`. -/
def getSellableVolume (m : PositionManager) (securityId : InternalSecurityId) : Volume :=
  match m.getPosition securityId with
  | none => 0
  | some pos => pos.volumeAvailableT0

/-- An operation on the row of a security. -/
def onPosition (m : PositionManager) (securityId : InternalSecurityId)
    (op : Position → Bool × Position) : Bool × PositionManager :=
  match m.findRow securityId with
  | none => (false, m)
  | some row =>
      let (ok, pos) := op (m.rows row)
      (ok, { m with rows := Function.update m.rows row pos })

/-- `freeze_position`. -/
def freezePosition (m : PositionManager) (securityId : InternalSecurityId) (volume : Volume) :
    Bool × PositionManager :=
  m.onPosition securityId fun p => p.freezePosition volume

/-- `unfreeze_position`. -/
def unfreezePosition (m : PositionManager) (securityId : InternalSecurityId) (volume : Volume) :
    Bool × PositionManager :=
  m.onPosition securityId fun p => p.unfreezePosition volume

/-- `deduct_position`. -/
def deductPosition (m : PositionManager) (securityId : InternalSecurityId) (volume : Volume)
    (value : DValue) : Bool × PositionManager :=
  m.onPosition securityId fun p => p.deductPosition volume value

/-- `add_position`. -/
def addPosition (m : PositionManager) (securityId : InternalSecurityId) (volume : Volume)
    (price : DPrice) : Bool × PositionManager :=
  m.onPosition securityId fun p => p.addPosition volume price

/-- `overwrite_fund_info`. -/
def overwriteFundInfo (m : PositionManager) (fund : FundInfo) : PositionManager :=
  { m with fund := fund }

/-- `next_security_id`. -/
def nextSecurityId (count : Nat) : UInt32 := UInt32.ofNat (count + 1)

/-- `add_security`: the key of the row, `none` where the source returns an empty key. A count above
the limit is clamped in the table also when the table is full. -/
def addSecurity (m : PositionManager) (code name : Bytes) (market : Market) :
    Option InternalSecurityId × PositionManager :=
  if code.isEmpty then (none, m)
  else
    match buildInternalSecurityId market code with
    | none => (none, m)
    | some securityId =>
        -- A code that has a row keeps it, whatever name is given.
        if (m.securityToRow.lookup securityId).isSome then (some securityId, m)
        else
          let count := clampSecurityCount m.positionCount
          if count ≥ kMaxSecurityPositions then (none, { m with positionCount := count })
          else
            let pos : Position :=
              { id := FixedString.assign securityId.view, name := FixedString.assign name }
            (some securityId,
              { m with
                rows := Function.update m.rows (count + 1) pos
                securityToRow := m.securityToRow.insert securityId (count + 1)
                positionCount := count + 1
                header := { m.header with id := nextSecurityId (count + 1) } })

/-! ## Initialisation -/

/-- `set_default_fund`. -/
def defaultFund : FundInfo :=
  { totalAsset := kDefaultInitialFund, available := kDefaultInitialFund }

/-- The table that the fresh branch of `initialize` hands to the loader. -/
def cleared (m : PositionManager) : PositionManager where
  header := { initState := 0, id := m.header.id }
  fund := defaultFund
  rows := fun _ => {}
  positionCount := 0
  securityToRow := ∅

/-- One turn of the loop over the rows of an initialised table: the key is brought into its
canonical form and entered in the map; a key that has none ends the loop. -/
def indexRow (m : PositionManager) (row : Nat) : Bool × PositionManager :=
  let pos := m.rows row
  -- A row without an id stays in the table but not in the map.
  if pos.id.isEmpty then (true, m)
  else
    match normalizeSecurityKey pos.id.view with
    | none => (false, m)
    | some securityId =>
        (true,
          { m with
            rows := Function.update m.rows row { pos with id := FixedString.assign securityId.view }
            securityToRow := m.securityToRow.insert securityId row })

/-- The loop over the rows. -/
def indexRows (m : PositionManager) : List Nat → Bool × PositionManager
  | [] => (true, m)
  | row :: rest =>
      match m.indexRow row with
      | (true, m') => m'.indexRows rest
      | (false, m') => (false, m')

/-- `initialize`. A table that is not yet initialised is cleared and filled by the loader; the map
of an initialised one is rebuilt from its rows. -/
def initializePositions (m : PositionManager) (load : PositionManager → Bool × PositionManager) :
    Bool × PositionManager :=
  let m := { m with securityToRow := ∅ }
  if ¬ m.header.compatible then (false, m)
  -- A table under construction must be empty; after a failed start it is not cleared a second time.
  else if m.header.initState ≠ 1 then
    if m.positionCount ≠ 0 then (false, m)
    else
      match load m.cleared with
      | (false, m') => (false, m')
      | (true, m') =>
          (true,
            { m' with
              header := { m'.header with
                initState := 1
                id := nextSecurityId (clampSecurityCount m'.positionCount) } })
  else
    let count := clampSecurityCount m.positionCount
    -- The canonical keys are written back to the rows.
    match ({ m with positionCount := count }).indexRows (List.range' 1 count) with
    | (false, m') => (false, m')
    | (true, m') => (true, { m' with header := { m'.header with id := nextSecurityId count } })

end PositionManager

end AccountServices
