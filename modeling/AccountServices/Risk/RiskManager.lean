import AccountServices.Portfolio.PositionManager

/-!
# Risk checks

`risk/risk_checker.cpp` and `risk/risk_manager.cpp`. A rule is its kind with the data it keeps, and
a switch; a check returns the verdict and the rule with its data updated. The manager runs its rules
in order and stops at the first that rejects.

The rule that the manager remembers for price limits is a pointer in the source; here every rule
carries the number under which it was added, and the manager remembers that number.
-/

set_option autoImplicit false

namespace AccountServices

open Foundation

/-- `risk_check_result`. -/
structure RiskCheckResult where
  code : RiskResult
  message : String
  deriving DecidableEq, Repr

namespace RiskCheckResult

def pass : RiskCheckResult := ⟨.pass, "pass"⟩

def reject (code : RiskResult) (message : String) : RiskCheckResult := ⟨code, message⟩

def passed (r : RiskCheckResult) : Bool := decide (r.code = .pass)

end RiskCheckResult

/-- The data of a rule, by its class. -/
inductive RuleKind where
  | fundCheck
  | positionCheck
  | maxOrderValue (maxValue : DValue)
  | maxOrderVolume (maxVolume : Volume)
  | priceLimit (limits : Map InternalSecurityId (DPrice × DPrice))
  | duplicateOrder (recentOrders : Map UInt64 TimestampNs) (timeWindowNs : TimestampNs)
  | rateLimit (maxOrdersPerSecond currentSecondCount : UInt32) (currentSecondStart : TimestampNs)

/-- `risk_rule`. -/
structure RiskRule where
  number : Nat
  enabled : Bool := true
  kind : RuleKind

/-- `name`. -/
def RuleKind.name : RuleKind → String
  | .fundCheck => "fund_check"
  | .positionCheck => "position_check"
  | .maxOrderValue _ => "max_order_value"
  | .maxOrderVolume _ => "max_order_volume"
  | .priceLimit _ => "price_limit"
  | .duplicateOrder _ _ => "duplicate_order"
  | .rateLimit _ _ _ => "rate_limit"

/-- `RiskConfig`, the fields that the rules are built from. -/
structure RiskConfig where
  maxOrderValue : DValue := 0
  maxOrderVolume : Volume := 0
  maxOrdersPerSecond : UInt32 := 0
  enablePriceLimitCheck : Bool := true
  enableDuplicateCheck : Bool := true
  enableFundCheck : Bool := true
  enablePositionCheck : Bool := true
  duplicateWindowNs : TimestampNs := 100000000

/-! ## The checks -/

namespace RiskRule

/-- `fund_check_rule::check`: the product is formed in 128 bits, and an order of positive value
without a fee estimate is charged a fee of 1. -/
def checkFund (order : OrderRequest) (positions : PositionManager) : RiskCheckResult :=
  if order.tradeSide ≠ .buy then .pass
  else
    let requiredValue := order.volumeEntrust.toNat * order.dpriceEntrust.toNat
    let estimatedFee :=
      if order.dfeeEstimate = 0 ∧ requiredValue > 0 then 1 else order.dfeeEstimate.toNat
    -- The sum of two 128-bit numbers may wrap.
    let requiredTotal := (requiredValue + estimatedFee) % 2 ^ 128
    if requiredTotal < requiredValue ∨ requiredTotal > positions.fund.available.toNat then
      .reject .rejectInsufficientFund "insufficient available fund"
    else .pass

/-- `position_check_rule::check`. -/
def checkPosition (order : OrderRequest) (positions : PositionManager) : RiskCheckResult :=
  if order.tradeSide ≠ .sell then .pass
  else if positions.getSellableVolume order.internalSecurityId < order.volumeEntrust then
    .reject .rejectInsufficientPosition "insufficient sellable position"
  else .pass

/-- `max_order_value_rule::check`. -/
def checkMaxOrderValue (maxValue : DValue) (order : OrderRequest) : RiskCheckResult :=
  if maxValue = 0 then .pass
  else if order.volumeEntrust.toNat * order.dpriceEntrust.toNat > maxValue.toNat then
    .reject .rejectExceedMaxOrderValue "order value exceeds limit"
  else .pass

/-- `max_order_volume_rule::check`. -/
def checkMaxOrderVolume (maxVolume : Volume) (order : OrderRequest) : RiskCheckResult :=
  if maxVolume = 0 then .pass
  else if order.volumeEntrust > maxVolume then
    .reject .rejectExceedMaxOrderVolume "order volume exceeds limit"
  else .pass

/-- `price_limit_rule::check`. -/
def checkPriceLimit (limits : Map InternalSecurityId (DPrice × DPrice)) (order : OrderRequest) :
    RiskCheckResult :=
  match normalizeInternalSecurityId order.internalSecurityId.view with
  -- A key without a normal form has no limits.
  | none => .pass
  | some securityId =>
      match limits.lookup securityId with
      | none => .pass
      | some (limitUp, limitDown) =>
          if (limitUp ≠ 0 ∧ order.dpriceEntrust > limitUp) ∨
              (limitDown ≠ 0 ∧ order.dpriceEntrust < limitDown) then
            .reject .rejectPriceOutOfRange "price is out of limit range"
          else .pass

/-- `duplicate_order_rule::check`: the order id is the fingerprint. A rejected order does not renew
its entry. -/
def checkDuplicate (recentOrders : Map UInt64 TimestampNs) (timeWindowNs : TimestampNs)
    (order : OrderRequest) (now : TimestampNs) : RiskCheckResult × Map UInt64 TimestampNs :=
  let key := UInt64.ofNat order.internalOrderId.toNat
  let duplicate :=
    match recentOrders.lookup key with
    | none => false
    -- A time before the recorded one is not a duplicate.
    | some seen => decide (now ≥ seen ∧ now - seen ≤ timeWindowNs)
  if duplicate then
    (.reject .rejectDuplicateOrder "duplicate order within time window", recentOrders)
  else (.pass, recentOrders.insert key now)

/-- `rate_limit_rule::check`: the counter of the window counts rejected orders too. -/
def checkRateLimit (maxOrders count : UInt32) (start : TimestampNs) (now : TimestampNs) :
    RiskCheckResult × UInt32 × TimestampNs :=
  if maxOrders = 0 then (.pass, count, start)
  else
    -- A clock that went back opens a new window too.
    let fresh := decide (start = 0 ∨ now < start ∨ now - start ≥ 1000000000)
    let start' := if fresh then now else start
    let count' := (if fresh then 0 else count) + 1
    if count' > maxOrders then (.reject .rejectUnknown "order rate exceeds limit", count', start')
    else (.pass, count', start')

/-- `check`: every rule passes an order that is not new, and so does a rule that is switched off. -/
def check (rule : RiskRule) (order : OrderRequest) (positions : PositionManager)
    (now : TimestampNs) : RiskCheckResult × RiskRule :=
  if ¬ rule.enabled ∨ order.orderType ≠ .new then (.pass, rule)
  else
    match rule.kind with
    | .fundCheck => (checkFund order positions, rule)
    | .positionCheck => (checkPosition order positions, rule)
    | .maxOrderValue maxValue => (checkMaxOrderValue maxValue order, rule)
    | .maxOrderVolume maxVolume => (checkMaxOrderVolume maxVolume order, rule)
    | .priceLimit limits => (checkPriceLimit limits order, rule)
    | .duplicateOrder recentOrders timeWindowNs =>
        let (result, recentOrders') := checkDuplicate recentOrders timeWindowNs order now
        (result, { rule with kind := .duplicateOrder recentOrders' timeWindowNs })
    | .rateLimit maxOrders count start =>
        let (result, count', start') := checkRateLimit maxOrders count start now
        (result, { rule with kind := .rateLimit maxOrders count' start' })

/-- `price_limit_rule::set_price_limits`: limits for a key without a normal form are dropped. -/
def setPriceLimits (rule : RiskRule) (securityId : InternalSecurityId)
    (limitUp limitDown : DPrice) : RiskRule :=
  match rule.kind, normalizeInternalSecurityId securityId.view with
  | .priceLimit limits, some key =>
      { rule with kind := .priceLimit (limits.insert key (limitUp, limitDown)) }
  | _, _ => rule

/-- `price_limit_rule::clear_price_limits`. -/
def clearPriceLimits (rule : RiskRule) : RiskRule :=
  match rule.kind with
  | .priceLimit _ => { rule with kind := .priceLimit ∅ }
  | _ => rule

end RiskRule

/-! ## The manager -/

/-- `RiskManager`, without its counters and the callback after a check. -/
structure RiskManager where
  config : RiskConfig
  rules : List RiskRule := []
  nextNumber : Nat := 0
  priceLimitRule : Option Nat := none

namespace RiskManager

/-- The loop of `check_order`. -/
def checkRules (order : OrderRequest) (positions : PositionManager) (now : TimestampNs) :
    RiskCheckResult → List RiskRule → RiskCheckResult × List RiskRule
  | result, [] => (result, [])
  | result, rule :: rest =>
      if ¬ rule.enabled then
        let (result', rest') := checkRules order positions now result rest
        (result', rule :: rest')
      else
        let (result', rule') := rule.check order positions now
        -- The rules behind the first rejection do not see the order.
        if ¬ result'.passed then (result', rule' :: rest)
        else
          let (result'', rest') := checkRules order positions now result' rest
          (result'', rule' :: rest')

/-- `check_order`. -/
def checkOrder (m : RiskManager) (order : OrderRequest) (positions : PositionManager)
    (now : TimestampNs) : RiskCheckResult × RiskManager :=
  let (result, rules) := checkRules order positions now .pass m.rules
  (result, { m with rules := rules })

/-- `add_rule`. -/
def addRule (m : RiskManager) (kind : RuleKind) : RiskManager :=
  { m with
    rules := m.rules ++ [{ number := m.nextNumber, kind := kind }]
    nextNumber := m.nextNumber + 1
    priceLimitRule :=
      match kind with
      | .priceLimit _ => some m.nextNumber
      | _ => m.priceLimitRule }

/-- The rules that the configuration asks for, in the order in which they are added. -/
def defaultRules (config : RiskConfig) : List RuleKind :=
  (if config.enableFundCheck then [.fundCheck] else []) ++
  (if config.enablePositionCheck then [.positionCheck] else []) ++
  (if config.maxOrderValue > 0 then [.maxOrderValue config.maxOrderValue] else []) ++
  (if config.maxOrderVolume > 0 then [.maxOrderVolume config.maxOrderVolume] else []) ++
  (if config.enablePriceLimitCheck then [.priceLimit ∅] else []) ++
  (if config.enableDuplicateCheck then [.duplicateOrder ∅ config.duplicateWindowNs] else []) ++
  (if config.maxOrdersPerSecond > 0 then [.rateLimit config.maxOrdersPerSecond 0 0] else [])

/-- `initialize_default_rules`. -/
def initializeDefaultRules (m : RiskManager) : RiskManager :=
  -- The numbers go on, so that no rule gets that of a rule that is gone.
  (defaultRules m.config).foldl addRule { m with rules := [], priceLimitRule := none }

/-- `remove_rule`: the first rule of that name. The manager forgets its number for price limits with
it. -/
def removeRule (m : RiskManager) (name : String) : Bool × RiskManager :=
  match m.rules.find? fun rule => rule.kind.name = name with
  | none => (false, m)
  | some rule =>
      (true,
        { m with
          rules := m.rules.eraseP fun rule => rule.kind.name = name
          priceLimitRule :=
            if m.priceLimitRule = some rule.number then none else m.priceLimitRule })

/-- `enable_rule`: the first rule of that name is switched on or off. -/
def enableRule (m : RiskManager) (name : String) (enabled : Bool) : Bool × RiskManager :=
  match m.rules.findIdx? fun rule => rule.kind.name = name with
  | none => (false, m)
  | some i => (true,
      { m with rules := m.rules.modify i fun rule => { rule with enabled := enabled } })

/-- `update_price_limits`: of the rule that is remembered, if there is one. -/
def updatePriceLimits (m : RiskManager) (securityId : InternalSecurityId)
    (limitUp limitDown : DPrice) : RiskManager :=
  match m.priceLimitRule with
  | none => m
  | some number =>
      { m with rules := m.rules.map fun rule =>
          if rule.number = number then rule.setPriceLimits securityId limitUp limitDown else rule }

/-- `clear_price_limits`. -/
def clearPriceLimits (m : RiskManager) : RiskManager :=
  match m.priceLimitRule with
  | none => m
  | some number =>
      { m with rules := m.rules.map fun rule =>
          if rule.number = number then rule.clearPriceLimits else rule }

/-- `update_config`: the rules are built anew. -/
def updateConfig (m : RiskManager) (config : RiskConfig) : RiskManager :=
  initializeDefaultRules { m with config := config }

/-- `RiskManager::RiskManager`. -/
def ofConfig (config : RiskConfig) : RiskManager := initializeDefaultRules { config := config }

end RiskManager

end AccountServices
