import AccountServices.Foundation.Program
import AccountServices.Common.CanonicalKeys
import AccountServices.Risk.RiskManager

/-!
# Price limits over the life of the risk manager

The limits of a security are kept in the price limit rule, which the manager reaches through the
number it remembers. A run of the manager carries the limits that were set beside it: what
`update_price_limits` was last given for a key, since the limits were last cleared. `update_config`
builds the rules anew and with them an empty table of limits, and a manager whose check is switched
off has no rule that could hold any. So the run protects the securities as long as no limit is in
force when the configuration is replaced, and limits are set while the check is switched on.
-/

set_option autoImplicit false

namespace AccountServices

open Foundation

/-- The limits of the securities, the upper one first; a limit of 0 is none. -/
abbrev PriceLimits := Map InternalSecurityId (DPrice × DPrice)

/-! ## A rule that rejects -/

namespace RiskManager

variable {order : OrderRequest} {positions : PositionManager} {now : TimestampNs}

/-- A rule that is switched on and rejects the order makes the manager reject it. -/
theorem checkRules_rejects {rules : List RiskRule} (result : RiskCheckResult)
    (h : ∃ rule ∈ rules, rule.enabled = true ∧ (rule.check order positions now).1.passed = false) :
    (checkRules order positions now result rules).1.passed = false := by
  induction rules generalizing result with
  | nil =>
      obtain ⟨rule, hmem, -⟩ := h
      exact absurd hmem List.not_mem_nil
  | cons head rest ih =>
      obtain ⟨rule, hmem, henabled, hreject⟩ := h
      simp only [checkRules]
      rcases List.mem_cons.1 hmem with rfl | hmem
      · simp [henabled, hreject]
      · have hrest : ∀ r, (checkRules order positions now r rest).1.passed = false :=
          fun r => ih r ⟨rule, hmem, henabled, hreject⟩
        split
        next => exact hrest result
        next =>
          split
          next hhead => exact Bool.eq_false_iff.2 hhead
          next => exact hrest _

end RiskManager

/-! ## What a check leaves of the rules -/

/-- Every element of a list has its counterpart in a list that is related to it. -/
theorem forall₂_mem {α β : Type} {R : α → β → Prop} {l : List α} {l' : List β}
    (h : List.Forall₂ R l l') {a : α} (ha : a ∈ l) : ∃ b ∈ l', R a b := by
  induction h with
  | nil => exact absurd ha List.not_mem_nil
  | @cons x y xs ys hxy hrest ih =>
      rcases List.mem_cons.1 ha with rfl | ha
      · exact ⟨y, List.mem_cons_self, hxy⟩
      · obtain ⟨b, hb, hab⟩ := ih ha
        exact ⟨b, List.mem_cons_of_mem _ hb, hab⟩

/-- The two rules are one rule before and after a check: only the data of the check differ. -/
structure RiskRule.Kept (rule rule' : RiskRule) : Prop where
  number : rule'.number = rule.number
  enabled : rule'.enabled = rule.enabled
  name : rule'.kind.name = rule.kind.name
  limits : ∀ limits : PriceLimits, rule.kind = .priceLimit limits → rule'.kind = .priceLimit limits

namespace RiskRule.Kept

theorem refl (rule : RiskRule) : rule.Kept rule := ⟨rfl, rfl, rfl, fun _ h => h⟩

theorem check (rule : RiskRule) (order : OrderRequest) (positions : PositionManager)
    (now : TimestampNs) : rule.Kept (rule.check order positions now).2 := by
  simp only [RiskRule.check]
  split
  next => exact refl rule
  next =>
    obtain ⟨number, enabled, kind⟩ := rule
    cases kind with
    | duplicateOrder => exact ⟨rfl, rfl, rfl, fun _ h => RuleKind.noConfusion h⟩
    | rateLimit => exact ⟨rfl, rfl, rfl, fun _ h => RuleKind.noConfusion h⟩
    | _ => exact refl _

/-- A check of the manager keeps its rules, one by one. -/
theorem checkRules {order : OrderRequest} {positions : PositionManager} {now : TimestampNs}
    (result : RiskCheckResult) (rules : List RiskRule) :
    List.Forall₂ RiskRule.Kept rules
      (RiskManager.checkRules order positions now result rules).2 := by
  induction rules generalizing result with
  | nil => exact List.Forall₂.nil
  | cons head rest ih =>
      simp only [RiskManager.checkRules]
      split
      next => exact List.Forall₂.cons (refl head) (ih result)
      next =>
        split
        next => exact List.Forall₂.cons (check
          head order positions now) (List.forall₂_same.2 fun r _ => refl r)
        next => exact List.Forall₂.cons (check head order positions now) (ih _)

end RiskRule.Kept

/-! ## Runs of the manager -/

/-- A call on the manager. -/
inductive RiskCall where
  | updatePriceLimits (securityId : InternalSecurityId) (limitUp limitDown : DPrice)
  | clearPriceLimits
  | updateConfig (config : RiskConfig)
  | addRule (kind : RuleKind)
  | removeRule (name : String)
  | enableRule (name : String) (enabled : Bool)
  | checkOrder (order : OrderRequest) (positions : PositionManager) (now : TimestampNs)

/-- The name of the price limit rule. -/
def priceLimitName : String := "price_limit"

/-- The call neither switches the price limit check off nor reaches for its rule. -/
def RiskCall.SparesPriceLimits : RiskCall → Prop
  | .updateConfig config => config.enablePriceLimitCheck = true
  | .addRule kind => kind.name ≠ priceLimitName
  | .removeRule name | .enableRule name _ => name ≠ priceLimitName
  | _ => True

/-- What the call does to the manager. -/
def RiskManager.call (m : RiskManager) : RiskCall → RiskManager
  | .updatePriceLimits securityId limitUp limitDown =>
      m.updatePriceLimits securityId limitUp limitDown
  | .clearPriceLimits => m.clearPriceLimits
  | .updateConfig config => m.updateConfig config
  | .addRule kind => m.addRule kind
  | .removeRule name => (m.removeRule name).2
  | .enableRule name enabled => (m.enableRule name enabled).2
  | .checkOrder order positions now => (m.checkOrder order positions now).2

/-- What the call does to the limits that were set. -/
def PriceLimits.call (limits : PriceLimits) : RiskCall → PriceLimits
  | .updatePriceLimits securityId limitUp limitDown =>
      match normalizeInternalSecurityId securityId.view with
      | none => limits
      | some key => limits.insert key (limitUp, limitDown)
  | .clearPriceLimits => ∅
  | _ => limits

/-- The manager, and the limits that were set. -/
structure LimitRun where
  manager : RiskManager
  limits : PriceLimits := ∅

namespace LimitRun

def step (run : LimitRun) (call : RiskCall) : LimitRun :=
  { manager := run.manager.call call, limits := run.limits.call call }

/-- A manager that was just built. -/
def start (config : RiskConfig) : LimitRun := { manager := RiskManager.ofConfig config }

end LimitRun

/-- The price of an order is outside the limits of its security. -/
def PriceLimits.Excludes (limits : PriceLimits) (order : OrderRequest) : Prop :=
  ∃ key limitUp limitDown, normalizeInternalSecurityId order.internalSecurityId.view = some key ∧
    limits.lookup key = some (limitUp, limitDown) ∧
    ((limitUp ≠ 0 ∧ order.dpriceEntrust > limitUp) ∨
      (limitDown ≠ 0 ∧ order.dpriceEntrust < limitDown))

/-- No limit is in force. -/
def PriceLimits.Idle (limits : PriceLimits) : Prop :=
  ∀ key limitUp limitDown, limits.lookup key = some (limitUp, limitDown) →
    limitUp = 0 ∧ limitDown = 0

/-- Every new order outside the limits that were set is rejected. -/
def LimitRun.Protected (run : LimitRun) : Prop :=
  ∀ (order : OrderRequest) (positions : PositionManager) (now : TimestampNs),
    order.orderType = .new →
    run.limits.Excludes order → (run.manager.checkOrder order positions now).1.passed = false

/-- A configuration is replaced only while no limit is in force. -/
def LimitRun.ReplacesIdle (run : LimitRun) (call : RiskCall) : Prop :=
  ∀ config, call = .updateConfig config → run.limits.Idle

/-- Limits are set only while the price limit check is switched on. -/
def LimitRun.SetsWhileOn (run : LimitRun) (call : RiskCall) : Prop :=
  ∀ securityId limitUp limitDown, call = .updatePriceLimits securityId limitUp limitDown →
    limitUp ≠ 0 ∨ limitDown ≠ 0 → run.manager.config.enablePriceLimitCheck = true

/-! ## The rule that the manager remembers -/

/-- The manager remembers the number of a price limit rule that is switched on and holds every limit
in force; other rules of that number it has none. -/
structure LimitRun.Guarded (run : LimitRun) (number : Nat) (stored : PriceLimits) : Prop where
  remembered : run.manager.priceLimitRule = some number
  rule : { number := number, kind := .priceLimit stored } ∈ run.manager.rules
  only : ∀ rule ∈ run.manager.rules, rule.number = number → rule.kind.name = priceLimitName
  fresh : number < run.manager.nextNumber
  holds : ∀ key limitUp limitDown, run.limits.lookup key = some (limitUp, limitDown) →
    limitUp ≠ 0 ∨ limitDown ≠ 0 → stored.lookup key = some (limitUp, limitDown)

/-- The price limit rule rejects an order outside the limits it holds. -/
theorem RiskRule.check_priceLimit {number : Nat} {stored : PriceLimits} {order : OrderRequest}
    (hnew : order.orderType = .new) (positions : PositionManager) (now : TimestampNs)
    (hout : stored.Excludes order) :
    (({ number := number, kind := .priceLimit stored } : RiskRule).check order
      positions now).1.passed = false := by
  obtain ⟨key, limitUp, limitDown, hkey, hlimits, hprice⟩ := hout
  simp only [RiskRule.check, hnew, ne_eq, not_true_eq_false, or_self, if_false,
    checkPriceLimit, hkey, hlimits]
  rw [if_pos hprice]
  rfl

namespace LimitRun.Guarded

variable {run : LimitRun} {number : Nat} {stored : PriceLimits}

/-- A guarded manager protects the securities. -/
theorem isProtected (h : run.Guarded number stored) : run.Protected := by
  intro order positions now hnew hout
  obtain ⟨key, limitUp, limitDown, hkey, hlimits, hprice⟩ := hout
  have hforce : limitUp ≠ 0 ∨ limitDown ≠ 0 := hprice.imp And.left And.left
  have hstored := h.holds key limitUp limitDown hlimits hforce
  exact RiskManager.checkRules_rejects .pass
    ⟨_, h.rule, rfl, RiskRule.check_priceLimit hnew positions now
      ⟨key, limitUp, limitDown, hkey, hstored, hprice⟩⟩

/-- What keeps the rule, and brings no other rule of its number, keeps the manager guarded. -/
theorem keep (h : run.Guarded number stored) {run' : LimitRun}
    (hremembered : run'.manager.priceLimitRule = some number)
    (hrule : { number := number, kind := .priceLimit stored } ∈ run'.manager.rules)
    (horigin : ∀ rule' ∈ run'.manager.rules, rule'.number = number →
      ∃ rule ∈ run.manager.rules, rule.number = number ∧ rule.kind.name = rule'.kind.name)
    (hnext : run.manager.nextNumber ≤ run'.manager.nextNumber)
      (hlimits : run'.limits = run.limits) :
    run'.Guarded number stored where
  remembered := hremembered
  rule := hrule
  only rule' hmem hnumber := by
    obtain ⟨rule, hold, hsame, hname⟩ := horigin rule' hmem hnumber
    rw [← hname]
    exact h.only rule hold hsame
  fresh := Nat.lt_of_lt_of_le h.fresh hnext
  holds := by
    rw [hlimits]
    exact h.holds

theorem addRule (h : run.Guarded number stored) {kind : RuleKind}
    (hname : kind.name ≠ priceLimitName) : (run.step (.addRule kind)).Guarded number stored := by
  refine h.keep ?_ (List.mem_append_left _ h.rule) ?_ (Nat.le_succ _) rfl
  · cases kind with
    | priceLimit limits => exact absurd rfl hname
    | _ => exact h.remembered
  · intro rule' hmem hnumber
    rcases List.mem_append.1 hmem with hmem | hmem
    · exact ⟨rule', hmem, hnumber, rfl⟩
    · -- the new rule has a number that no rule had
      rw [List.mem_singleton.1 hmem] at hnumber
      exact absurd hnumber (Nat.ne_of_gt h.fresh)

theorem removeRule (h : run.Guarded number stored) {name : String} (hname : name ≠ priceLimitName) :
    (run.step (.removeRule name)).Guarded number stored := by
  cases hfind : run.manager.rules.find? fun rule => rule.kind.name = name with
  | none =>
      have hsame : run.step (.removeRule name) = run := by
        simp only [step, RiskManager.call, RiskManager.removeRule, hfind, PriceLimits.call]
      rw [hsame]
      exact h
  | some removed =>
      have hremoved : removed.kind.name = name := by
        have hp := List.find?_some hfind
        simpa using hp
      have hmem := List.mem_of_find?_eq_some hfind
      have hstep : run.step (.removeRule name) =
          { run with manager := { run.manager with
              rules := run.manager.rules.eraseP fun rule => rule.kind.name = name
              priceLimitRule :=
                if run.manager.priceLimitRule = some removed.number then none
                else run.manager.priceLimitRule } } := by
        simp only [step, RiskManager.call, RiskManager.removeRule, hfind, PriceLimits.call]
      rw [hstep]
      refine h.keep ?_ ?_ ?_ (Nat.le_refl _) rfl
      · refine (if_neg fun heq => ?_).trans h.remembered
        rw [h.remembered] at heq
        rw [h.only removed hmem (Option.some.inj heq).symm] at hremoved
        exact hname hremoved.symm
      · exact (List.mem_eraseP_of_neg fun heq => hname (of_decide_eq_true heq).symm).2 h.rule
      · exact fun rule' hrest hnumber => ⟨rule', List.mem_of_mem_eraseP hrest, hnumber, rfl⟩

theorem enableRule (h : run.Guarded number stored) {name : String} (hname : name ≠ priceLimitName)
    (enabled : Bool) : (run.step (.enableRule name enabled)).Guarded number stored := by
  cases hfind : run.manager.rules.findIdx? fun rule => rule.kind.name = name with
  | none =>
      have hsame : run.step (.enableRule name enabled) = run := by
        simp only [step, RiskManager.call, RiskManager.enableRule, hfind, PriceLimits.call]
      rw [hsame]
      exact h
  | some i =>
      have hstep : run.step (.enableRule name enabled) =
          { run with manager := { run.manager with
              rules := run.manager.rules.modify i fun rule =>
                { rule with enabled := enabled } } } := by
        simp only [step, RiskManager.call, RiskManager.enableRule, hfind, PriceLimits.call]
      obtain ⟨hi, hnamed, -⟩ := List.findIdx?_eq_some_iff_getElem.1 hfind
      rw [hstep]
      refine h.keep h.remembered ?_ ?_ (Nat.le_refl _) rfl
      · -- the rule that is switched has another name
        obtain ⟨j, hj, hrule⟩ := List.getElem_of_mem h.rule
        have hne : i ≠ j := by
          rintro rfl
          rw [hrule, decide_eq_true_eq] at hnamed
          exact hname hnamed.symm
        refine List.mem_iff_getElem?.2 ⟨j, ?_⟩
        rw [List.getElem?_modify_ne _ _ hne, List.getElem?_eq_getElem hj, hrule]
      · intro rule' hmem hnumber
        obtain ⟨j, hj⟩ := List.mem_iff_getElem?.1 hmem
        rw [List.getElem?_modify] at hj
        obtain ⟨rule, hrule, heq⟩ := Option.map_eq_some_iff.1 hj
        have hold := List.mem_of_getElem? hrule
        split at heq
        next => exact ⟨rule, hold, by rw [← hnumber, ← heq], by rw [← heq]⟩
        next => exact ⟨rule, hold, by rw [← hnumber, ← heq], by rw [← heq]⟩

theorem checkOrder (h : run.Guarded number stored) (order : OrderRequest)
    (positions : PositionManager)
    (now : TimestampNs) : (run.step (.checkOrder order positions now)).Guarded number stored := by
  have hkept := @RiskRule.Kept.checkRules order positions now .pass run.manager.rules
  refine h.keep h.remembered ?_ ?_ (Nat.le_refl _) rfl
  · obtain ⟨rule, hmem, hsame⟩ := forall₂_mem hkept h.rule
    have heq : rule = { number := number, kind := .priceLimit stored } := by
      obtain ⟨number', enabled, kind⟩ := rule
      rw [show number' = number from hsame.number, show enabled = true from hsame.enabled,
        show kind = .priceLimit stored from hsame.limits stored rfl]
    rw [← heq]
    exact hmem
  · intro rule' hmem hnumber
    obtain ⟨rule, hold, hsame⟩ := forall₂_mem hkept.flip hmem
    exact ⟨rule, hold, hsame.number.symm.trans hnumber, hsame.name.symm⟩

/-- New limits for a key, or none at all: the rules of the number are rewritten, the others stay. -/
theorem rewrite (h : run.Guarded number stored) {f : RiskRule → RiskRule}
    {stored' limits' : PriceLimits} (hrule : f { number := number, kind := .priceLimit stored } =
      { number := number, kind := .priceLimit stored' })
    (hname : ∀ rule, (f rule).kind.name = rule.kind.name)
    (hholds : ∀ key limitUp limitDown, limits'.lookup key = some (limitUp, limitDown) →
      limitUp ≠ 0 ∨ limitDown ≠ 0 → stored'.lookup key = some (limitUp, limitDown)) :
    LimitRun.Guarded
      { manager := { run.manager with
          rules := run.manager.rules.map fun rule => if rule.number = number then f rule else rule }
        limits := limits' } number stored' where
  remembered := h.remembered
  rule := List.mem_map.2 ⟨_, h.rule, (if_pos rfl).trans hrule⟩
  only rule' hmem heq := by
    obtain ⟨rule, hold, rfl⟩ := List.mem_map.1 hmem
    by_cases hsame : rule.number = number
    · rw [if_pos hsame, hname]
      exact h.only rule hold hsame
    · rw [if_neg hsame] at heq
      exact absurd heq hsame
  fresh := h.fresh
  holds := hholds

theorem updatePriceLimits (h : run.Guarded number stored) (securityId : InternalSecurityId)
    (limitUp limitDown : DPrice) :
    ∃ stored', (run.step (.updatePriceLimits securityId limitUp limitDown)).Guarded
      number stored' := by
  -- The manager still remembers the rule, so the limits reach it.
  have hmanager : run.manager.updatePriceLimits securityId limitUp limitDown =
      { run.manager with
        rules := run.manager.rules.map fun rule =>
          if rule.number = number then rule.setPriceLimits securityId limitUp limitDown else
            rule } := by
    simp only [RiskManager.updatePriceLimits, h.remembered]
  simp only [step, RiskManager.call, hmanager, PriceLimits.call]
  have hname : ∀ rule : RiskRule,
      (rule.setPriceLimits securityId limitUp limitDown).kind.name = rule.kind.name := by
    intro rule
    simp only [RiskRule.setPriceLimits]
    split
    next hkind _ => rw [hkind]; rfl
    next => rfl
  -- A key that cannot be normalised leaves the table of the rule.
  cases hkey : normalizeInternalSecurityId securityId.view with
  | none =>
      refine ⟨stored, h.rewrite ?_ hname h.holds⟩
      simp only [RiskRule.setPriceLimits, hkey]
  | some key =>
      refine ⟨stored.insert key (limitUp, limitDown), h.rewrite ?_ hname ?_⟩
      · simp only [RiskRule.setPriceLimits, hkey]
      · intro key' up down hlimits hforce
        rw [Map.lookup_insert_eq] at hlimits ⊢
        split at hlimits
        next heq => rw [if_pos heq, hlimits]
        next hne =>
          rw [if_neg hne]
          exact h.holds key' up down hlimits hforce

theorem clearPriceLimits (h : run.Guarded number stored) :
    (run.step .clearPriceLimits).Guarded number ∅ := by
  have hmanager : run.manager.clearPriceLimits =
      { run.manager with
        rules := run.manager.rules.map fun rule =>
          if rule.number = number then rule.clearPriceLimits else rule } := by
    simp only [RiskManager.clearPriceLimits, h.remembered]
  simp only [step, RiskManager.call, hmanager, PriceLimits.call]
  refine h.rewrite (f := RiskRule.clearPriceLimits) rfl (fun rule => ?_) fun key up down hlimits =>
    ?_
  · simp only [RiskRule.clearPriceLimits]
    split
    next hkind => rw [hkind]; rfl
    next => rfl
  · rw [AList.lookup_empty] at hlimits
    exact absurd hlimits (by simp)

end LimitRun.Guarded

/-! ## Building the rules -/

namespace LimitRun

/-- Adding further rules keeps a manager guarded. -/
theorem Guarded.addRules {kinds : List RuleKind}
    (hnames : ∀ kind ∈ kinds, kind.name ≠ priceLimitName)
    {m : RiskManager} {limits stored : PriceLimits} {number : Nat}
    (h : Guarded { manager := m, limits := limits } number stored) :
    Guarded { manager := kinds.foldl RiskManager.addRule m, limits := limits } number stored := by
  induction kinds generalizing m with
  | nil => exact h
  | cons kind kinds ih =>
      exact ih (fun k hk => hnames k (List.mem_cons_of_mem _ hk))
        (h.addRule (hnames kind List.mem_cons_self))

/-- The numbers of the rules were all handed out. -/
def Numbered (m : RiskManager) : Prop := ∀ rule ∈ m.rules, rule.number < m.nextNumber

theorem Numbered.addRules {kinds : List RuleKind} {m : RiskManager} (h : Numbered m) :
    Numbered (kinds.foldl RiskManager.addRule m) := by
  induction kinds generalizing m with
  | nil => exact h
  | cons kind kinds ih =>
      refine ih fun rule hmem => ?_
      rcases List.mem_append.1 hmem with hmem | hmem
      · exact Nat.lt_succ_of_lt (h rule hmem)
      · rw [List.mem_singleton.1 hmem]
        exact Nat.lt_succ_self _

/-- The price limit rule is added with an empty table. -/
theorem guarded_addRule {m : RiskManager} (h : Numbered m) {limits : PriceLimits}
    (hidle : limits.Idle) :
    Guarded { manager := m.addRule (.priceLimit ∅), limits := limits } m.nextNumber ∅ where
  remembered := rfl
  rule := List.mem_append_right _ (List.mem_singleton.2 rfl)
  only rule hmem hnumber := by
    rcases List.mem_append.1 hmem with hmem | hmem
    · exact absurd hnumber (Nat.ne_of_lt (h rule hmem))
    · rw [List.mem_singleton.1 hmem]
      rfl
  fresh := Nat.lt_succ_self _
  holds key up down hlimits hforce := by
    obtain ⟨hup, hdown⟩ := hidle key up down hlimits
    exact absurd hforce (by simp [hup, hdown])

/-- Building the rules leaves a guarded manager, if no limit is in force. -/
theorem guarded_initializeDefaultRules {m : RiskManager}
    (hcheck : m.config.enablePriceLimitCheck = true) {limits : PriceLimits} (hidle : limits.Idle) :
    ∃ number, Guarded { manager := m.initializeDefaultRules, limits := limits } number ∅ := by
  have hnumbered : Numbered { m with rules := [], priceLimitRule := none } :=
    fun rule hmem => absurd hmem List.not_mem_nil
  simp only [RiskManager.initializeDefaultRules, RiskManager.defaultRules, hcheck,
    if_true, List.foldl_append, List.foldl_cons, List.foldl_nil]
  refine ⟨_, Guarded.addRules ?_ (Guarded.addRules ?_ (guarded_addRule ?_ hidle))⟩
  · intro kind hkind
    split at hkind
    · rw [List.mem_singleton.1 hkind, RuleKind.name]
      decide
    · exact absurd hkind List.not_mem_nil
  · intro kind hkind
    split at hkind
    · rw [List.mem_singleton.1 hkind, RuleKind.name]
      decide
    · exact absurd hkind List.not_mem_nil
  · exact (((hnumbered.addRules).addRules).addRules).addRules

/-! ## Whole runs -/

/-- One call keeps the manager guarded. -/
theorem guarded_step {run : LimitRun} (h : ∃ number stored, run.Guarded number stored)
    {call : RiskCall} (hspares : call.SparesPriceLimits) (hidle : run.ReplacesIdle call) :
    ∃ number stored, (run.step call).Guarded number stored := by
  obtain ⟨number, stored, h⟩ := h
  cases call with
  | updatePriceLimits securityId limitUp limitDown =>
      obtain ⟨stored', h'⟩ := h.updatePriceLimits securityId limitUp limitDown
      exact ⟨number, stored', h'⟩
  | clearPriceLimits => exact ⟨number, ∅, h.clearPriceLimits⟩
  | updateConfig config =>
      obtain ⟨number', h'⟩ := guarded_initializeDefaultRules
        (m := { run.manager with config := config }) hspares (hidle config rfl)
      exact ⟨number', ∅, h'⟩
  | addRule kind => exact ⟨number, stored, h.addRule hspares⟩
  | removeRule name => exact ⟨number, stored, h.removeRule hspares⟩
  | enableRule name enabled => exact ⟨number, stored, h.enableRule hspares enabled⟩
  | checkOrder order positions now => exact ⟨number, stored, h.checkOrder order positions now⟩

theorem idle_empty : PriceLimits.Idle ∅ := by
  intro key up down hlimits
  rw [AList.lookup_empty] at hlimits
  exact absurd hlimits (by simp)

/-- No limit is in force, so nothing is excluded. -/
theorem isProtected_of_idle {run : LimitRun} (h : run.limits.Idle) : run.Protected := by
  intro order positions now _ hout
  obtain ⟨key, limitUp, limitDown, -, hlimits, hprice⟩ := hout
  obtain ⟨hup, hdown⟩ := h key limitUp limitDown hlimits
  rcases hprice with ⟨hne, -⟩ | ⟨hne, -⟩
  · exact absurd hup hne
  · exact absurd hdown hne

theorem idle_insert {limits : PriceLimits} (h : limits.Idle) (key : InternalSecurityId) :
    PriceLimits.Idle (limits.insert key (0, 0)) := by
  intro key' up down hlimits
  rw [Map.lookup_insert_eq] at hlimits
  split at hlimits
  next =>
    obtain ⟨hup, hdown⟩ := Prod.mk.inj (Option.some.inj hlimits)
    exact ⟨hup.symm, hdown.symm⟩
  next => exact h key' up down hlimits

theorem config_addRules (kinds : List RuleKind) (m : RiskManager) :
    (kinds.foldl RiskManager.addRule m).config = m.config := by
  induction kinds generalizing m with
  | nil => rfl
  | cons kind rest ih => exact ih (m.addRule kind)

/-- Only `update_config` changes the configuration. -/
theorem config_call (m : RiskManager) {call : RiskCall}
    (hcall : ∀ config, call ≠ .updateConfig config) : (m.call call).config = m.config := by
  cases call with
  | updatePriceLimits securityId up down =>
      simp only [RiskManager.call, RiskManager.updatePriceLimits]
      split <;> rfl
  | clearPriceLimits =>
      simp only [RiskManager.call, RiskManager.clearPriceLimits]
      split <;> rfl
  | updateConfig config => exact absurd rfl (hcall config)
  | addRule kind => rfl
  | removeRule name =>
      simp only [RiskManager.call, RiskManager.removeRule]
      split <;> rfl
  | enableRule name enabled =>
      simp only [RiskManager.call, RiskManager.enableRule]
      split <;> rfl
  | checkOrder order positions now => rfl

/-- The limits in force are guarded, or the check is switched off and none is in force. -/
def Kept (run : LimitRun) : Prop :=
  (∃ number stored, run.Guarded number stored) ∨
    run.manager.config.enablePriceLimitCheck = false ∧ run.limits.Idle

/-- One call keeps the limits. -/
theorem Kept.step {run : LimitRun} (h : run.Kept) {call : RiskCall}
    (hspares : call.SparesPriceLimits)
    (hidle : run.ReplacesIdle call) (hsets : run.SetsWhileOn call) : (run.step call).Kept := by
  rcases h with h | ⟨hoff, hlimits⟩
  · exact Or.inl (guarded_step h hspares hidle)
  · by_cases hcall : ∃ config, call = .updateConfig config
    · obtain ⟨config, rfl⟩ := hcall
      obtain ⟨number, h'⟩ := guarded_initializeDefaultRules
        (m := { run.manager with config := config }) hspares hlimits
      exact Or.inl ⟨number, ∅, h'⟩
    · refine Or.inr ⟨?_, ?_⟩
      · exact (congrArg RiskConfig.enablePriceLimitCheck
          (config_call run.manager fun config heq => hcall ⟨config, heq⟩)).trans hoff
      · cases call with
        | updatePriceLimits securityId up down =>
            have hzero : up = 0 ∧ down = 0 := by
              by_contra hforce
              have hon := hsets securityId up down rfl (not_and_or.1 hforce)
              exact absurd (hon.symm.trans hoff) (by decide)
            obtain ⟨rfl, rfl⟩ := hzero
            simp only [LimitRun.step, PriceLimits.call]
            split
            · exact hlimits
            · exact idle_insert hlimits _
        | clearPriceLimits => exact idle_empty
        | updateConfig config => exact absurd ⟨config, rfl⟩ hcall
        | addRule kind => exact hlimits
        | removeRule name => exact hlimits
        | enableRule name enabled => exact hlimits
        | checkOrder order positions now => exact hlimits

/-- Price limits are kept: in every run of a manager that replaces its configuration only while no
limit is in force, and is given limits only while the price limit check is switched on, every new
order outside the limits that were set last is rejected. -/
theorem price_limits_kept {config : RiskConfig} {calls : List RiskCall}
    (hcalls : StepsMeet step
      (fun run call => call.SparesPriceLimits ∧ run.ReplacesIdle call ∧ run.SetsWhileOn call)
        (start config)
      calls) :
    ∀ run ∈ trace step (start config) calls, run.Protected := by
  intro run hrun
  have hstart : (start config).Kept := by
    cases hcheck : config.enablePriceLimitCheck with
    | true =>
        obtain ⟨number, h⟩ :=
          guarded_initializeDefaultRules (m := { config := config }) hcheck idle_empty
        exact Or.inl ⟨number, ∅, h⟩
    | false =>
        refine Or.inr ⟨?_, idle_empty⟩
        exact (congrArg RiskConfig.enablePriceLimitCheck (config_addRules _ _)).trans hcheck
  have hkept :=
    trace_invariant Kept (fun run call h hcond => h.step hcond.1 hcond.2.1 hcond.2.2)
    hstart hcalls run hrun
  rcases hkept with ⟨number, stored, h⟩ | ⟨-, hidle⟩
  · exact h.isProtected
  · exact isProtected_of_idle hidle

/-! ## A configuration that is replaced -/

/-- A configuration with the price limit check only. -/
def limitsOnly : RiskConfig :=
  { enableDuplicateCheck := false, enableFundCheck := false, enablePositionCheck := false }

/-- A security key. -/
def limitedKey :
    InternalSecurityId := FixedString.assign (asciiBytes ['X', 'S', 'H', 'E', '_', '1'])

/-- The configuration is set, and then the limits of the security. -/
def configThenLimits :
    List RiskCall := [.updateConfig limitsOnly, .updatePriceLimits limitedKey 1100 900]

/-- The limits of the security are set, and then the same configuration again. -/
def limitsThenConfig :
    List RiskCall := [.updatePriceLimits limitedKey 1100 900, .updateConfig limitsOnly]

/-- The check is switched on after the manager was built without it, and then the limits are set. -/
theorem price_limits_kept_after_config :
    (configThenLimits.foldl step
      (start { limitsOnly with enablePriceLimitCheck := false })).Protected := by
  have hcalls : StepsMeet step
      (fun run call => call.SparesPriceLimits ∧ run.ReplacesIdle call ∧ run.SetsWhileOn call)
      (start { limitsOnly with enablePriceLimitCheck := false }) configThenLimits :=
    ⟨⟨rfl, fun _ _ => idle_empty, fun _ _ _ h => RiskCall.noConfusion h⟩,
      ⟨trivial, fun _ h => RiskCall.noConfusion h, fun _ _ _ _ _ => rfl⟩, trivial⟩
  exact price_limits_kept hcalls _ (foldl_mem_trace _ _ _)

/-- The limits do not survive the new configuration, though it keeps the check: an order at 2000
passes. -/
theorem config_drops_price_limits :
    (∀ call ∈ limitsThenConfig, call.SparesPriceLimits) ∧
      ¬ ∀ run ∈ trace step (start limitsOnly) limitsThenConfig, run.Protected := by
  refine ⟨?_, fun hall => ?_⟩
  · intro call hcall
    rcases List.mem_cons.1 hcall with rfl | hcall
    · trivial
    · rw [List.mem_singleton.1 hcall]
      rfl
  · have hrejected := hall _ (foldl_mem_trace _ _ _)
      { orderType := .new, internalSecurityId := limitedKey, dpriceEntrust := 2000 }
      { header := {}, fund := {}, rows := fun _ => {}, positionCount := 0, securityToRow := ∅ } 0
        rfl
      ⟨limitedKey, 1100, 900, by decide, by decide, Or.inl (by decide)⟩
    exact absurd hrejected (by decide)

end LimitRun

end AccountServices
