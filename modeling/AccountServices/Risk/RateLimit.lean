import Mathlib.Data.List.Induction
import AccountServices.Foundation.Windows
import AccountServices.Foundation.Word
import AccountServices.Risk.RiskManager

/-!
# The rate limit

`rate_limit_rule::check` counts the new orders of a window of one second. The window starts at the
first order after the previous one has run out, not at a full second, and an order that is refused
counts too.
-/

set_option autoImplicit false

namespace AccountServices

open Foundation

/-- `kSecondNs`. -/
def kSecondNs : Nat := 1000000000

/-- `current_second_start_`; 0 for the rules of the other classes. -/
def RiskRule.currentSecondStart (rule : RiskRule) : TimestampNs :=
  match rule.kind with
  | .rateLimit _ _ start => start
  | _ => 0

/-- The arguments of a call of `check`, and the reading of the monotonic clock. -/
structure CheckCall where
  order : OrderRequest
  positions : PositionManager
  now : TimestampNs

/-- A check that was made: its time, the start of the window it was counted in, and its answer. -/
structure CheckRecord where
  time : TimestampNs
  windowStart : TimestampNs
  passed : Bool

/-- A rule and the checks it has made. -/
structure CheckLog where
  rule : RiskRule
  records : List CheckRecord := []

namespace CheckLog

/-- One more check. -/
def step (log : CheckLog) (call : CheckCall) : CheckLog :=
  let answer := log.rule.check call.order call.positions call.now
  { rule := answer.2
    records := log.records ++
      [{ time := call.now, windowStart := answer.2.currentSecondStart, passed :=
        answer.1.passed }] }

/-- The number of checks that were counted in a window. -/
def inWindow (log : CheckLog) (start : TimestampNs) : Nat :=
  log.records.countP fun r => decide (r.windowStart = start)

/-- The number of checks that passed in a window. -/
def passedInWindow (log : CheckLog) (start : TimestampNs) : Nat :=
  log.records.countP fun r => decide (r.windowStart = start) && r.passed

/-- The number of checks that passed in an interval of one second. -/
def passedInSecond (log : CheckLog) (t : Nat) : Nat :=
  log.records.countP fun r => decide (t ≤ r.time.toNat ∧ r.time.toNat ≤ t + kSecondNs) && r.passed

end CheckLog

/-! ## One check -/

namespace RiskRule

/-- What one check of the rule does: it continues the window or starts one. -/
theorem checkRateLimit_cases {maxOrders count : UInt32} (hmax : 0 < maxOrders)
    {start now : TimestampNs} (hnow : start ≤ now) :
    (start ≠ 0 ∧ now.toNat < start.toNat + kSecondNs ∧
      checkRateLimit maxOrders count start now =
        (if count + 1 > maxOrders then .reject .rejectUnknown "order rate exceeds limit" else .pass,
          count + 1, start)) ∨
    ((start = 0 ∨ start.toNat + kSecondNs ≤ now.toNat) ∧
      checkRateLimit maxOrders count start now = (.pass, 1, now)) := by
  have hne : maxOrders ≠ 0 := by
    rintro rfl
    exact absurd hmax (by decide)
  have hsub := UInt64.toNat_sub_of_le now start hnow
  have hlt : ¬ now < start := by
    rw [Word.le_iff] at hnow
    rw [Word.lt_iff]
    omega
  have hsecond : now - start ≥ 1000000000 ↔ start.toNat + kSecondNs ≤ now.toNat := by
    rw [Word.le_iff] at hnow
    rw [ge_iff_le, Word.le_iff, hsub]
    have hlit : (1000000000 : UInt64).toNat = kSecondNs := rfl
    omega
  -- A clock that does not run back leaves the length of the window as the only question.
  simp only [checkRateLimit, hne, if_false, hlt, false_or, hsecond]
  by_cases hfresh : start = 0 ∨ start.toNat + kSecondNs ≤ now.toNat
  · right
    refine ⟨hfresh, ?_⟩
    -- The first order of a window passes, since the limit is not zero.
    have hone : ¬ (0 : UInt32) + 1 > maxOrders := by
      rw [gt_iff_lt, UInt32.lt_iff_toNat_lt] at *
      have : ((0 : UInt32) + 1).toNat = 1 := rfl
      have hzero : (0 : UInt32).toNat = 0 := rfl
      omega
    simp only [hfresh, decide_true, if_true, hone, if_false]
    rfl
  · left
    have hparts := not_or.1 hfresh
    refine ⟨hparts.1, Nat.lt_of_not_le hparts.2, ?_⟩
    simp only [hfresh, decide_false, Bool.false_eq_true, if_false]
    split <;> rfl

/-- A rule that is switched on answers a new order by its check. -/
theorem check_rateLimit {number : Nat} {maxOrders count : UInt32} {start now : TimestampNs}
    {order : OrderRequest} (hnew : order.orderType = .new) (positions : PositionManager) :
    ({ number := number, kind := .rateLimit maxOrders count start } : RiskRule).check
      order positions now = ((checkRateLimit maxOrders count start now).1,
        { number := number
          kind := .rateLimit maxOrders (checkRateLimit maxOrders count start now).2.1
            (checkRateLimit maxOrders count start now).2.2 }) := by
  simp only [check, hnew, ne_eq, not_true_eq_false, or_self, if_false]

end RiskRule

/-! ## Many checks -/

namespace CheckLog

variable {log : CheckLog} {maxOrders : UInt32}

/-- What the rule knows of the checks it has made: it counts those of the last window, which starts
at its first check. -/
structure Counts (log : CheckLog) (maxOrders count : UInt32) (start : TimestampNs) : Prop where
  rule : ∃ number, log.rule = { number := number, kind := .rateLimit maxOrders count start }
  windowed : Windowed (fun r : CheckRecord => r.windowStart.toNat) (fun r => r.time.toNat)
    kSecondNs log.records
  positive : ∀ r ∈ log.records, r.windowStart ≠ 0
  latest : ∀ r ∈ log.records, r.windowStart = start ∨ r.windowStart.toNat + kSecondNs ≤ start.toNat
  first : log.records = [] ∧ start = 0 ∨ ∃ r ∈ log.records, r.windowStart = start
  count : count.toNat = log.inWindow start
  bound : ∀ s, log.passedInWindow s ≤ maxOrders.toNat

/-- The rule before its first check. -/
def fresh (number : Nat) (maxOrders : UInt32) : CheckLog :=
  { rule := { number := number, kind := .rateLimit maxOrders 0 0 } }

theorem counts_fresh (number : Nat) : (fresh number maxOrders).Counts maxOrders 0 0 where
  rule := ⟨number, rfl⟩
  windowed := Windowed.nil
  positive _ hr := absurd hr List.not_mem_nil
  latest _ hr := absurd hr List.not_mem_nil
  first := Or.inl ⟨rfl, rfl⟩
  count := rfl
  bound _ := Nat.zero_le _

theorem passedInWindow_le (log : CheckLog) (start : TimestampNs) :
    log.passedInWindow start ≤ log.inWindow start := by
  refine List.countP_mono_left fun r _ hr => ?_
  rw [Bool.and_eq_true] at hr
  exact hr.1

/-- A window starts before the checks that are counted in it. -/
theorem Counts.start_le {count : UInt32} {start now : TimestampNs}
    (h : log.Counts maxOrders count start)
    (hlate : ∀ r ∈ log.records, r.time ≤ now) : start ≤ now := by
  rw [Word.le_iff]
  rcases h.first with ⟨-, rfl⟩ | ⟨r, hr, rfl⟩
  · exact Nat.zero_le _
  · have htime := (Word.le_iff _ _).1 (hlate r hr)
    exact Nat.le_trans (h.windowed.covers r hr).1 htime

/-- The log after a check, by the record that it adds. -/
theorem step_records {call : CheckCall} {result : RiskCheckResult} {rule : RiskRule}
    (h : log.rule.check call.order call.positions call.now = (result, rule)) :
    log.step call =
      { rule := rule
        records := log.records ++
          [{ time := call.now, windowStart := rule.currentSecondStart, passed :=
            result.passed }] } := by
  simp only [step, h]

section Record

variable {rule : RiskRule} {time start : TimestampNs} {passed : Bool}

theorem inWindow_append (s : TimestampNs) :
    ({ rule := rule, records := log.records ++ [⟨time, start, passed⟩] } : CheckLog).inWindow s =
      log.inWindow s + if start = s then 1 else 0 := by
  simp only [inWindow, List.countP_append, List.countP_singleton, decide_eq_true_eq]

theorem passedInWindow_append (s : TimestampNs) :
    ({ rule := rule, records := log.records ++ [⟨time, start, passed⟩] } : CheckLog).passedInWindow
      s = log.passedInWindow s + if start = s ∧ passed = true then 1 else 0 := by
  simp only [passedInWindow, List.countP_append, List.countP_singleton,
    Bool.and_eq_true, decide_eq_true_eq]

end Record

/-- One check continues the last window or starts a new one. -/
theorem Counts.step {count : UInt32} {start : TimestampNs} (h : log.Counts maxOrders count start)
    (hmax : 0 < maxOrders) {call : CheckCall} (hnew : call.order.orderType = .new)
    (hpos : 0 < call.now) (hlate : ∀ r ∈ log.records, r.time ≤ call.now)
    (hfew : ∀ s, (log.step call).inWindow s < 2 ^ 32) :
    ∃ count' start', (log.step call).Counts maxOrders count' start' := by
  obtain ⟨number, hrule⟩ := h.rule
  have hle := h.start_le hlate
  have hcheck := @RiskRule.check_rateLimit number maxOrders count start call.now call.order hnew
    call.positions
  rw [← hrule] at hcheck
  have hstep := step_records hcheck
  rcases @RiskRule.checkRateLimit_cases maxOrders count hmax start call.now hle with
    ⟨hne, hin, hresult⟩ | ⟨hout, hresult⟩
  · -- the check is counted in the last window
    rw [hresult] at hstep
    simp only [RiskRule.currentSecondStart] at hstep
    generalize hpassed : RiskCheckResult.passed _ = passed at hstep
    have hcount : (count + 1).toNat = log.inWindow start + 1 := by
      have hbelow := hfew start
      rw [hstep, inWindow_append, if_pos rfl, ← h.count] at hbelow
      rw [UInt32.toNat_add, ← h.count]
      exact Nat.mod_eq_of_lt hbelow
    refine ⟨count + 1, start, ?_⟩
    rw [hstep]
    refine ⟨⟨number, rfl⟩, ?_, ?_, ?_, ?_, ?_, ?_⟩
    · exact h.windowed.snoc ⟨(Word.le_iff _ _).1 hle, hin⟩
        fun r hr => (h.latest r hr).imp (congrArg UInt64.toNat) id
    · intro r hr
      rcases List.mem_append.1 hr with hr | hr
      · exact h.positive r hr
      · rw [List.mem_singleton.1 hr]
        exact hne
    · intro r hr
      rcases List.mem_append.1 hr with hr | hr
      · exact h.latest r hr
      · exact Or.inl (by rw [List.mem_singleton.1 hr])
    · exact Or.inr ⟨_, List.mem_append_right _ (List.mem_singleton.2 rfl), rfl⟩
    · rw [inWindow_append, if_pos rfl, hcount]
    · intro s
      rw [passedInWindow_append]
      split
      next hboth =>
        obtain ⟨rfl, hpass⟩ := hboth
        -- an order passes only while the count, itself included, is within the limit
        have hwithin : (count + 1).toNat ≤ maxOrders.toNat := by
          by_contra hover
          have hgt : count + 1 > maxOrders := by
            rw [gt_iff_lt, UInt32.lt_iff_toNat_lt]
            omega
          rw [if_pos hgt] at hpassed
          rw [← hpassed] at hpass
          exact absurd hpass (by decide)
        have hsome := log.passedInWindow_le start
        omega
      next => exact h.bound s
  · -- the check starts a window
    rw [hresult] at hstep
    simp only [RiskRule.currentSecondStart] at hstep
    have hbefore : ∀ r ∈ log.records, r.windowStart.toNat + kSecondNs ≤ call.now.toNat := by
      intro r hr
      rcases hout with rfl | hout
      · rcases h.latest r hr with heq | hlt
        · exact absurd heq (h.positive r hr)
        · rw [UInt64.toNat_zero] at hlt
          exact absurd hlt (by simp [kSecondNs])
      · rcases h.latest r hr with heq | hlt
        · rw [heq]
          exact hout
        · omega
    have hnone : log.inWindow call.now = 0 := by
      refine List.countP_eq_zero.2 fun r hr heq => ?_
      have hlt := hbefore r hr
      rw [of_decide_eq_true heq] at hlt
      exact absurd hlt (by simp [kSecondNs])
    refine ⟨1, call.now, ?_⟩
    rw [hstep]
    refine ⟨⟨number, rfl⟩, ?_, ?_, ?_, ?_, ?_, ?_⟩
    · exact h.windowed.snoc ⟨Nat.le_refl _, Nat.lt_add_of_pos_right (by decide)⟩ fun r hr =>
        Or.inr (hbefore r hr)
    · intro r hr
      rcases List.mem_append.1 hr with hr | hr
      · exact h.positive r hr
      · rw [List.mem_singleton.1 hr]
        rintro hzero
        rw [show call.now = 0 from hzero] at hpos
        exact absurd hpos (by decide)
    · intro r hr
      rcases List.mem_append.1 hr with hr | hr
      · exact Or.inr (hbefore r hr)
      · exact Or.inl (by rw [List.mem_singleton.1 hr])
    · exact Or.inr ⟨_, List.mem_append_right _ (List.mem_singleton.2 rfl), rfl⟩
    · rw [inWindow_append, if_pos rfl, hnone]
      rfl
    · intro s
      rw [passedInWindow_append]
      split
      next hboth =>
        obtain ⟨rfl, -⟩ := hboth
        have hsome := log.passedInWindow_le call.now
        have hone : 1 ≤ maxOrders.toNat := by
          rw [UInt32.lt_iff_toNat_lt] at hmax
          exact hmax
        omega
      next => exact h.bound s

/-- The next order passes while fewer than the allowed number were counted in the last window. -/
theorem Counts.passes {count : UInt32} {start : TimestampNs} (h : log.Counts maxOrders count start)
    (hmax : 0 < maxOrders) {call : CheckCall} (hnew : call.order.orderType = .new)
    (hlate : ∀ r ∈ log.records, r.time ≤ call.now)
    (hroom : log.inWindow log.rule.currentSecondStart < maxOrders.toNat) :
    (log.rule.check call.order call.positions call.now).1.passed = true := by
  obtain ⟨number, hrule⟩ := h.rule
  rw [hrule] at hroom ⊢
  rw [RiskRule.check_rateLimit hnew]
  simp only [RiskRule.currentSecondStart] at hroom
  rcases @RiskRule.checkRateLimit_cases maxOrders count hmax start call.now (h.start_le hlate) with
    ⟨-, -, hresult⟩ | ⟨-, hresult⟩
  · have hwithin : ¬ count + 1 > maxOrders := by
      have hlt := maxOrders.toNat_lt
      have hadd := UInt32.toNat_add count 1
      rw [← h.count] at hroom
      rw [gt_iff_lt, UInt32.lt_iff_toNat_lt, hadd]
      have hone : (1 : UInt32).toNat = 1 := rfl
      omega
    rw [hresult, if_neg hwithin]
    rfl
  · rw [hresult]
    rfl

/-! ## Runs -/

/-- The rule after the checks of a list. -/
def after (number : Nat) (maxOrders : UInt32) (calls : List CheckCall) : CheckLog :=
  calls.foldl step (fresh number maxOrders)

theorem after_snoc (number : Nat) (calls : List CheckCall) (call : CheckCall) :
    after number maxOrders (calls ++ [call]) = (after number maxOrders calls).step call := by
  simp only [after, List.foldl_append, List.foldl_cons, List.foldl_nil]

/-- The times of the records are those of the calls. -/
theorem times_after (number : Nat) (calls : List CheckCall) :
    (after number maxOrders calls).records.map CheckRecord.time = calls.map CheckCall.now := by
  induction calls using List.reverseRecOn with
  | nil => rfl
  | append_singleton calls call ih =>
      rw [after_snoc, List.map_append, ← ih]
      simp only [step, List.map_append, List.map_cons, List.map_nil]

theorem inWindow_le_step (log : CheckLog) (call : CheckCall) (s : TimestampNs) :
    log.inWindow s ≤ (log.step call).inWindow s := by
  simp only [inWindow, step, List.countP_append]
  exact Nat.le_add_right _ _

/-- Every record was made by one of the calls. -/
theorem time_mem_calls {number : Nat} {calls : List CheckCall} {r : CheckRecord}
    (hr : r ∈ (after number maxOrders calls).records) : r.time ∈ calls.map CheckCall.now := by
  rw [← @times_after maxOrders number]
  exact List.mem_map_of_mem hr

theorem late_of_sorted {number : Nat} {calls : List CheckCall} {call : CheckCall}
    (hsorted : ((calls ++ [call]).map CheckCall.now).Pairwise (· ≤ ·)) :
    ∀ r ∈ (after number maxOrders calls).records, r.time ≤ call.now := by
  intro r hr
  rw [List.map_append, List.pairwise_append] at hsorted
  exact hsorted.2.2 r.time (time_mem_calls hr) call.now (List.mem_singleton.2 rfl)

/-- The rule counts the checks of every sequence of calls. -/
theorem counts_after (hmax : 0 < maxOrders) (number : Nat) {calls : List CheckCall}
    (hnew : ∀ call ∈ calls, call.order.orderType = .new) (hpos : ∀ call ∈ calls, 0 < call.now)
    (hsorted : (calls.map CheckCall.now).Pairwise (· ≤ ·))
    (hfew : ∀ s, (after number maxOrders calls).inWindow s < 2 ^ 32) :
    ∃ count start, (after number maxOrders calls).Counts maxOrders count start := by
  induction calls using List.reverseRecOn with
  | nil => exact ⟨0, 0, counts_fresh number⟩
  | append_singleton calls call ih =>
      have hprefix : (calls.map CheckCall.now).Pairwise (· ≤ ·) := by
        rw [List.map_append, List.pairwise_append] at hsorted
        exact hsorted.1
      rw [after_snoc] at hfew ⊢
      obtain ⟨count, start, hcounts⟩ := ih (fun c hc => hnew c (List.mem_append_left _ hc))
        (fun c hc => hpos c (List.mem_append_left _ hc)) hprefix
        fun s => Nat.lt_of_le_of_lt (inWindow_le_step _ call s) (hfew s)
      have hlast : call ∈ calls ++ [call] := List.mem_append_right _ (List.mem_singleton.2 rfl)
      exact hcounts.step hmax (hnew call hlast) (hpos call hlast) (late_of_sorted hsorted) hfew

/-- New orders at the ends of one window and at the start of the next. -/
def acrossWindows : List CheckCall :=
  [1, 1000000000, 1000000001, 1000000002, 1000000003].map fun now =>
    { order := { orderType := .new }
      positions :=
        { header := {}, fund := {}, rows := fun _ => {}, positionCount := 0, securityToRow := ∅ }
      now := now }

end CheckLog

end AccountServices
