import AccountServices.Execution.SingleChild

/-!
# Clips in sequence

FixedSize and Iceberg sessions send one clip after the other. A clip has a volume, at most that of
the configuration, and the next one is sent when the last has nothing open. The session comes to its
end when its target is traded: what a clip did not trade is scheduled again. It ends sooner when it
fails or when a cancel of the parent is live in the book.
-/

set_option autoImplicit false

namespace AccountServices

open Foundation

namespace Session

variable {cfg : Config} {env : Env} {nowNs : TimestampNs} {routes : Prop}
  {w v : World} {s s' : Session}
variable {clipVolume : Volume}

/-! ## Turns of a sequential session -/

theorem twapState?_ready_sequential (hplan : s.plan = .sequentialClip clipVolume) (b : OrderBook) :
    (s.ready b).twapState? = none := by
  rw [ready_sequential hplan, twapState?, s.plan_refreshed, hplan]

/-- A turn keeps the plan. -/
theorem Turn.plan_sequential (hturn : s.Turn cfg env routes w s' v)
    (hplan : s.plan = .sequentialClip clipVolume) : s'.plan = .sequentialClip clipVolume := by
  have hready : (s.ready w.book).plan = .sequentialClip clipVolume := by
    rw [ready_sequential hplan, s.plan_refreshed, hplan]
  have hnone := twapState?_ready_sequential hplan w.book
  cases hturn with
  | gone _ => exact hplan
  | fails _ _ => exact (s.plan_refreshed w.book).trans hplan
  | waits _ _ => exact hready
  | ends _ _ _ _ => exact hready
  | skips _ _ _ _ => exact hready
  | clip _ _ _ _ _ _ htries => exact (show s'.plan = _ from htries.plan).trans hready
  | slice _ htwap _ _ _ _ _ _ =>
      rw [hnone] at htwap
      exact Bool.noConfusion htwap
  | passes _ htwap _ _ _ =>
      rw [hnone] at htwap
      exact Bool.noConfusion htwap

/-- What a turn sends is a clip. -/
theorem Turn.sent_sequential (hturn : s.Turn cfg env routes w s' v)
    (hplan : s.plan = .sequentialClip clipVolume)
    (hsent : ∀ x ∈ sentChildren w.childTrace, 1 ≤ x.1.toNat ∧ x.1.toNat ≤ clipVolume.toNat) :
    ∀ x ∈ sentChildren v.childTrace, 1 ≤ x.1.toNat ∧ x.1.toNat ≤ clipVolume.toNat := by
  have hnone := twapState?_ready_sequential hplan w.book
  cases hturn with
  | gone _ => exact hsent
  | fails _ _ => exact hsent
  | waits _ _ => exact hsent
  | ends _ _ _ _ => exact hsent
  | skips _ _ _ _ => exact hsent
  -- A clip is not empty, and within the budget, which the volume of a clip bounds.
  | @clip _ price sent _ v' _ _ _ _ _ _ htries =>
      obtain ⟨hnot, hone⟩ := htries.sentChildren
      cases sent with
      | false => exact fun x hx => hsent x (hnot rfl ▸ hx)
      | true =>
          obtain ⟨volume, active, hvolume, hle, happend⟩ := hone rfl
          intro x hx
          rw [show sentChildren (s'.mirroredIn env.nowNs v').childTrace = _ from happend] at hx
          rcases List.mem_append.1 hx with hx | hx
          · exact hsent x hx
          · rw [List.mem_singleton.1 hx]
            rw [Ne, Word.eq_iff, UInt64.toNat_zero] at hvolume
            rw [currentBudgetVolume, ready_sequential hplan, s.plan_refreshed, hplan, Word.le_iff,
              Word.toNat_min] at hle
            exact ⟨Nat.one_le_iff_ne_zero.2 hvolume, hle.trans (Nat.min_le_left _ _)⟩
  | slice _ htwap _ _ _ _ _ _ =>
      rw [hnone] at htwap
      exact Bool.noConfusion htwap
  | passes _ htwap _ _ _ =>
      rw [hnone] at htwap
      exact Bool.noConfusion htwap

/-! ## The end of a sequential session -/

/-- Without the mark of a cancel no cancel is live. -/
theorem uncancelled_of_noteCancels {b : OrderBook} {ids : List InternalOrderId}
    (h : (s.noteCancels b ids).cancelRequested = false) :
    s.cancelRequested = false ∧ ∀ c ∈ ids, ∀ e, b.findOrder c = some e →
      e.request.orderType ≠ .cancel := by
  induction ids generalizing s with
  | nil => exact ⟨h, fun c hc => absurd hc List.not_mem_nil⟩
  | cons relatedId rest ih =>
      simp only [noteCancels] at h
      cases hfind : b.findOrder relatedId with
      | none =>
          rw [hfind] at h
          obtain ⟨hmark, hrest⟩ := ih h
          refine ⟨hmark, fun c hc e he => ?_⟩
          rcases List.mem_cons.1 hc with rfl | hc
          · exact absurd (hfind.symm.trans he) (by simp)
          · exact hrest c hc e he
      | some entry =>
          simp only [hfind] at h
          split at h
          next htype =>
            obtain ⟨hmark, hrest⟩ := ih h
            refine ⟨hmark, fun c hc e he => ?_⟩
            rcases List.mem_cons.1 hc with rfl | hc
            · rw [hfind, Option.some.injEq] at he
              exact he ▸ htype
            · exact hrest c hc e he
          next =>
            -- The mark of this cancel stays.
            have hmarked :
                (s.noteCancel entry.request.origInternalOrderId).cancelRequested = true := by
              simp only [noteCancel]
              split <;> rfl
            exact absurd (hmarked.symm.trans (ih h).1) Bool.noConfusion

theorem refreshed_of_uncancelled {b : OrderBook}
    (h : b.Uncancelled s.parentRequest.internalOrderId) :
    s.refreshed b = { s with cancelRequested := false } :=
  noteCancels_of_none h _

/-- The session has traded its target, and nothing else ends it: the parent is in the book without a
live cancel, no child failed, and none works. -/
structure TargetReached (s : Session) (b : OrderBook) : Prop where
  found : (b.findOrder s.parentRequest.internalOrderId).isSome = true
  uncancelled : b.Uncancelled s.parentRequest.internalOrderId
  running : s.failed = false
  idle : s.hasWorkingChildren = false
  traded : s.confirmedTradedVolume = s.targetVolume

/-- The session comes to its end by what it traded. -/
def EndsByTarget (s s' : Session) : Prop :=
  s.terminal = false ∧ s'.terminal = true ∧ s'.failed = false ∧ s'.cancelRequested = false

theorem Turn.targetReached (hturn : s.Turn cfg env routes w s' v)
    (hplan : s.plan = .sequentialClip clipVolume)
    {records : List ChildTrace} (hbudget : s.Accounted records) (hends : s.EndsByTarget s') :
    s.TargetReached w.book := by
  obtain ⟨hopen, hterminal, hfailed', hmark⟩ := hends
  have hnone := twapState?_ready_sequential hplan w.book
  have hrefreshed := ready_sequential hplan w.book
  obtain ⟨hkeepFailed, hkeepTerminal⟩ := Alike.ready_flags s w.book
  have hcontra : s.terminal = true → s.TargetReached w.book := fun h =>
    absurd (hopen.symm.trans h) Bool.noConfusion
  -- Only the turn that ends a session by itself ends it without failing it; the others are excluded
  -- by the marks that `EndsByTarget` asks for.
  cases hturn with
  | gone _ => exact absurd hfailed' Bool.noConfusion
  | fails _ hfailed => exact absurd (hfailed.symm.trans hfailed') Bool.noConfusion
  | waits _ _ => exact hcontra (hkeepTerminal.symm.trans hterminal)
  | skips _ _ _ _ => exact hcontra (hkeepTerminal.symm.trans hterminal)
  | ends hfound hfailed hidle hwhy =>
      rw [hrefreshed] at hidle hwhy hfailed
      have hcancel : (s.refreshed w.book).cancelRequested = false := hrefreshed ▸ hmark
      have huncancelled : w.book.Uncancelled s.parentRequest.internalOrderId :=
        (uncancelled_of_noteCancels hcancel).2
      have hplain := refreshed_of_uncancelled huncancelled
      rw [hplain] at hidle hwhy hfailed
      refine ⟨hfound, huncancelled, hfailed, hidle, ?_⟩
      rcases hwhy with hcancelled | hremaining | hexhausted
      · exact absurd hcancelled Bool.noConfusion
      · -- The target is the most that can be traded.
        have hle := hbudget.budgeted.confirmed_working_schedulable
        rw [Word.eq_iff]
        have hremaining' : s.remainingTarget = 0 := hremaining
        simp only [remainingTarget] at hremaining'
        split at hremaining'
        next hge =>
          rw [ge_iff_le, Word.le_iff] at hge
          omega
        next hlt =>
          rw [ge_iff_le, Word.le_iff] at hlt
          have hsub := UInt64.toNat_sub_of_le s.targetVolume s.confirmedTradedVolume
            ((Word.le_iff _ _).2 (by omega))
          rw [hremaining', UInt64.toNat_zero] at hsub
          omega
      · have hslices : s.slicesExhausted = true := hexhausted
        simp [slicesExhausted, twapState?, hplan] at hslices
  -- A clip ends the session only when it was not submitted, which fails it.
  | clip _ _ hfailed _ _ _ htries =>
      have hruns : (s.ready w.book).terminal = true → (s.ready w.book).failed = true := fun h =>
        absurd (hopen.symm.trans (hkeepTerminal.symm.trans h)) Bool.noConfusion
      exact absurd ((htries.terminal hruns hterminal).symm.trans hfailed') Bool.noConfusion
  -- A sequential plan has no slices.
  | slice _ htwap _ _ _ _ _ _ =>
      rw [hnone] at htwap
      exact Bool.noConfusion htwap
  | passes _ htwap _ _ _ =>
      rw [hnone] at htwap
      exact Bool.noConfusion htwap

/-- At its target the session ends in its next tick. -/
theorem TargetReached.tick (h : s.TargetReached w.book)
    (hplan : s.plan = .sequentialClip clipVolume) (cfg : Config) (env : Env) (nowNs : TimestampNs) :
    ((s.tick cfg env nowNs).run w).1 = { s with cancelRequested := false, terminal := true } := by
  obtain ⟨parent, hparent⟩ := Option.isSome_iff_exists.1 h.found
  have hplain := refreshed_of_uncancelled h.uncancelled
  have hremaining : s.remainingTarget = 0 := by
    rw [remainingTarget, if_pos]
    rw [h.traded]
    exact (Word.le_iff _ _).2 (Nat.le_refl _)
  have hbudget : s.currentBudgetVolume = 0 := by
    have hle := s.currentBudgetVolume_le
    have hnothing : s.schedulableVolume = 0 := by
      rw [schedulableVolume, hremaining, if_pos ((Word.le_iff _ _).2 (Nat.zero_le _))]
    rw [hnothing, UInt64.toNat_zero] at hle
    rw [Word.eq_iff, UInt64.toNat_zero]
    omega
  have hfound : s.refreshParentState w.book = (true, { s with cancelRequested := false }) := by
    rw [← hplain]
    simp only [refreshParentState, hparent]
    rfl
  -- The session with the mark cleared has the ledgers, the target and the flags of `s`.
  set t : Session := { s with cancelRequested := false } with ht
  have hfailed : t.failed = false := h.running
  have hidle : t.hasWorkingChildren = false := h.idle
  have hzero : t.currentBudgetVolume = 0 := hbudget
  have hend : t.idleAtEnd = true := by
    have hdone : t.remainingTarget = 0 := hremaining
    rw [idleAtEnd, hdone, hidle]
    simp
  have hkind : t.plan = .sequentialClip clipVolume := hplan
  have hmark : t.cancelRequested = false := rfl
  simp only [Session.tick, Program.run_bind, Program.run_read, hfound, if_true, hkind,
    tickSequential, hfailed, hidle,
    hmark, hzero, finishIfIdle, hend, Bool.false_eq_true, if_false, Program.run_pure]
  simp only [ht, hplan, h.running]

theorem terminal_onTradeResponse (s : Session) (r : TradeResponse) :
    (s.onTradeResponse r).1.terminal = s.terminal := by
  have hadvance : ∀ t : Session, t.advanceSliceIfReady.terminal = t.terminal := by
    intro t
    simp only [advanceSliceIfReady]
    split
    · rfl
    · split <;> rfl
  simp only [onTradeResponse]
  split
  · rfl
  split
  · rfl
  split
  · rw [hadvance]
    simp only [finalizeFinishedChild]
    split <;> rfl
  split
  · exact hadvance _
  · rfl

theorem plan_onTradeResponse (hplan : s.plan = .sequentialClip clipVolume) (r : TradeResponse) :
    (s.onTradeResponse r).1.plan = .sequentialClip clipVolume := by
  have hadvance : ∀ t : Session, t.plan = .sequentialClip clipVolume →
      t.advanceSliceIfReady.plan = .sequentialClip clipVolume := by
    intro t ht
    rw [advanceSliceIfReady_sequential ht]
    exact ht
  simp only [onTradeResponse]
  split
  · exact hplan
  split
  · exact hplan
  split
  · refine hadvance _ ?_
    simp only [finalizeFinishedChild]
    split <;> exact hplan
  split
  · exact hadvance _ hplan
  · exact hplan

end Session

namespace SessionStep

/-- A step ends the session by what it traded if and only if it is a tick that finds the target
traded and the session running. -/
def EndsAtTarget (state : Session × List ChildTrace) (step : SessionStep) : Prop :=
  state.1.EndsByTarget (step.apply state).1 ↔
    state.1.terminal = false ∧ ∃ cfg env nowNs w, step = .tick cfg env nowNs w ∧
      state.1.TargetReached w.book

end SessionStep

namespace Session

/-- The sessions that send clips. -/
theorem create_sequential {c : SplitConfig} {parentIndex : OrderIndex}
    {parentRequest : OrderRequest} {strategyId : StrategyId} {startTimeNs : TimestampNs}
    {s₀ : Session} (hcreate : create c parentIndex parentRequest strategyId startTimeNs = some s₀)
    (hstrategy : resolveExecutionStrategy parentRequest c = .fixedSize ∨
      resolveExecutionStrategy parentRequest c = .iceberg) :
    s₀.plan = .sequentialClip c.resolveClipVolume := by
  simp only [create] at hcreate
  rcases hstrategy with hkind | hkind
  · rw [hkind] at hcreate
    simp only at hcreate
    split at hcreate
    · exact absurd hcreate (by simp)
    · rw [← Option.some.inj hcreate]
  · rw [hkind] at hcreate
    simp only at hcreate
    split at hcreate
    · exact absurd hcreate (by simp)
    · rw [← Option.some.inj hcreate]

instance (s s' : Session) : Decidable (s.EndsByTarget s') :=
  inferInstanceAs (Decidable (s.terminal = false ∧ s'.terminal = true ∧ s'.failed = false ∧
    s'.cancelRequested = false))

/-! ## A cancel at the target -/

/-- A parent of 100 shares, in clips of 100. -/
def oneClipParent : OrderRequest :=
  { OrderRequest.ofClient 7 .buy 100 10 with passiveExecutionAlgo := .fixedSize }

def oneClipConfig : Config :=
  { hasExecutionEngine := true
    splitConfig := { strategy := .fixedSize, maxChildVolume := 100 }
    hasMarketDataService := true
    allowOrderPriceFallback := true }

/-- The service with the parent in its book. -/
def oneClipWorld : World :=
  { World.start {} {} (OrdersShm.ofClients [oneClipParent]) with
    book := (OrderBook.empty.addOrder { request := oneClipParent } 0).book }

/-- The same with a cancel of the first clip, as a cancel of the parent leaves it. -/
def cancelledClipWorld : World :=
  { oneClipWorld with
    book := (oneClipWorld.book.addOrder
      { request := Service.cancelRequest 9 0 1, isSplitChild := true, parentOrderId := 7 } 0).book }

/-- The clip is sent and filled. -/
def filledClip : List SessionStep :=
  [.tick oneClipConfig {} 0 oneClipWorld,
    .response
      { internalOrderId := 1, tradeSide := .buy, newState := .finished, volumeTraded := 100
        dpriceTraded := 10, dvalueTraded := 1000 }]

/-- The session after the first steps of a run. -/
def after (s₀ : Session) (steps : List SessionStep) (n : Nat) : Session :=
  ((steps.take n).foldl SessionStep.apply (s₀, [])).1

end Session

end AccountServices
