import AccountServices.Execution.SingleChild

/-!
# The pace of a TWAP session

The slices of a TWAP plan are used in order, one child for each: the first by whichever comes first
of the active strategy and the deadline of the slice, the next one when no child works. Three places
advance the slice. They agree because the flag of the slice is set by a submission that succeeded
and by nothing else, so the index of the slice counts the children that were sent.
-/

set_option autoImplicit false

namespace AccountServices

open Foundation

namespace Session

open Program

variable {cfg : Config} {env : Env} {nowNs : TimestampNs} {routes : Prop}
  {w v : World} {s s' t : Session}

/-! ## Before the deadline -/

/-- The passive children that were sent. -/
def passiveChildren (records : List ChildTrace) : List (Volume × Bool) :=
  (sentChildren records).filter fun x => !x.2

theorem ensures_sync_trace (s : Session) (now : TimestampNs) (w : World) :
    Ensures (do s.syncParentView now; pure s : Service Session) w
      fun _ u => u.childTrace = w.childTrace := by
  refine Ensures.bind (Ensures.bind ?_)
  refine (Preserves.ensures (Service.preserves_onBook (stable_childTrace w.childTrace) now
    fun _ h => h) rfl).mono fun _ u htrace => ?_
  exact htrace

theorem ensures_endSlice_trace (s : Session) (now : TimestampNs) (w : World) :
    Ensures (s.endSlice now) w fun _ u => u.childTrace = w.childTrace := by
  have hend : ∀ t : Session,
      Ensures (if t.terminal then pure t else do t.syncParentView now; pure t :
      Service Session) w fun _ u => u.childTrace = w.childTrace := by
    intro t
    split
    · exact Ensures.pure rfl
    · exact ensures_sync_trace t now w
  exact hend _

theorem ensures_finishIfIdle_trace (s : Session) (now : TimestampNs) (w : World) :
    Ensures (s.finishIfIdle now) w fun _ u => u.childTrace = w.childTrace := by
  simp only [finishIfIdle]
  split
  · exact ensures_sync_trace _ now w
  split
  · exact Ensures.pure rfl
  · exact ensures_sync_trace s now w

/-- The active strategy sends no passive child. -/
theorem ensures_tryActive_passive {view : Option MarketDataView} {price : DPrice}
    (hprice : s.resolveSubmitPrice cfg env = some (view, price)) :
    Ensures (s.tryActive cfg env view price s.currentBudgetVolume) w
      fun _ u => passiveChildren u.childTrace = passiveChildren w.childTrace := by
  have htriple := triple_tryActive (w := w) (fun h : False => h.elim) hprice
  refine (htriple.ensures (fun _ _ => Relation.ReflTransGen.refl)
    ⟨World.Apart.refl w, fun h => h.elim⟩).mono ?_
  rintro ⟨sent, t⟩ u ⟨v, htried, hamid⟩
  rw [hamid.1.childTrace]
  cases htried with
  | silent seqNo => rfl
  | submits hdecides hle hsubmits =>
      rw [passiveChildren, hsubmits.sentChildren, List.filter_append, passiveChildren]
      split <;> simp

/-- Before the deadline of its slice a session sends no passive child. -/
theorem ensures_tick_early (cfg : Config) (env : Env) {state : TwapState}
    (hplan : (s.ready w.book).plan = .twap state) (hearly : nowNs < state.nextDeadlineNs) :
    Ensures (s.tick cfg env nowNs) w
      fun _ u => passiveChildren u.childTrace = passiveChildren w.childTrace := by
  have hquiet : ∀ {p : Service Session}, Ensures p w (fun _ u => u.childTrace = w.childTrace) →
      Ensures p w fun _ u => passiveChildren u.childTrace = passiveChildren w.childTrace :=
    fun h => h.mono fun _ u htrace => congrArg passiveChildren htrace
  refine Ensures.bind (Ensures.read ?_)
  cases hparent : w.book.findOrder s.parentRequest.internalOrderId with
  | none =>
      have hgone : s.refreshParentState w.book = (false, s.broken) := by
        simp only [refreshParentState, hparent]
        rfl
      simp only [hgone, Bool.false_eq_true, if_false]
      exact hquiet (ensures_sync_trace _ _ w)
  | some parent =>
      have hrefreshed : s.refreshParentState w.book = (true, s.refreshed w.book) := by
        simp only [refreshParentState, hparent]
        rfl
      simp only [hrefreshed, if_true]
      cases hkind : (s.refreshed w.book).plan with
      | sequentialClip clipVolume =>
          rw [ready, advanceSliceIfReady_sequential hkind, hkind] at hplan
          exact SessionPlan.noConfusion hplan
      | twap _ =>
          simp only [tickTwap]
          split
          · exact hquiet (ensures_sync_trace _ _ w)
          have hready : (s.refreshed w.book).advanceSliceIfReady = s.ready w.book := rfl
          have hstate : (s.ready w.book).twapState? = some state := by
            rw [twapState?, hplan]
          simp only [hready, hstate]
          split
          · exact hquiet (ensures_sync_trace _ _ w)
          split
          · exact hquiet (ensures_finishIfIdle_trace _ _ w)
          split
          · exact hquiet (ensures_endSlice_trace _ _ w)
          split
          · exact hquiet (ensures_sync_trace _ _ w)
          next view price hprice =>
            -- The slice is left to the active strategy.
            refine Ensures.bind (Ensures.mono (Q := fun _ u =>
              passiveChildren u.childTrace = passiveChildren w.childTrace) ?_ fun s₁ u hu => ?_)
            · simp only [submitSlice]
              refine Ensures.bind (Ensures.mono (Q := fun _ u =>
                passiveChildren u.childTrace = passiveChildren w.childTrace) ?_ fun s₁ u hu => ?_)
              · split
                · exact Ensures.pure rfl
                · exact Ensures.bind
                    ((ensures_tryActive_passive hprice).mono fun _ u hu => Ensures.pure hu)
              · rw [if_neg]
                · exact Ensures.pure hu
                · rintro ⟨-, hdue⟩
                  rw [ge_iff_le, Word.le_iff] at hdue
                  rw [Word.lt_iff] at hearly
                  omega
            · exact (ensures_endSlice_trace s₁ env.nowNs u).mono fun _ u' hu' => by rw [hu', hu]

end Session

/-! ## The plan -/

/-- The slices of the plan `t₀` are used up to `t`, with one child for each: `n` children were
sent. -/
structure TwapState.OnPace (t₀ : TwapState) (n : Nat) (t : TwapState) : Prop where
  volumes : t.sliceVolumes = t₀.sliceVolumes
  start : t.startTimeNs = t₀.startTimeNs
  interval : t.intervalNs = t₀.intervalNs
  deadline : t.nextDeadlineNs = t₀.startTimeNs + UInt64.ofNat t.sliceIndex * t₀.intervalNs
  index_le : t.sliceIndex ≤ t₀.sliceVolumes.length
  consumed_lt : t.sliceConsumed = true → t.sliceIndex < t₀.sliceVolumes.length
  count : n = t.sliceIndex + t.sliceConsumed.toNat

namespace Session

/-- The session is a TWAP session that has sent `n` children of its plan. -/
def OnPlan (t₀ : TwapState) (n : Nat) (s : Session) : Prop := ∃ t, s.plan = .twap t ∧ t₀.OnPace n t

variable {cfg : Config} {env : Env} {nowNs : TimestampNs} {routes : Prop}
  {w v : World} {s s' t : Session}
variable {t₀ : TwapState} {n : Nat}

namespace OnPlan

theorem of_eq (h : s.OnPlan t₀ n) (hplan : t.plan = s.plan) : t.OnPlan t₀ n := by
  obtain ⟨state, hstate, hpace⟩ := h
  exact ⟨state, hplan.trans hstate, hpace⟩

/-- A slice that is advanced had its child. -/
theorem advanceSliceIfReady (h : s.OnPlan t₀ n) : s.advanceSliceIfReady.OnPlan t₀ n := by
  obtain ⟨state, hstate, hpace⟩ := h
  simp only [Session.advanceSliceIfReady, hstate]
  split
  · exact ⟨state, hstate, hpace⟩
  next hready =>
    have hconsumed : state.sliceConsumed = true := by
      simpa using fun hopen => hready (Or.inl hopen)
    have hlt := hpace.consumed_lt hconsumed
    have hcount := hpace.count
    rw [hconsumed, Bool.toNat_true] at hcount
    refine ⟨_, rfl, ?_⟩
    rw [hpace.volumes, hpace.start, hpace.interval, if_pos hlt]
    refine ⟨rfl, rfl, rfl, rfl, hlt, fun hfalse => Bool.noConfusion hfalse, ?_⟩
    rw [hcount, Bool.toNat_false]

theorem ready (h : s.OnPlan t₀ n) (b : OrderBook) : (s.ready b).OnPlan t₀ n :=
  (h.of_eq (s.plan_refreshed b)).advanceSliceIfReady

theorem ended (h : s.OnPlan t₀ n) : s.ended.OnPlan t₀ n := by
  simp only [Session.ended]
  split
  · exact h.advanceSliceIfReady.of_eq rfl
  · exact h.advanceSliceIfReady

/-- The child of an open slice is counted. -/
theorem consumeSlice {state : TwapState} (hstate : s.plan = .twap state) (hpace : t₀.OnPace n state)
    (hopen : state.sliceConsumed = false) (hlt : state.sliceIndex < t₀.sliceVolumes.length) :
    s.consumeSlice.OnPlan t₀ (n + 1) := by
  have hcount := hpace.count
  rw [hopen, Bool.toNat_false] at hcount
  simp only [Session.consumeSlice, hstate]
  refine ⟨_, rfl, hpace.volumes, hpace.start, hpace.interval, hpace.deadline,
    hpace.index_le, fun _ => hlt, ?_⟩
  rw [hcount, Bool.toNat_true]

theorem onTradeResponse (h : s.OnPlan t₀ n) (r : TradeResponse) :
    (s.onTradeResponse r).1.OnPlan t₀ n := by
  simp only [Session.onTradeResponse]
  split
  · exact h
  split
  · exact h
  split
  · refine OnPlan.advanceSliceIfReady ?_
    simp only [finalizeFinishedChild]
    split
    · exact h.of_eq rfl
    · exact h.of_eq rfl
  split
  · exact OnPlan.advanceSliceIfReady (h.of_eq rfl)
  · exact h.of_eq rfl

end OnPlan

/-- A turn sends nothing, or the child of the open slice of its plan. -/
inductive Paces (t₀ : TwapState) (n : Nat) (w : World) (s s' : Session) (v : World) : Prop
  | silent (hsent : sentChildren v.childTrace = sentChildren w.childTrace) (hplan : s'.OnPlan t₀ n)
  | sends {volume : Volume} {active : Bool} {state : TwapState}
      (hsent : sentChildren v.childTrace = sentChildren w.childTrace ++ [(volume, active)])
      (hplan : s'.OnPlan t₀ (n + 1)) (hstate : (s.ready w.book).plan = .twap state)
      (hpace : t₀.OnPace n state) (hindex : state.sliceIndex = n) (hlt : n < t₀.sliceVolumes.length)
      (hvolume : volume ≤ (s.ready w.book).currentBudgetVolume)

theorem Turn.paces (hturn : s.Turn cfg env routes w s' v) (h : s.OnPlan t₀ n) :
    Paces t₀ n w s s' v := by
  have hready := h.ready w.book
  cases hturn with
  | gone _ => exact .silent rfl (h.of_eq rfl)
  | fails _ _ => exact .silent rfl (h.of_eq (s.plan_refreshed w.book))
  | waits _ _ => exact .silent rfl hready
  | ends _ _ _ _ => exact .silent rfl (hready.of_eq rfl)
  | skips _ _ _ _ => exact .silent rfl hready
  | clip _ hplan _ _ _ _ _ =>
      obtain ⟨state, hstate, -⟩ := h
      exact absurd (hplan.symm.trans hstate) SessionPlan.noConfusion
  | @slice price sent t v' _ _ _ hlive hopen _ _ htries =>
      obtain ⟨state, hstate, hpace⟩ := hready
      have hplan : t.plan = .twap state := (show t.plan = _ from htries.plan).trans hstate
      have hfree : state.sliceConsumed = false := by
        simpa [sliceConsumed, twapState?, hstate] using hopen
      have hlt : state.sliceIndex < t₀.sliceVolumes.length := by
        simpa [slicesExhausted, twapState?, hstate, TwapState.exhausted, hpace.volumes] using hlive
      have hindex : state.sliceIndex = n := by
        rw [hpace.count, hfree, Bool.toNat_false, Nat.add_zero]
      -- The mirror writes no record.
      have hrecords : (if (t.consumedIf sent).ended.terminal then v'
          else (t.consumedIf sent).ended.mirroredIn env.nowNs v').childTrace = v'.childTrace := by
        split <;> rfl
      obtain ⟨hnot, hone⟩ := htries.sentChildren
      cases sent with
      | false => exact .silent (by rw [hrecords]; exact hnot rfl) (OnPlan.ended ⟨state, hplan,
          hpace⟩)
      | true =>
          obtain ⟨volume, active, -, hle, happend⟩ := hone rfl
          have hconsumed : (t.consumedIf true).OnPlan t₀ (n + 1) :=
            OnPlan.consumeSlice hplan hpace hfree hlt
          exact .sends (by rw [hrecords]; exact happend) hconsumed.ended hstate hpace hindex
            (hindex ▸ hlt) hle
  | passes _ _ _ _ _ =>
      refine .silent ?_ hready.ended
      split <;> rfl

end Session

/-! ## Runs -/

/-- A child that was sent: the slice that the tick worked on, its volume, whether the active
strategy decided about it, and the time of the tick. -/
structure SliceChild where
  slice : Nat
  volume : Volume
  active : Bool
  submittedAt : TimestampNs

/-- A session with its records and the children of its slices. -/
structure PacedRun where
  session : Session
  records : List ChildTrace := []
  children : List SliceChild := []

namespace PacedRun

/-- The children that a step has sent. -/
def sentBy (state : PacedRun) (step : SessionStep) : List SliceChild :=
  match step with
  | .response _ => []
  | .tick _ _ nowNs w =>
      ((sentChildren (step.apply (state.session, state.records)).2).drop
        (sentChildren state.records).length).map fun x =>
          { slice := (state.session.ready w.book).twapState?.elim 0 (·.sliceIndex)
            volume := x.1
            active := x.2
            submittedAt := nowNs }

def step (state : PacedRun) (step : SessionStep) : PacedRun where
  session := (step.apply (state.session, state.records)).1
  records := (step.apply (state.session, state.records)).2
  children := state.children ++ state.sentBy step

/-- A child keeps to the plan: it is no larger than its slice, and a passive child is not sent
before the deadline of its slice. -/
structure Keeps (t₀ : TwapState) (c : SliceChild) : Prop where
  volume_le : ∃ volume, t₀.sliceVolumes[c.slice]? = some volume ∧ c.volume.toNat ≤ volume.toNat
  due : c.active = false →
    t₀.startTimeNs.toNat + c.slice * t₀.intervalNs.toNat ≤ c.submittedAt.toNat

/-- One child at a time, one for each slice in order, and all of them keep to the plan. -/
structure OnSchedule (t₀ : TwapState) (state : PacedRun) : Prop where
  single : state.session.SingleChild
  plan : state.session.OnPlan t₀ state.children.length
  slices : state.children.map (fun c => c.slice) = List.range state.children.length
  keeps : ∀ c ∈ state.children, Keeps t₀ c

variable {t₀ : TwapState} {state : PacedRun}

/-- The deadlines of the plan do not wrap. -/
theorem deadline_toNat {n : Nat} {t : TwapState} (hpace : t₀.OnPace n t)
    (hfits : t₀.startTimeNs.toNat + t₀.sliceVolumes.length * t₀.intervalNs.toNat < 2 ^ 64) :
    t.nextDeadlineNs.toNat = t₀.startTimeNs.toNat + t.sliceIndex * t₀.intervalNs.toNat := by
  have hle : t.sliceIndex * t₀.intervalNs.toNat ≤ t₀.sliceVolumes.length * t₀.intervalNs.toNat :=
    Nat.mul_le_mul_right _ hpace.index_le
  have hproduct : (UInt64.ofNat t.sliceIndex * t₀.intervalNs).toNat = t.sliceIndex *
      t₀.intervalNs.toNat := by
    rw [UInt64.toNat_mul, UInt64.toNat_ofNat', Nat.mod_mul_mod, Nat.mod_eq_of_lt (by omega)]
  rw [hpace.deadline, Word.toNat_add_of_lt (by rw [hproduct]; omega), hproduct]

/-- A tick keeps the schedule. -/
theorem OnSchedule.tick (h : OnSchedule t₀ state)
    (hfits : t₀.startTimeNs.toNat + t₀.sliceVolumes.length * t₀.intervalNs.toNat < 2 ^ 64)
    (cfg : Config) (env : Env) (nowNs : TimestampNs) (w : World) :
    OnSchedule t₀ (state.step (.tick cfg env nowNs w)) := by
  obtain ⟨v, hturn, htrace⟩ :=
    Session.exists_turn_tick cfg env nowNs state.session { w with childTrace := state.records }
  have hsingle := hturn.singleChild h.single
  have hrecords : (SessionStep.apply (state.session, state.records) (.tick cfg env nowNs w)).2 =
      v.childTrace :=
    htrace
  cases hturn.paces h.plan with
  | silent hsent hplan =>
      have hnone : state.sentBy (.tick cfg env nowNs w) = [] := by
        simp only [sentBy, hrecords, hsent, List.drop_length, List.map_nil]
      have hchildren : (state.step (.tick cfg env nowNs w)).children = state.children := by
        rw [step, hnone, List.append_nil]
      exact ⟨hsingle, hchildren ▸ hplan, hchildren ▸ h.slices, hchildren ▸ h.keeps⟩
  | @sends volume active t hsent hplan hstate hpace hindex hlt hvolume =>
      have hready : (state.session.ready w.book).plan = .twap t := hstate
      have hone : state.sentBy (.tick cfg env nowNs w) =
          [{ slice := t.sliceIndex, volume :=
            volume, active := active, submittedAt := nowNs }] := by
        simp only [sentBy, hrecords, hsent, List.drop_left, List.map_cons,
          List.map_nil, Session.twapState?, hready, Option.elim_some]
      have hchildren : (state.step (.tick cfg env nowNs w)).children = state.children ++
          [{ slice := t.sliceIndex, volume := volume, active := active, submittedAt :=
            nowNs }] := by
        rw [step, hone]
      refine ⟨hsingle, ?_, ?_, ?_⟩
      · rw [hchildren, List.length_append, List.length_singleton]
        exact hplan
      · rw [hchildren, List.map_append, h.slices, List.length_append,
          List.length_singleton, List.range_succ, List.map_singleton, hindex]
      · intro c hc
        rw [hchildren] at hc
        rcases List.mem_append.1 hc with hc | hc
        · exact h.keeps c hc
        · rw [List.mem_singleton.1 hc]
          refine ⟨?_, fun hpassive => ?_⟩
          · -- The budget of the tick is at most the slice.
            have hslice : t.sliceIndex < t₀.sliceVolumes.length := hindex ▸ hlt
            refine ⟨t₀.sliceVolumes[t.sliceIndex], List.getElem?_eq_getElem hslice, ?_⟩
            have hbudget : (state.session.ready w.book).currentBudgetVolume =
                min t₀.sliceVolumes[t.sliceIndex]
                  (state.session.ready w.book).schedulableVolume := by
              simp only [Session.currentBudgetVolume, hready, hpace.volumes,
                List.getElem?_eq_getElem hslice]
            have hle : volume ≤ (state.session.ready w.book).currentBudgetVolume := hvolume
            rw [hbudget, Word.le_iff, Word.toNat_min] at hle
            exact hle.trans (Nat.min_le_left _ _)
          · -- Before its deadline no passive child is sent.
            rw [← deadline_toNat hpace hfits]
            by_contra hearly
            rw [Nat.not_le] at hearly
            have hquiet :=
              Session.ensures_tick_early (w := { w with childTrace := state.records }) cfg env
              hready ((Word.lt_iff _ _).2 hearly)
            have hsame :
                Session.passiveChildren v.childTrace = Session.passiveChildren state.records := by
              rw [← htrace]
              exact hquiet
            rw [Session.passiveChildren, hsent, List.filter_append,
              Session.passiveChildren] at hsame
            have hactive : active = false := hpassive
            simp [hactive] at hsame

theorem OnSchedule.response {r : TradeResponse} (h : OnSchedule t₀ state)
    (hfits : state.session.Fits r) : OnSchedule t₀ (state.step (.response r)) := by
  have hchildren : (state.step (.response r)).children = state.children := List.append_nil _
  refine ⟨h.single.onTradeResponse hfits, ?_, hchildren ▸ h.slices, hchildren ▸ h.keeps⟩
  rw [hchildren]
  exact h.plan.onTradeResponse r

/-- The steps of the run are steps of the session. -/
theorem stepsMeet_fits {steps : List SessionStep} {state : PacedRun}
    (h : StepsMeet SessionStep.apply SessionStep.Fits (state.session, state.records) steps) :
    StepsMeet step (fun state step => SessionStep.Fits (state.session, state.records) step)
      state steps := by
  induction steps generalizing state with
  | nil => trivial
  | cons i rest ih => exact ⟨h.1, ih h.2⟩

/-- A plan starts with its first slice, which is due at once. -/
theorem onPace_create {c : SplitConfig} {parentIndex : OrderIndex} {parentRequest : OrderRequest}
    {strategyId : StrategyId} {startTimeNs : TimestampNs} {s₀ : Session} {t₀ : TwapState}
    (hcreate : Session.create c parentIndex parentRequest strategyId startTimeNs = some s₀)
    (hplan : s₀.plan = .twap t₀) : t₀.OnPace 0 t₀ := by
  have hstart : t₀.sliceIndex = 0 ∧ t₀.sliceConsumed = false ∧
      t₀.nextDeadlineNs = t₀.startTimeNs := by
    -- Only a plan with slices is a TWAP plan, and it starts before its first slice.
    simp only [Session.create] at hcreate
    split at hcreate
    · split at hcreate
      · exact absurd hcreate (by simp)
      · rw [← Option.some.inj hcreate] at hplan
        exact SessionPlan.noConfusion hplan
    · split at hcreate
      · exact absurd hcreate (by simp)
      · rw [← Option.some.inj hcreate] at hplan
        exact SessionPlan.noConfusion hplan
    · split at hcreate
      · exact absurd hcreate (by simp)
      · obtain ⟨slices, -, hs⟩ := Option.map_eq_some_iff.1 hcreate
        rw [← hs, SessionPlan.twap.injEq] at hplan
        rw [← hplan]
        exact ⟨rfl, rfl, rfl⟩
    · exact absurd hcreate (by simp)
    · exact absurd hcreate (by simp)
  obtain ⟨hindex, hopen, hdeadline⟩ := hstart
  refine ⟨rfl, rfl, rfl, ?_, ?_, ?_, ?_⟩
  · rw [hdeadline, hindex]
    simp
  · rw [hindex]
    exact Nat.zero_le _
  · rw [hopen]
    exact fun hfalse => Bool.noConfusion hfalse
  · rw [hindex, hopen]
    rfl

/-- Every run of a TWAP session keeps its pace: the children that are sent belong to the slices `0,
1, 2, …` of the plan in this order, none is larger than its slice, no passive child is sent before
the deadline of its slice, at most one child works at any time, and there are no more children than
slices. -/
theorem twap_keeps_pace (c : SplitConfig) (parentIndex : OrderIndex) (parentRequest : OrderRequest)
    (strategyId : StrategyId) (startTimeNs : TimestampNs) (s₀ : Session) (t₀ : TwapState)
    (hcreate : Session.create c parentIndex parentRequest strategyId startTimeNs = some s₀)
    (hplan : s₀.plan = .twap t₀)
    (hfits : t₀.startTimeNs.toNat + t₀.sliceVolumes.length * t₀.intervalNs.toNat < 2 ^ 64)
    (steps : List SessionStep) (hvolume : ∀ id, SessionStep.reportedVolume steps id < 2 ^ 64) :
    ∀ state ∈ trace step { session := s₀ } steps,
      state.children.map (fun c => c.slice) = List.range state.children.length ∧
      state.children.length ≤ t₀.sliceVolumes.length ∧
      (∀ c ∈ state.children, Keeps t₀ c) ∧
      ∀ id k l m, state.session.childLedgers.lookup id = some l →
        state.session.childLedgers.lookup k = some m →
        l.unresolvedVolume ≠ 0 → m.unresolvedVolume ≠ 0 → id = k := by
  have hfresh := Session.fresh_create hcreate
  have hempty : ∀ id, s₀.childLedgers.lookup id = none := by
    intro id
    rw [hfresh.ledgers]
    rfl
  have hmeet : StepsMeet SessionStep.apply SessionStep.Fits (s₀, []) steps :=
    SessionStep.stepsMeet_fits (fun id l hl => absurd ((hempty id).symm.trans hl) (by simp)) hvolume
  have hstart : OnSchedule t₀ { session := s₀ } :=
    ⟨Session.singleChild_create hcreate, ⟨t₀, hplan, onPace_create hcreate hplan⟩, rfl,
      fun c hc => absurd hc List.not_mem_nil⟩
  have hfitting : StepsMeet step (fun state i => SessionStep.Fits (state.session, state.records) i)
      { session := s₀ } steps := stepsMeet_fits hmeet
  have hrun := trace_invariant (OnSchedule t₀) (fun state i h hfitted => ?_) hstart hfitting
  · intro state hstate
    obtain ⟨hsingle, ⟨t, -, hpace⟩, hslices, hkeeps⟩ := hrun state hstate
    refine ⟨hslices, ?_, hkeeps, hsingle.single⟩
    -- An open slice within the plan, or a used one, is as many children as were sent.
    have hcount := hpace.count
    cases hconsumed : t.sliceConsumed with
    | false =>
        rw [hconsumed, Bool.toNat_false] at hcount
        exact hcount ▸ hpace.index_le
    | true =>
        rw [hconsumed, Bool.toNat_true] at hcount
        exact hcount ▸ hpace.consumed_lt hconsumed
  · cases i with
    | tick cfg env nowNs w => exact h.tick hfits cfg env nowNs w
    | response r => exact h.response hfitted

/-- A service that spreads an order over slices of 100 shares, one every millisecond. -/
def twapConfig : Config :=
  { hasExecutionEngine := true
    splitConfig := { strategy := .twap, maxChildVolume := 100, intervalMs := 1 }
    hasMarketDataService := true
    allowOrderPriceFallback := true }

def twapParent : OrderRequest :=
  { OrderRequest.ofClient 7 .buy 200 10 with passiveExecutionAlgo := .twap }

/-- The first slice is sent and filled, the second one is due a millisecond later. -/
def twoSlices : List SessionStep :=
  let w : World :=
    { World.start {} {} (OrdersShm.ofClients [twapParent]) with
      book := (OrderBook.empty.addOrder { request := twapParent } 0).book }
  [.tick twapConfig {} 5 w,
    .response
      { internalOrderId := 1, tradeSide := .buy, newState := .finished, volumeTraded := 100
        dpriceTraded := 10, dvalueTraded := 1000 },
    .tick twapConfig {} 1000004 w, .tick twapConfig {} 1000005 w]

/-- An order of 200 shares has at most two children. -/
theorem twap_keeps_pace_two_slices :
    ∃ s₀, Session.create twapConfig.splitConfig 0 twapParent 1 5 = some s₀ ∧
      ∀ state ∈ trace step { session := s₀ } twoSlices, state.children.length ≤ 2 := by
  cases hcreate : Session.create twapConfig.splitConfig 0 twapParent 1 5 with
  | none => exact absurd hcreate (by decide)
  | some s₀ =>
      obtain ⟨t₀, hplan, hstart, hinterval, hslices⟩ : ∃ t₀ : TwapState, s₀.plan = .twap t₀ ∧
          t₀.startTimeNs = 5 ∧ t₀.intervalNs = 1000000 ∧ t₀.sliceVolumes = [100, 100] := by
        rw [← Option.get_of_mem (by decide) hcreate]
        exact ⟨_, rfl, by decide, by decide, by decide⟩
      refine ⟨s₀, rfl, fun state hstate => ?_⟩
      have hpace := twap_keeps_pace twapConfig.splitConfig 0 twapParent 1 5 s₀ t₀ hcreate hplan
        (by rw [hstart, hinterval, hslices]; decide) twoSlices (fun id => ?_) state hstate
      · rw [hslices] at hpace
        exact hpace.2.1
      · simp only [SessionStep.reportedVolume, twoSlices, List.map_cons, List.map_nil,
          List.sum_cons, List.sum_nil, SessionStep.reported]
        split <;> decide

end PacedRun

end AccountServices
