import Mathlib.Data.List.Chain
import AccountServices.Execution.EngineRuns
import AccountServices.Core.EventLoop

/-!
# Sessions that have stopped

A session stops when it fails or comes to its end. A session that has stopped should submit nothing
more, and none of its children should work when the engine erases it. Both hold in every run that
keeps away from five situations: a parent that leaves the book while a child works, a router that
refuses an active child, a cancel that is registered for the parent before its session starts, a
failure of one child while another one works, and a fill that wraps the volume of a child that is
already traded.
-/

set_option autoImplicit false

namespace AccountServices

open Foundation

/-! ## Idle sessions -/

namespace Session

variable {s t : Session}

/-- No child works. -/
def Idle (s : Session) : Prop :=
  ∀ id l, s.childLedgers.lookup id = some l → l.unresolvedVolume = 0

theorem hasWorkingChildren_eq_false_iff (s : Session) : s.hasWorkingChildren = false ↔ s.Idle := by
  have hsum := s.sumLedgers_eq_min (·.unresolvedVolume)
  have hworking : s.hasWorkingChildren = false ↔
      Map.total s.childLedgers (fun l => l.unresolvedVolume.toNat) = 0 := by
    rw [hasWorkingChildren, workingVolume]
    rw [decide_eq_false_iff_not, gt_iff_lt, Word.lt_iff, UInt64.toNat_zero, hsum]
    omega
  rw [hworking]
  constructor
  · intro htotal id l hl
    have hle := Map.le_total (f := fun l => ChildExecutionLedger.unresolvedVolume l |>.toNat) hl
    rw [Word.eq_iff, UInt64.toNat_zero]
    omega
  · intro hidle
    rw [Map.total_congr (g := fun _ => 0) fun id l hl => by rw [hidle id l hl, UInt64.toNat_zero]]
    simp [Map.total]

theorem Idle.of_ledgers (h : s.Idle) (hledgers : t.childLedgers = s.childLedgers) : t.Idle :=
  fun id l hl => h id l (hledgers ▸ hl)

/-- A session is idle with a new ledger if this one is, and all others are. -/
theorem idle_setLedger {id : InternalOrderId} {l : ChildExecutionLedger}
    (hl : l.unresolvedVolume = 0)
    (hothers : ∀ k m, k ≠ id → s.childLedgers.lookup k = some m → m.unresolvedVolume = 0) :
    (s.setLedger id l).Idle := by
  intro k m hm
  rw [setLedger, Map.lookup_insert_eq] at hm
  split at hm
  · rw [← Option.some.inj hm]
    exact hl
  next hne => exact hothers k m hne hm

/-! ## Cancels leave marks only -/

/-- A ledger without the mark of a cancel. -/
def unmarked (l : ChildExecutionLedger) : ChildExecutionLedger :=
  { l with cancelRequested := false }

/-- The sessions differ in the marks of cancels only. -/
structure Alike (s t : Session) : Prop where
  failed : t.failed = s.failed
  terminal : t.terminal = s.terminal
  parentRequest : t.parentRequest = s.parentRequest
  plan : t.plan = s.plan
  ledgers : ∀ id, (t.childLedgers.lookup id).map unmarked = (s.childLedgers.lookup id).map unmarked

namespace Alike

theorem refl (s : Session) : s.Alike s := ⟨rfl, rfl, rfl, rfl, fun _ => rfl⟩

theorem trans {u : Session} (h : s.Alike t) (h' : t.Alike u) : s.Alike u where
  failed := h'.failed.trans h.failed
  terminal := h'.terminal.trans h.terminal
  parentRequest := h'.parentRequest.trans h.parentRequest
  plan := h'.plan.trans h.plan
  ledgers id := (h'.ledgers id).trans (h.ledgers id)

/-- A ledger of the one session is a ledger of the other, but for its mark. -/
theorem ledger (h : s.Alike t) {id : InternalOrderId} {l : ChildExecutionLedger}
    (hl : t.childLedgers.lookup id = some l) :
    ∃ m, s.childLedgers.lookup id = some m ∧ unmarked m = unmarked l := by
  have hmap := h.ledgers id
  rw [hl, Option.map_some] at hmap
  exact Option.map_eq_some_iff.1 hmap.symm

theorem idle (h : s.Alike t) (hidle : s.Idle) : t.Idle := by
  intro id l hl
  obtain ⟨m, hm, heq⟩ := h.ledger hl
  have hsame : (unmarked l).unresolvedVolume = (unmarked m).unresolvedVolume := by rw [heq]
  exact hsame.trans (hidle id m hm)

theorem noteCancel (s : Session) (origId : InternalOrderId) : s.Alike (s.noteCancel origId) := by
  rw [Session.noteCancel]
  split
  · exact ⟨rfl, rfl, rfl, rfl, fun _ => rfl⟩
  next ledger hledger =>
    refine ⟨rfl, rfl, rfl, rfl, fun id => ?_⟩
    rw [setLedger, Map.lookup_insert_eq]
    split
    next heq =>
      rw [heq, hledger]
      rfl
    next => rfl

theorem noteCancels (b : OrderBook) (ids : List InternalOrderId) (s : Session) :
    s.Alike (s.noteCancels b ids) := by
  induction ids generalizing s with
  | nil => exact refl s
  | cons relatedId rest ih =>
      rw [Session.noteCancels]
      split
      · exact ih s
      split
      · exact ih s
      · exact (noteCancel s _).trans (ih _)

theorem refreshed (s : Session) (b : OrderBook) : s.Alike (s.refreshed b) :=
  trans (t := { s with cancelRequested := false }) ⟨rfl, rfl, rfl, rfl, fun _ => rfl⟩
    (noteCancels b _ _)

end Alike

/-- Without a live cancel the session keeps its ledgers and has no mark. -/
theorem noteCancels_of_none {b : OrderBook} {ids : List InternalOrderId}
    (h : ∀ c ∈ ids, ∀ e, b.findOrder c = some e → e.request.orderType ≠ .cancel) (s : Session) :
    s.noteCancels b ids = s := by
  induction ids with
  | nil => rfl
  | cons relatedId rest ih =>
      have hrest := ih fun c hc => h c (List.mem_cons_of_mem relatedId hc)
      rw [noteCancels]
      cases hfind : b.findOrder relatedId with
      | none => exact hrest
      | some entry =>
          simp only
          rw [if_pos (h relatedId List.mem_cons_self entry hfind)]
          exact hrest

/-! ## The invariant -/

/-- A session that has stopped is idle, and so is one whose slice is open. -/
structure Settled (s : Session) : Prop where
  clean : ∀ id l, s.childLedgers.lookup id = some l → l.finalized = false →
    l.finalCancelledVolume = 0
  stopped : s.failed = true ∨ s.terminal = true → s.Idle
  openSlice : s.twapState?.isSome = true → s.sliceConsumed = false → s.Idle

/-- The session is settled, and has stopped only because it failed or has nothing to do. -/
structure Fit (s : Session) : Prop extends s.Settled where
  terminal_cause : s.terminal = true → s.failed = true ∨ s.targetVolume = 0

theorem twapState?_congr (h : t.plan = s.plan) : t.twapState? = s.twapState? := by
  simp only [twapState?]
  rw [h]

/-- Marks do not touch what an open child has cancelled. -/
theorem Alike.clean (halike : s.Alike t)
    (hclean : ∀ id l, s.childLedgers.lookup id = some l → l.finalized = false →
      l.finalCancelledVolume = 0) :
    ∀ id l, t.childLedgers.lookup id = some l → l.finalized = false →
      l.finalCancelledVolume = 0 := by
  intro id l hl hopen
  obtain ⟨m, hm, heq⟩ := halike.ledger hl
  have hfinal : (unmarked l).finalized = (unmarked m).finalized := by rw [heq]
  have hcancelled :
      (unmarked l).finalCancelledVolume = (unmarked m).finalCancelledVolume := by rw [heq]
  exact hcancelled.trans (hclean id m hm (hfinal.symm.trans hopen))

namespace Settled

theorem alike (h : s.Settled) (halike : s.Alike t) : t.Settled where
  clean := halike.clean h.clean
  stopped := by
    rw [halike.failed, halike.terminal]
    exact fun hstop => halike.idle (h.stopped hstop)
  openSlice := by
    rw [twapState?_congr halike.plan, sliceConsumed_congr halike.plan]
    exact fun htwap hopen => halike.idle (h.openSlice htwap hopen)

/-- Only the ledgers, the flags and the plan matter. -/
theorem of_eq (h : s.Settled) (hledgers : t.childLedgers = s.childLedgers)
    (hfailed : t.failed = s.failed)
    (hterminal : t.terminal = s.terminal) (hplan : t.plan = s.plan) : t.Settled where
  clean := hledgers ▸ h.clean
  stopped := by
    rw [hfailed, hterminal]
    exact fun hstop => (h.stopped hstop).of_ledgers hledgers
  openSlice := by
    rw [twapState?_congr hplan, sliceConsumed_congr hplan]
    exact fun htwap hopen => (h.openSlice htwap hopen).of_ledgers hledgers

/-- An idle session may stop. -/
theorem stop (h : s.Settled) (hidle : s.Idle) (hledgers : t.childLedgers = s.childLedgers) :
    t.Settled where
  clean := hledgers ▸ h.clean
  stopped _ := hidle.of_ledgers hledgers
  openSlice _ _ := hidle.of_ledgers hledgers

theorem advanceSliceIfReady (h : s.Settled) : s.advanceSliceIfReady.Settled := by
  rw [Session.advanceSliceIfReady]
  split
  · exact h
  · split
    · exact h
    next hready =>
      have hidle : s.Idle := by
        rw [← hasWorkingChildren_eq_false_iff]
        simpa using fun hworking => hready (Or.inr hworking)
      exact h.stop hidle rfl

theorem ended (h : s.Settled) : s.ended.Settled := by
  rw [Session.ended]
  split
  next hend =>
    refine h.advanceSliceIfReady.stop ?_ rfl
    rw [← hasWorkingChildren_eq_false_iff]
    simpa using hend.2
  next => exact h.advanceSliceIfReady

end Settled

end Session

/-- No live cancel is registered for an order. -/
def OrderBook.Uncancelled (b : OrderBook) (parentId : InternalOrderId) : Prop :=
  ∀ c ∈ b.getChildren parentId, ∀ e, b.findOrder c = some e → e.request.orderType ≠ .cancel

/-! ## The records -/

/-- A submission that was attempted by a session that has stopped is not sent. -/
def RunsOn : ChildTrace → ChildTrace → Prop
  | .submitAttempt _ _ _ state _ _ _ _, .submitResult _ _ _ _ _ reason =>
      state = .failed ∨ state = .finished → reason ≠ "submitted"
  | _, _ => True

/-- No child was sent for a session that had stopped. -/
def SubmitsRunning (records : List ChildTrace) : Prop := records.IsChain RunsOn

namespace Session

variable {routes : Prop} {w v : World} {s s' : Session}

theorem stopped_iff (s : Session) :
    s.deriveExecutionState = .failed ∨ s.deriveExecutionState = .finished ↔
      s.failed = true ∨ s.terminal = true := by
  rw [deriveExecutionState]
  cases s.failed <;> cases s.terminal <;> cases s.cancelRequested <;> simp

theorem submitsRunning_attempt {records : List ChildTrace} (h : SubmitsRunning records)
    (volume : Volume)
    (price : DPrice) (active : Bool) :
    SubmitsRunning (records ++ [s.attemptTrace volume price active]) := by
  refine List.isChain_append.2 ⟨h, List.isChain_singleton _, fun x _ y hy => ?_⟩
  obtain rfl : y = s.attemptTrace volume price active := by simpa using hy.symm
  cases x <;> trivial

theorem submitsRunning_result {records : List ChildTrace} {volume : Volume} {price : DPrice}
    {active : Bool} (h : SubmitsRunning (records ++ [s.attemptTrace volume price active]))
    (child : OrderEntry) (success : Bool) (flag : DPrice) {reason : String}
    (hreason : reason = "submitted" → s.failed = false ∧ s.terminal = false) :
    SubmitsRunning (records ++ [s.attemptTrace volume price active] ++
      [s.resultTrace child success flag reason]) := by
  refine List.isChain_append.2 ⟨h, List.isChain_singleton _, fun x hx y hy => ?_⟩
  obtain rfl : y = s.resultTrace child success flag reason := by simpa using hy.symm
  obtain rfl : x = s.attemptTrace volume price active := by simpa using hx.symm
  intro hstopped hsent
  obtain ⟨hfailed, hterminal⟩ := hreason hsent
  rw [stopped_iff, hfailed, hterminal] at hstopped
  simp at hstopped

/-- A submission is on record as one of a running session, unless it was refused. -/
theorem Submits.submitsRunning {now : TimestampNs} {volume : Volume} {price : DPrice}
    {active : Bool} {out : Bool × Session} (h : s.Submits now routes w volume price active out v)
    (hrecords : SubmitsRunning w.childTrace)
    (hrunning : out.1 = true → s.failed = false ∧ s.terminal = false) :
    SubmitsRunning v.childTrace := by
  have hattempt := submitsRunning_attempt (s := s) hrecords volume price active
  cases h with
  | void hvoid => exact hrecords
  | sent hvolume hplaced =>
      have htrace := hplaced.frame.2.trans (World.allocateOrderId_frame _).2
      simp only [htrace]
      exact submitsRunning_result hattempt _ _ _ fun _ => hrunning rfl
  | refused hvolume hplaced =>
      have htrace := hplaced.frame.2.trans (World.allocateOrderId_frame _).2
      simp only [mirroredIn, htrace]
      exact submitsRunning_result hattempt _ _ _ fun hsent => absurd hsent (by decide)

/-! ## Turns -/

variable {cfg : Config} {env : Env}

/-- A submission of an idle, running session settles: it has a child that works, or it stops. -/
theorem Settled.submits {now : TimestampNs} {volume : Volume} {price : DPrice} {active : Bool}
    {out : Bool × Session} (h : s.Settled) (hidle : s.Idle)
    (hsubmits : s.Submits now routes w volume price active out v) :
    (out.1 = false → out.2.Settled) ∧
      (out.1 = true → out.2.failed = s.failed ∧ out.2.terminal = s.terminal ∧
      ∀ id l, out.2.childLedgers.lookup id = some l → l.finalized = false →
        l.finalCancelledVolume = 0) := by
  cases hsubmits with
  | void hvoid => exact ⟨fun _ => h, fun hfalse => Bool.noConfusion hfalse⟩
  | sent hvolume hplaced =>
      refine ⟨fun hfalse => Bool.noConfusion hfalse, fun _ => ?_⟩
      rw [addChild]
      split
      · exact ⟨rfl, rfl, h.clean⟩
      · refine ⟨rfl, rfl, fun id l hl => ?_⟩
        rw [setLedger, Map.lookup_insert_eq] at hl
        split at hl
        · rw [← Option.some.inj hl]
          exact fun _ => rfl
        · exact h.clean id l hl
  | refused hvolume hplaced =>
      exact ⟨fun _ => h.stop hidle rfl, fun hfalse => Bool.noConfusion hfalse⟩

theorem Idle.seen (h : s.Idle) (seqNo : UInt64) : (s.seen seqNo).Idle := h

theorem Settled.seen (h : s.Settled) (seqNo : UInt64) : (s.seen seqNo).Settled :=
  h.of_eq rfl rfl rfl rfl

/-- The submissions of a turn, when the router does not refuse an active child. -/
theorem Tries.cases_running {price : DPrice} {out : Bool × Session}
    (h : s.Tries cfg env routes w price out v) (hroutes : s.DecidesActive cfg env → routes) :
    (∃ seqNo, out = (false, s.seen seqNo) ∧ v = w) ∨
      ∃ seqNo volume active routes', (s.seen seqNo).Submits env.nowNs routes' w volume
        price active out v := by
  cases h with
  | silent seqNo => exact Or.inl ⟨seqNo, rfl, rfl⟩
  | active hdecides hle hsubmits => exact Or.inr ⟨_, _, _, _, hsubmits⟩
  | passive hsubmits => exact Or.inr ⟨_, _, _, _, hsubmits⟩
  | both hrefused hdecides hle hfirst hsecond => exact absurd (hroutes hdecides) hrefused

/-- The submissions of an idle, running session. -/
theorem Settled.tries {price : DPrice} {out : Bool × Session} (h : s.Settled) (hidle : s.Idle)
    (hrunning : s.failed = false ∧ s.terminal = false)
    (htries : s.Tries cfg env routes w price out v)
    (hroutes : s.DecidesActive cfg env → routes) (hrecords : SubmitsRunning w.childTrace) :
    SubmitsRunning v.childTrace ∧ (out.1 = false → out.2.Settled) ∧
      (out.1 = true → out.2.failed = false ∧ out.2.terminal = false ∧
        ∀ id l, out.2.childLedgers.lookup id = some l → l.finalized = false →
          l.finalCancelledVolume = 0) := by
  rcases htries.cases_running hroutes with
    ⟨seqNo, rfl, rfl⟩ | ⟨seqNo, volume, active, routes', hsubmits⟩
  · exact ⟨hrecords, fun _ => h.seen seqNo, fun hfalse => Bool.noConfusion hfalse⟩
  · obtain ⟨hnot, hsent⟩ := (h.seen seqNo).submits (hidle.seen seqNo) hsubmits
    refine ⟨hsubmits.submitsRunning hrecords fun _ => hrunning, hnot, fun htrue => ?_⟩
    obtain ⟨hfailed, hterminal, hclean⟩ := hsent htrue
    exact ⟨hfailed.trans hrunning.1, hterminal.trans hrunning.2, hclean⟩

/-- A session with a child that was just sent runs, and its slice is not open. -/
theorem settled_of_running (hclean : ∀ id l, s.childLedgers.lookup id = some l →
      l.finalized = false → l.finalCancelledVolume = 0)
    (hrunning : s.failed = false ∧ s.terminal = false)
    (hslice : s.twapState?.isSome = true → s.sliceConsumed = true) : s.Settled where
  clean := hclean
  stopped := by
    rw [hrunning.1, hrunning.2]
    exact fun h => absurd h (by simp)
  openSlice htwap hopen := absurd (hopen.symm.trans (hslice htwap)) Bool.false_ne_true

theorem consumeSlice_flags (s : Session) :
    s.consumeSlice.failed = s.failed ∧ s.consumeSlice.terminal = s.terminal := by
  rw [consumeSlice]
  split <;> exact ⟨rfl, rfl⟩

/-- The members of a TWAP session. -/
theorem plan_of_twapState? (h : s.twapState?.isSome = true) : ∃ state, s.plan = .twap state := by
  rw [twapState?] at h
  split at h
  · exact absurd h (by simp)
  next state heq => exact ⟨state, heq⟩

theorem Alike.ready_flags (s : Session) (b : OrderBook) :
    (s.ready b).failed = s.failed ∧ (s.ready b).terminal = s.terminal := by
  have halike := Alike.refreshed s b
  rw [ready, advanceSliceIfReady]
  split
  · exact ⟨halike.failed, halike.terminal⟩
  · split
    · exact ⟨halike.failed, halike.terminal⟩
    · exact ⟨halike.failed, halike.terminal⟩

theorem Settled.ready (h : s.Settled) (b : OrderBook) : (s.ready b).Settled :=
  (h.alike (Alike.refreshed s b)).advanceSliceIfReady

/-- Without a target nothing is scheduled. -/
theorem currentBudgetVolume_of_target (h : s.targetVolume = 0) : s.currentBudgetVolume = 0 := by
  have hremaining : s.remainingTarget = 0 := by
    rw [remainingTarget]
    rw [h, if_pos ((Word.le_iff _ _).2 (Nat.zero_le _))]
  have hschedulable : s.schedulableVolume = 0 := by
    rw [schedulableVolume]
    rw [hremaining, if_pos ((Word.le_iff _ _).2 (Nat.zero_le _))]
  have hle := s.currentBudgetVolume_le
  rw [hschedulable, UInt64.toNat_zero] at hle
  rw [Word.eq_iff, UInt64.toNat_zero]
  omega

/-- A session that has something to submit has not stopped. -/
theorem Fit.running (h : s.Fit) {b : OrderBook} (hfailed : (s.ready b).failed = false)
    (hbudget : (s.ready b).currentBudgetVolume ≠ 0) :
    (s.ready b).failed = false ∧ (s.ready b).terminal = false := by
  obtain ⟨hfailed', hterminal⟩ := Alike.ready_flags s b
  refine ⟨hfailed, ?_⟩
  cases hstop : (s.ready b).terminal with
  | false => rfl
  | true =>
      rcases h.terminal_cause (hterminal.symm.trans hstop) with hfail | htarget
      · rw [hfailed', hfail] at hfailed
        exact Bool.noConfusion hfailed
      · refine absurd (currentBudgetVolume_of_target ?_) hbudget
        rw [targetVolume, s.parentRequest_ready b]
        exact htarget

/-- What the condition of a turn asks for: the parent is in the book while a child works, and the
router has room when the active strategy decides to submit. -/
def Guarded (cfg : Config) (env : Env) (s : Session) (w : World) : Prop :=
  (s.hasWorkingChildren = true → (w.book.findOrder s.parentRequest.internalOrderId).isSome = true) ∧
    ((s.ready w.book).DecidesActive cfg env → w.Routes)

/-- A turn of a fit session settles and submits nothing after a stop. -/
theorem Turn.settled (hturn : s.Turn cfg env routes w s' v) (h : s.Fit)
    (hparent : s.hasWorkingChildren = true →
      (w.book.findOrder s.parentRequest.internalOrderId).isSome = true)
    (hroutes : (s.ready w.book).DecidesActive cfg env → routes)
    (hrecords : SubmitsRunning w.childTrace) :
    s'.Settled ∧ SubmitsRunning v.childTrace := by
  have hready := h.toSettled.ready w.book
  cases hturn with
  -- Without its parent in the book a session has no working children, so it may stop.
  | gone hnone =>
      refine ⟨h.toSettled.stop ?_ rfl, hrecords⟩
      rw [← hasWorkingChildren_eq_false_iff]
      refine Bool.eq_false_of_not_eq_true fun hworking => ?_
      have hfound := hparent hworking
      rw [hnone] at hfound
      exact Bool.noConfusion hfound
  -- A failed session has stopped working before.
  | fails hfound hfailed =>
      have halike := Alike.refreshed s w.book
      have hidle := halike.idle (h.stopped (Or.inl (halike.failed.symm.trans hfailed)))
      exact ⟨(h.toSettled.alike halike).stop hidle rfl, hrecords⟩
  | waits hfound hfailed => exact ⟨hready, hrecords⟩
  -- It ends when no child works.
  | ends hfound hfailed hidle hwhy =>
      exact ⟨hready.stop ((hasWorkingChildren_eq_false_iff _).1 hidle) rfl, hrecords⟩
  | skips hfound hfailed hbusy hterminal => exact ⟨hready, hrecords⟩
  -- A clip is tried while no child works: it is sent and works, or the session stops.
  | @clip clipVolume price sent _ v hfound hplan hfailed hidle hcancel hbudget htries =>
      obtain ⟨hrecords', hnot, hsent⟩ := hready.tries ((hasWorkingChildren_eq_false_iff _).1 hidle)
        (h.running hfailed hbudget) htries hroutes hrecords
      refine ⟨?_, hrecords'⟩
      cases sent with
      | false => exact hnot rfl
      | true =>
          obtain ⟨hfailed', hterminal, hclean⟩ := hsent rfl
          have hsequential : s'.plan = .sequentialClip clipVolume := by
            rw [show s'.plan = _ from htries.plan, ready_sequential hplan, s.plan_refreshed, hplan]
          refine settled_of_running hclean ⟨hfailed', hterminal⟩ fun htwap => ?_
          obtain ⟨state, htwap⟩ := plan_of_twapState? htwap
          exact absurd (hsequential.symm.trans htwap) (by simp)
  -- A slice is tried while it is open, which it is only without working children.
  | @slice price sent t v hfound hplan hfailed hlive hopen hcancel hbudget htries =>
      obtain ⟨hrecords', hnot, hsent⟩ := hready.tries (hready.openSlice hplan hopen)
        (h.running hfailed hbudget) htries hroutes hrecords
      refine ⟨Settled.ended ?_, ?_⟩
      · cases sent with
        | false => exact hnot rfl
        | true =>
            obtain ⟨hfailed', hterminal, hclean⟩ := hsent rfl
            obtain ⟨state, htwap⟩ := plan_of_twapState? hplan
            obtain ⟨hkeepFailed, hkeepTerminal⟩ := t.consumeSlice_flags
            have hledgers : (t.consumedIf true).childLedgers = t.childLedgers :=
              t.consumeSlice_childLedgers
            refine settled_of_running (hledgers ▸ hclean)
              ⟨hkeepFailed.trans hfailed', hkeepTerminal.trans hterminal⟩ fun _ => ?_
            exact sliceConsumed_consumeSlice ((show t.plan = _ from htries.plan).trans htwap)
      · split
        · exact hrecords'
        · exact hrecords'
  -- Nothing is tried, and the end of the tick stops the session only when no child works.
  | passes hfound hplan hfailed hlive hcancel =>
      refine ⟨hready.ended, ?_⟩
      split
      · exact hrecords
      · exact hrecords

/-! ## The first turn -/

theorem advanceSliceIfReady_of_open (h : s.sliceConsumed = false) : s.advanceSliceIfReady = s := by
  rw [advanceSliceIfReady]
  split
  · rfl
  next t hplan =>
    have hopen : ¬ t.sliceConsumed = true := by
      simpa [sliceConsumed, twapState?, hplan] using h
    rw [if_pos (Or.inl hopen)]

theorem advanceSliceIfReady_of_working (h : s.hasWorkingChildren = true) :
    s.advanceSliceIfReady = s := by
  rw [advanceSliceIfReady]
  split
  · rfl
  · rw [if_pos (Or.inr h)]

theorem ended_of_live (hadvance : s.advanceSliceIfReady = s) (hlive : s.slicesExhausted = false) :
    s.ended = s := by
  rw [ended]
  rw [hadvance, hlive, if_neg fun h => Bool.false_ne_true h.1]

theorem slicesExhausted_congr (h : s'.plan = s.plan) : s'.slicesExhausted = s.slicesExhausted := by
  simp only [slicesExhausted]
  rw [twapState?_congr h]

theorem slicesExhausted_consumeSlice (s : Session) :
    s.consumeSlice.slicesExhausted = s.slicesExhausted := by
  rw [consumeSlice]
  split
  · rfl
  next t hplan =>
    simp only [slicesExhausted, twapState?, hplan]
    rfl

/-- A child under a new id works. -/
theorem working_addChild {child : OrderEntry} {volume : Volume} (price : DPrice)
    (hnone : s.childLedgers.lookup child.request.internalOrderId = none) (hvolume : volume ≠ 0) :
    (s.addChild child volume price).hasWorkingChildren = true := by
  refine Bool.eq_true_of_not_eq_false fun hidle => ?_
  rw [hasWorkingChildren_eq_false_iff] at hidle
  have hlookup : (s.addChild child volume price).childLedgers.lookup child.request.internalOrderId =
      some
        { childOrderId := child.request.internalOrderId
          shmOrderIndex := child.shmOrderIndex
          entrustVolume := volume
          entrustPrice := price
          orderState := .traderSubmitted } := by
    rw [addChild]
    rw [hnone]
    simp only [setLedger]
    rw [Map.lookup_insert_eq, if_pos rfl]
  have hzero := hidle _ _ hlookup
  have hpos : 0 < volume.toNat := by
    refine Nat.pos_of_ne_zero fun h => hvolume ?_
    rw [Word.eq_iff, h, UInt64.toNat_zero]
  simp only [ChildExecutionLedger.unresolvedVolume, Bool.false_eq_true, if_false, UInt64.add_zero,
    UInt64.sub_zero] at hzero
  split at hzero
  next hge =>
    rw [ge_iff_le, Word.le_iff, UInt64.toNat_zero] at hge
    omega
  next => exact hvolume hzero

/-- Only a refused submission stops the session. -/
theorem Submits.terminal {now : TimestampNs} {volume : Volume} {price : DPrice} {active : Bool}
    {out : Bool × Session} (h : s.Submits now routes w volume price active out v)
    (hs : s.terminal = true → s.failed = true) (hout : out.2.terminal = true) :
    out.2.failed = true := by
  cases h with
  | void hvoid => exact hs hout
  | sent hvolume hplaced =>
      rw [addChild] at hout ⊢
      split at hout <;> exact hs hout
  | refused hvolume hplaced => rfl

theorem Tries.terminal {price : DPrice} {out : Bool × Session}
    (h : s.Tries cfg env routes w price out v)
    (hs : s.terminal = true → s.failed = true) (hout : out.2.terminal = true) :
    out.2.failed = true := by
  cases h with
  | silent seqNo => exact hs hout
  | active hdecides hle hsubmits => exact hsubmits.terminal hs hout
  | passive hsubmits => exact hsubmits.terminal hs hout
  | both hrefused hdecides hle hfirst hsecond => exact hsecond.terminal (fun _ => rfl) hout

/-- The first child works. -/
theorem Tries.working {price : DPrice} {t : Session}
    (h : s.Tries cfg env routes w price (true, t) v)
    (hledgers : s.childLedgers = ∅) : t.hasWorkingChildren = true := by
  have hsubmit : ∀ {now : TimestampNs} {r : Prop} {u x : World} {y : Session} {volume : Volume}
      {active : Bool}, y.Submits now r u volume price active (true, t) x → y.childLedgers = ∅ →
        t.hasWorkingChildren = true := by
    intro now r u x y volume active hsubmits hy
    cases hsubmits with
    | sent hvolume hplaced =>
        refine working_addChild price ?_ hvolume
        rw [hy]
        rfl
  cases h with
  | active hdecides hle hsubmits => exact hsubmit hsubmits hledgers
  | passive hsubmits => exact hsubmit hsubmits hledgers
  | both hrefused hdecides hle hfirst hsecond => exact hsubmit hsecond hledgers

/-- A fresh session for which no cancel is registered stops in its first turn only when it fails or
has nothing to do. -/
theorem Turn.terminal_of_fresh {request : OrderRequest} (hturn : s.Turn cfg env routes w s' v)
    (hfresh : s.Fresh request) (huncancelled : w.book.Uncancelled request.internalOrderId)
    (hterminal : s'.terminal = true) : s'.failed = true ∨ s'.targetVolume = 0 := by
  -- A fresh session has no children, open slices and no cancel, so the preparations of the tick
  -- change only its cancel mark.
  have hrefreshed : s.refreshed w.book = { s with cancelRequested := false } := by
    refine noteCancels_of_none (fun c hc => ?_) _
    rw [hfresh.parentRequest] at hc
    exact huncancelled c hc
  have hready : s.ready w.book = { s with cancelRequested := false } := by
    rw [ready]
    rw [hrefreshed]
    exact advanceSliceIfReady_of_open hfresh.sliceOpen
  have hslices : (s.ready w.book).slicesExhausted = false := by
    rw [hready]
    exact hfresh.slicesLeft
  have hruns : (s.ready w.book).terminal = true → (s.ready w.book).failed = true := by
    rw [hready]
    exact fun h => absurd (hfresh.terminal.symm.trans h) Bool.false_ne_true
  have hnever : (s.ready w.book).failed = true → False := by
    rw [hready]
    exact fun h => Bool.false_ne_true (hfresh.failed.symm.trans h)
  cases hturn with
  -- The parent is gone, and the session fails.
  | gone hnone => exact Or.inl rfl
  | fails hfound hfailed =>
      rw [hrefreshed] at hfailed
      exact absurd (hfresh.failed.symm.trans hfailed) Bool.false_ne_true
  | waits hfound hfailed => exact (hnever (hruns hterminal)).elim
  -- It ends without a child in the only way left: nothing was to be traded.
  | ends hfound hfailed hidle hwhy =>
      rcases hwhy with hcancel | hzero | hexhausted
      · rw [hready] at hcancel
        exact absurd hcancel Bool.false_ne_true
      · refine Or.inr ?_
        have hconfirmed : (s.ready w.book).confirmedTradedVolume = 0 := by
          rw [confirmedTradedVolume, sumLedgers]
          rw [hready]
          simp only [hfresh.ledgers]
          rfl
        rw [remainingTarget] at hzero
        rw [hconfirmed, UInt64.sub_zero] at hzero
        split at hzero
        next hge =>
          rw [ge_iff_le, Word.le_iff, UInt64.toNat_zero] at hge
          show (s.ready w.book).targetVolume = 0
          rw [Word.eq_iff, UInt64.toNat_zero]
          omega
        next => exact hzero
      · exact absurd (hslices.symm.trans hexhausted) Bool.false_ne_true
  | skips hfound hfailed hbusy hstop => exact (hnever (hruns hstop)).elim
  -- A session runs on when its clip was submitted, and fails when it was not.
  | clip hfound hplan hfailed hidle hcancel hbudget htries =>
      exact Or.inl (htries.terminal hruns hterminal)
  -- The same with a slice: the end of the tick does not find the plan exhausted.
  | @slice price sent t v hfound hplan hfailed hlive hopen hcancel hbudget htries =>
      refine Or.inl ?_
      have hplans : t.plan = (s.ready w.book).plan := htries.plan
      have hended : (t.consumedIf sent).ended = t.consumedIf sent := by
        cases sent with
        | false =>
            exact ended_of_live
              (advanceSliceIfReady_of_open ((sliceConsumed_congr hplans).trans hopen))
              ((slicesExhausted_congr hplans).trans hlive)
        | true =>
            -- A child that was sent keeps the session working.
            have hworking : t.hasWorkingChildren = true := by
              refine htries.working ?_
              rw [hready]
              exact hfresh.ledgers
            have hworking' : t.consumeSlice.hasWorkingChildren = true := by
              refine Bool.eq_true_of_not_eq_false fun hidle => ?_
              rw [hasWorkingChildren_eq_false_iff] at hidle
              have hidle' := (hasWorkingChildren_eq_false_iff t).2
                (hidle.of_ledgers t.consumeSlice_childLedgers.symm)
              exact Bool.false_ne_true (hidle'.symm.trans hworking)
            exact ended_of_live (advanceSliceIfReady_of_working hworking')
              ((slicesExhausted_consumeSlice t).trans ((slicesExhausted_congr hplans).trans hlive))
      rw [hended] at hterminal ⊢
      have hflags : (t.consumedIf sent).failed = t.failed ∧
          (t.consumedIf sent).terminal = t.terminal := by
        cases sent with
        | false => exact ⟨rfl, rfl⟩
        | true => exact t.consumeSlice_flags
      rw [hflags.1]
      exact htries.terminal hruns (hflags.2.symm.trans hterminal)
  | passes hfound hplan hfailed hlive hcancel =>
      have hended : (s.ready w.book).ended = s.ready w.book := by
        refine ended_of_live (advanceSliceIfReady_of_open ?_) hslices
        rw [hready]
        exact hfresh.sliceOpen
      rw [hended] at hterminal
      exact (hnever (hruns hterminal)).elim

end Session

/-! ## Responses -/

/-- A fill of a child that is already traded does not reopen it, unless the volume wraps. -/
theorem ChildExecutionLedger.unresolvedVolume_addFill {l : ChildExecutionLedger} {r : TradeResponse}
    (hopen : l.finalized = false) (hclean : l.finalCancelledVolume = 0)
    (hzero : l.unresolvedVolume = 0)
    (hfits : l.confirmedTradedVolume.toNat + r.volumeTraded.toNat < 2 ^ 64) :
    (l.addFill r).unresolvedVolume = 0 := by
  have htraded : l.entrustVolume.toNat ≤ l.confirmedTradedVolume.toNat := by
    rw [unresolvedVolume] at hzero
    rw [hopen, hclean, UInt64.add_zero] at hzero
    simp only [Bool.false_eq_true, if_false] at hzero
    split at hzero
    next hge =>
      rw [ge_iff_le, Word.le_iff] at hge
      exact hge
    next hlt =>
      rw [ge_iff_le, Word.le_iff] at hlt
      have hsub := UInt64.toNat_sub_of_le l.entrustVolume l.confirmedTradedVolume
        ((Word.le_iff _ _).2 (by omega))
      rw [hzero, UInt64.toNat_zero] at hsub
      omega
  rw [addFill]
  split
  next hpos =>
    rw [unresolvedVolume]
    simp only [hopen, hclean, UInt64.add_zero, Bool.false_eq_true, if_false]
    rw [if_pos]
    rw [ge_iff_le, Word.le_iff, Word.toNat_min, Word.toNat_add_of_lt hfits]
    omega
  next => exact hzero

namespace Session

variable {s : Session} {r : TradeResponse}

/-- What the condition of a response asks for: a fill of a child that is already traded does not
wrap its volume, and no other child works when one fails. -/
def Heeds (s : Session) (r : TradeResponse) : Prop :=
  ∀ l, s.childLedgers.lookup r.internalOrderId = some l → l.finalized = false →
    (l.unresolvedVolume = 0 → l.confirmedTradedVolume.toNat + r.volumeTraded.toNat < 2 ^ 64) ∧
    (r.newState.isFailureTerminal = true → ∀ id k, id ≠ r.internalOrderId →
      s.childLedgers.lookup id = some k → k.unresolvedVolume = 0)

theorem Fit.advanceSliceIfReady (h : s.Fit) : s.advanceSliceIfReady.Fit where
  toSettled := h.toSettled.advanceSliceIfReady
  terminal_cause := by
    rw [Session.advanceSliceIfReady]
    split
    · exact h.terminal_cause
    · split <;> exact h.terminal_cause

/-- A ledger that replaces an open one keeps the session fit, if it does not start to work again. -/
theorem Fit.setLedger (h : s.Fit) {id : InternalOrderId} {l l' : ChildExecutionLedger}
    (hl : s.childLedgers.lookup id = some l)
    (hclean : l'.finalized = false → l'.finalCancelledVolume = 0)
    (hkept : l.unresolvedVolume = 0 → l'.unresolvedVolume = 0) : (s.setLedger id l').Fit where
  clean := by
    intro k m hm
    rw [Session.setLedger, Map.lookup_insert_eq] at hm
    split at hm
    · rw [← Option.some.inj hm]
      exact hclean
    · exact h.clean k m hm
  stopped hstop :=
    idle_setLedger (hkept (h.stopped hstop id l hl)) fun k m _ hm => h.stopped hstop k m hm
  openSlice htwap hopen :=
    idle_setLedger (hkept (h.openSlice htwap hopen id l hl)) fun k m _ hm =>
      h.openSlice htwap hopen k m hm
  terminal_cause := h.terminal_cause

/-- A session that fails while no other child works stays fit. -/
theorem Fit.fail (h : s.Fit) (hidle : s.Idle) : ({ s with failed := true } : Session).Fit where
  toSettled := h.toSettled.stop hidle rfl
  terminal_cause _ := Or.inl rfl

theorem Fit.onTradeResponse (h : s.Fit) (hheeds : s.Heeds r) : (s.onTradeResponse r).1.Fit := by
  rw [Session.onTradeResponse]
  split
  -- The response names no child of the session.
  next => exact h
  next ledger hledger =>
    split
    -- Its child has ended before.
    next => exact h
    next hfinal =>
      have hopen : ledger.finalized = false := by simpa using hfinal
      obtain ⟨hfits, hothers⟩ := hheeds ledger hledger hopen
      have hclean := h.clean _ _ hledger hopen
      have hcancelled : (ledger.addFill r).finalCancelledVolume = 0 := by
        rw [← hclean]
        rw [ChildExecutionLedger.addFill]
        split <;> rfl
      split
      -- The child finished: its ledger is closed, and the session may end with it.
      next hfinished =>
        have hset : (s.setLedger r.internalOrderId
            (({ ledger.addFill r with orderState := r.newState } :
            ChildExecutionLedger).finishWith r.cancelledVolume)).Fit :=
          h.setLedger hledger (fun hfalse => Bool.noConfusion hfalse) fun _ =>
            ChildExecutionLedger.unresolvedVolume_of_final rfl
        refine Fit.advanceSliceIfReady ?_
        rw [finalizeFinishedChild]
        simp only
        split
        · exact ⟨hset.toSettled.of_eq rfl rfl rfl rfl, hset.terminal_cause⟩
        · exact hset
      next hunfinished =>
        split
        -- It failed: what is open of it is given up, and the session fails. No other child works
        -- then.
        next hfailure =>
          have hset : (s.setLedger r.internalOrderId
              (({ ledger.addFill r with orderState := r.newState } :
              ChildExecutionLedger).failOpen)).Fit :=
            h.setLedger hledger (fun hfalse => Bool.noConfusion hfalse) fun _ =>
              ChildExecutionLedger.unresolvedVolume_of_final rfl
          refine Fit.advanceSliceIfReady (hset.fail ?_)
          exact idle_setLedger (ChildExecutionLedger.unresolvedVolume_of_final rfl)
            fun k m hne hm => hothers hfailure k m hne hm
        -- It goes on, and the fill leaves something open or nothing.
        next hgoes =>
          refine h.setLedger hledger (fun _ => hcancelled) fun hzero => ?_
          exact ChildExecutionLedger.unresolvedVolume_addFill hopen hclean hzero (hfits hzero)

/-- A response writes no submission. -/
theorem submitsRunning_onTradeResponse {records : List ChildTrace} (h : SubmitsRunning records)
    (s : Session) (r : TradeResponse) : SubmitsRunning (records ++ (s.onTradeResponse r).2) := by
  have hone : ∀ (t : Session) (l : ChildExecutionLedger), SubmitsRunning
      (records ++ [t.finalizedTrace l]) := by
    intro t l
    refine List.isChain_append.2 ⟨h, List.isChain_singleton _, fun x _ y hy => ?_⟩
    obtain rfl : y = t.finalizedTrace l := by simpa using hy.symm
    cases x <;> trivial
  have hnil : SubmitsRunning (records ++ []) := by
    rw [List.append_nil]
    exact h
  rw [onTradeResponse]
  split
  · exact hnil
  split
  · exact hnil
  simp only
  split
  · exact hone _ _
  split
  · exact hone _ _
  · exact hnil

end Session

/-! ## Runs -/

theorem Session.noteCancels_congr {b b' : OrderBook} (h : ∀ k, b'.findOrder k = b.findOrder k)
    (ids : List InternalOrderId) (s : Session) : s.noteCancels b' ids = s.noteCancels b ids := by
  induction ids generalizing s with
  | nil => rfl
  | cons relatedId rest ih =>
      simp only [noteCancels]
      rw [h relatedId]
      split
      · exact ih s
      split
      · exact ih s
      · exact ih _

theorem Session.ready_markManagedParent (s : Session) (b : OrderBook) (parentId : InternalOrderId) :
    s.ready (b.markManagedParent parentId).book = s.ready b := by
  obtain ⟨-, hfind, hchildren⟩ := b.markManagedParent_facts parentId
  simp only [ready, refreshed]
  rw [hchildren, noteCancels_congr hfind]

/-- A fresh session is fit. -/
theorem Session.Fresh.fit {request : OrderRequest} {s : Session} (h : s.Fresh request) : s.Fit := by
  have hidle : s.Idle := by
    intro id l hl
    rw [h.ledgers] at hl
    exact absurd hl (by simp)
  refine ⟨⟨?_, fun _ => hidle, fun _ _ => hidle⟩, fun hterminal => ?_⟩
  · intro id l hl
    rw [h.ledgers] at hl
    exact absurd hl (by simp)
  · exact absurd (h.terminal.symm.trans hterminal) Bool.false_ne_true

namespace EngineRun

variable {cfg : Config} {state : EngineRun}

/-- The condition of a step: when a session starts, no live cancel is registered for its parent and
the router has room for an active child; every turn is guarded; every response is heeded. -/
def Careful (cfg : Config) (state : EngineRun) (call : EngineCall × Schedule) : Prop :=
  match call.1 with
  | .start env parentIndex request strategyId startTimeNs =>
      state.world.book.Uncancelled request.internalOrderId ∧
        ∀ s, Session.create cfg.splitConfig parentIndex request strategyId startTimeNs = some s →
          (s.ready state.world.book).DecidesActive cfg env → state.world.Routes
  | .tick env nowNs => TicksMeet cfg env nowNs (Session.Guarded cfg env) call.2 state.world
  | .response r => ∀ p s, state.world.book.tryGetParent r.internalOrderId = some p →
      state.world.sessions.lookup p = some s → s.Heeds r
  | .rest _ => True

/-- Every session is fit, no child was sent after a stop, and the erased sessions were idle. -/
structure Sound (state : EngineRun) : Prop where
  fit : ∀ p s, state.world.sessions.lookup p = some s → s.parentRequest.internalOrderId = p ∧ s.Fit
  records : SubmitsRunning state.world.childTrace
  erased : ∀ e ∈ state.erased, e.session.Idle

theorem turnRule_settled (cfg : Config) (env : Env) :
    Service.TurnRule cfg env (Session.Guarded cfg env)
      (fun s w => (s.ready w.book).DecidesActive cfg env)
      (fun p s _ => s.parentRequest.internalOrderId = p ∧ s.Fit)
      (fun p s _ => s.parentRequest.internalOrderId = p ∧ s.Settled) SubmitsRunning where
  room hguarded hdecides := hguarded.2 hdecides
  key h := h.1
  turn hpre hrecords hguarded hturn := by
    obtain ⟨hsettled, hrecords'⟩ := hturn.settled hpre.2 hguarded.1 id hrecords
    exact ⟨⟨by rw [hturn.frame.2]; exact hpre.1, hsettled⟩, hrecords'⟩
  others _ _ _ := ⟨id, id⟩

theorem Sound.tick (h : state.Sound) {env : Env} {nowNs : TimestampNs} {amid : Schedule}
    (hmeet : TicksMeet cfg env nowNs (Session.Guarded cfg env) amid state.world) :
    (state.step cfg (.tick env nowNs, amid)).Sound := by
  obtain ⟨hrecords, hlive, hends⟩ :=
    tickEngine_rule (turnRule_settled cfg env) h.fit h.records hmeet
  refine ⟨fun p s hs => ?_, hrecords, fun e he => ?_⟩
  · obtain ⟨hterminal, hkey, hsettled⟩ := hlive p s hs
    exact ⟨hkey, hsettled, fun hstop => absurd (hterminal.symm.trans hstop) Bool.false_ne_true⟩
  · rcases List.mem_append.1 he with hold | hnew
    · exact h.erased e hold
    · obtain ⟨-, hterminal, p, -, hsettled⟩ := hends e hnew
      exact hsettled.stopped (Or.inr hterminal)

theorem Sound.start (h : state.Sound) {env : Env} {parentIndex : OrderIndex}
    {request : OrderRequest} {strategyId : StrategyId} {startTimeNs : TimestampNs} {amid : Schedule}
    (huncancelled : state.world.book.Uncancelled request.internalOrderId)
    (hroutes : ∀ s, Session.create cfg.splitConfig parentIndex request strategyId
      startTimeNs = some s →
      (s.ready state.world.book).DecidesActive cfg env → state.world.Routes) :
    (state.step cfg (.start env parentIndex request strategyId startTimeNs, amid)).Sound := by
  have hroom :
      (∃ s, Session.create cfg.splitConfig parentIndex request strategyId startTimeNs = some s ∧
      (s.ready state.world.book).DecidesActive cfg env) → state.world.Routes := by
    rintro ⟨s, hcreate, hdecides⟩
    exact hroutes s hcreate hdecides
  have hpost := Service.triple_startSession cfg env parentIndex request strategyId
    startTimeNs hroom amid state.world ⟨World.Apart.refl _, fun hr => (hroom hr).1⟩
  rcases hpost with ⟨v, hsessions, htrace, hamid⟩ | ⟨s, s', v, hstarts, hamid⟩
  -- No session was stored, so the table is the one before the call.
  · refine ⟨fun p s hs => h.fit p s ?_, ?_, h.erased⟩
    · rw [← hsessions, ← hamid.1.sessions]
      exact hs
    · have hkept := hamid.1.childTrace.trans htrace
      exact hkept.symm ▸ h.records
  -- A fresh session made its first tick and is stored under its parent.
  · have hfresh := Session.fresh_create hstarts.created
    have hready := s.ready_markManagedParent state.world.book request.internalOrderId
    obtain ⟨-, hfind, hchildren⟩ := state.world.book.markManagedParent_facts request.internalOrderId
    obtain ⟨hframe, hparent⟩ := hstarts.turned.frame
    obtain ⟨hsettled, hrecords⟩ := hstarts.turned.settled hfresh.fit
      (fun _ => by
        rw [hfresh.parentRequest]
        exact (congrArg Option.isSome (hfind _)).trans hstarts.found)
      (fun hdecides => ⟨s, hstarts.created, hready ▸ hdecides⟩) h.records
    have hcause : s'.terminal = true → s'.failed = true ∨ s'.targetVolume = 0 := by
      refine hstarts.turned.terminal_of_fresh hfresh fun c hc e he => ?_
      exact huncancelled c (hchildren _ ▸ hc) e ((hfind c).symm.trans he)
    refine ⟨fun p t ht => ?_, ?_, h.erased⟩
    -- the new session is fit, the older ones are untouched
    · have hlookup : (v.sessions.insert s'.parentRequest.internalOrderId s').lookup p = some t := by
        rw [← ht]
        exact congrArg (AList.lookup p) hamid.1.sessions.symm
      rw [Map.lookup_insert_eq] at hlookup
      split at hlookup
      next heq =>
        rw [← Option.some.inj hlookup]
        exact ⟨heq.symm, hsettled, hcause⟩
      next hne =>
        rw [hframe] at hlookup
        have hold :
            (state.world.sessions.insert s.parentRequest.internalOrderId s).lookup p = some t :=
          hlookup
        rw [Map.lookup_insert_eq, ← hparent, if_neg hne] at hold
        exact h.fit p t hold
    · have hkept := hamid.1.childTrace
      exact hkept.symm ▸ hrecords

theorem Sound.response (h : state.Sound) {r : TradeResponse} {amid : Schedule}
    (hheeds : ∀ p s, state.world.book.tryGetParent r.internalOrderId = some p →
      state.world.sessions.lookup p = some s → s.Heeds r) :
    (state.step cfg (.response r, amid)).Sound := by
  -- the gateway may move before the step, and leaves the sessions and the book alone
  have hapart := World.apart_gateway (amid.rely 0 .internal state.world)
  have hworld : (state.step cfg (.response r, amid)).world =
      ((Service.engineOnTradeResponse r).run (amid.act 0 .internal state.world)).2 := rfl
  generalize amid.act 0 .internal state.world = w at hapart hworld
  have hsame : EngineRun.Sound { state with world := w } := by
    refine ⟨?_, ?_, h.erased⟩
    · rw [hapart.sessions]
      exact h.fit
    · rw [hapart.childTrace]
      exact h.records
  have herased : (state.step cfg (.response r, amid)).erased = state.erased := rfl
  simp only [Service.engineOnTradeResponse, Program.run_modify] at hworld
  cases hparent : w.book.tryGetParent r.internalOrderId with
  | none =>
      simp only [hparent] at hworld
      exact ⟨hworld ▸ hsame.fit, hworld ▸ hsame.records, h.erased⟩
  | some parentId =>
      cases hsession : w.sessions.lookup parentId with
      | none =>
          simp only [hparent, hsession] at hworld
          exact ⟨hworld ▸ hsame.fit, hworld ▸ hsame.records, h.erased⟩
      | some s =>
          simp only [hparent, hsession] at hworld
          obtain ⟨hkey, hfit⟩ := hsame.fit parentId s hsession
          have hheed : s.Heeds r := by
            refine hheeds parentId s ?_ ?_
            · rw [← hapart.book]
              exact hparent
            · rw [← hapart.sessions]
              exact hsession
          refine ⟨fun p t ht => ?_, ?_, h.erased⟩
          · rw [hworld, Map.lookup_insert_eq] at ht
            split at ht
            next heq =>
              rw [← Option.some.inj ht, s.onTradeResponse_parentRequest r, heq]
              exact ⟨hkey, hfit.onTradeResponse hheed⟩
            next => exact hsame.fit p t ht
          · rw [hworld]
            exact Session.submitsRunning_onTradeResponse hsame.records s r

theorem Sound.step (h : state.Sound) {call : EngineCall × Schedule}
    (hcareful : Careful cfg state call) : (state.step cfg call).Sound := by
  obtain ⟨call, amid⟩ := call
  cases call with
  | start env parentIndex request strategyId startTimeNs => exact h.start hcareful.1 hcareful.2
  | tick env nowNs => exact h.tick hcareful
  | response r => exact h.response hcareful
  | rest w => exact ⟨h.fit, h.records, h.erased⟩

end EngineRun

/-! A queue that is full when the active child is pushed, and has a free cell when the passive one
is. -/

def activeView : MarketDataView :=
  { totalAskLevels := 1, ask := { price := 10, volume := 100 }, predictionState := .fresh,
    publishSeqNo := 1 }

/-- The strategy decides to submit 100 shares. -/
def activeEnv : Env :=
  { marketDataReady := true
    readMarketData := fun _ => some activeView
    evaluate := fun _ _ _ => { shouldSubmit := true, volume := 100 } }

def activeConfig : Config :=
  { hasExecutionEngine := true, hasMarketDataService := true, hasActiveStrategy := true
    splitConfig := { strategy := .fixedSize, maxChildVolume := 100 } }

def activeParent : OrderRequest :=
  { OrderRequest.ofClient 7 .buy 300 10 with
    passiveExecutionAlgo := .fixedSize, orderState := .traderPending }

/-- The parent is in the book, and the queue has room. -/
def quietWorld : World :=
  { World.start { totalAsset := 10000, available := 10000 } {}
    (OrdersShm.ofClients [activeParent]) with
    book := (OrderBook.empty.addOrder { request := activeParent, shmOrderIndex := 0 } 0).book }

/-- The parent is in the book, and the queue is full. -/
def crowdedWorld : World := { quietWorld with downstream := some (SpscQueue.filled 0) }

/-- The gateway takes one index. -/
def World.popped (w : World) : World :=
  match w.downstream with
  | none => w
  | some q => { w with downstream := some q.tryPop.2 }

theorem World.gateway_popped (l : Action) (w : World) : World.Gateway l w w.popped := by
  rw [World.popped]
  cases h : w.downstream with
  | none => exact Relation.ReflTransGen.refl
  | some q => exact Relation.ReflTransGen.single (.pop h)

/-- The gateway takes one index before the step with this number. -/
def popBefore (k : Nat) : Schedule where
  act n _ w := if n = k then w.popped else w
  rely n l w := by
    split
    · exact w.gateway_popped l
    · exact Relation.ReflTransGen.refl

/-- The session starts, and the gateway pops between the two pushes; then the engine ticks. -/
def crowdedCalls : List (EngineCall × Schedule) :=
  [(.start activeEnv 0 activeParent 0 0, popBefore 20), (.tick activeEnv 0, Schedule.idle)]

/-- The same service without an active strategy: a parent of 300 shares goes out at once. -/
def passiveConfig : Config :=
  { hasExecutionEngine := true, hasMarketDataService := true
    splitConfig := { strategy := .fixedSize, maxChildVolume := 300 } }

/-- Without an active strategy nothing is decided. -/
theorem Session.not_decidesActive {cfg : Config} (hcfg : cfg.hasActiveStrategy = false) (env : Env)
    (s : Session) : ¬ s.DecidesActive cfg env := by
  rintro ⟨view, price, -, hsome⟩
  cases view with
  | none => exact absurd hsome Bool.false_ne_true
  | some view =>
      rw [Session.activeVolume?, if_pos (Or.inl (by rw [hcfg]; exact Bool.false_ne_true))] at hsome
      exact absurd hsome Bool.false_ne_true

/-- The session starts with its only clip, the clip is filled, and the next tick erases the
session. -/
def filledCalls : List (EngineCall × Schedule) :=
  [(.start activeEnv 0 activeParent 0 0, Schedule.idle),
    (.response { internalOrderId := 1, newState := .finished, volumeTraded := 300 }, Schedule.idle),
    (.tick activeEnv 0, Schedule.idle)]

/-- The run after so many calls. -/
def filledRun (n : Nat) : EngineRun :=
  (filledCalls.take n).foldl (EngineRun.step passiveConfig) { world := quietWorld }

end AccountServices
