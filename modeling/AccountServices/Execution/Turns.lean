import AccountServices.Core.Interleaving
import AccountServices.Execution.Budget

/-!
# The turns of a session

A turn is what one call of `tick` does to a session and to the world. The relations of this module
say it without the program: `Submits` for one submission, `Tries` for the submissions of a turn, and
`Turn` for the whole. Every run of `tick` is a turn, whatever the gateway does in between, so that
the invariants of sessions are proved by cases on turns.
-/

set_option autoImplicit false

namespace AccountServices

open Foundation

namespace Session

/-! ## Turns -/

/-- The world with the mirror of the session in the parent. -/
def mirroredIn (s : Session) (now : TimestampNs) (w : World) : World :=
  { w with
    book := (w.book.syncManagedParentView s.parentRequest.internalOrderId
      s.parentView s.deriveParentState now).book }

/-- The child of a submission. -/
def childOf (s : Session) (now : TimestampNs) (volume : Volume) (price : DPrice) (active : Bool)
    (w : World) (index : OrderIndex) : OrderEntry :=
  (s.childEntry now volume price active).internal now w.allocateOrderId.1 index

/-- The world with the record of an attempt. -/
def attemptedIn (s : Session) (volume : Volume) (price : DPrice) (active : Bool) (w : World) :
    World :=
  { w with childTrace := w.childTrace ++ [s.attemptTrace volume price active] }

/-- The session after a submission that the router refused. -/
def broken (s : Session) : Session := { s with failed := true, terminal := true }

/-- The session with another prediction seen. -/
def seen (s : Session) (publishSeqNo : UInt64) :
    Session := { s with lastActivePublishSeqNo := publishSeqNo }

/-- One submission of a child: it is not tried, or it is sent, or it is refused. -/
inductive Submits (now : TimestampNs) (routes : Prop) (w : World) (s : Session) (volume : Volume)
    (price : DPrice) (active : Bool) : Bool × Session → World → Prop
  | void (h : volume = 0 ∨ price = 0) : Submits now routes w s volume price active (false, s) w
  | sent {index : OrderIndex} {v : World} (hvolume : volume ≠ 0)
      (hplaced : (s.attemptedIn volume price active w).allocateOrderId.2.Placed now routes
        (s.childOf now volume price active w index) true v) :
      Submits now routes w s volume price active
        (true, s.addChild (s.childOf now volume price active w index) volume price)
        { v with childTrace := v.childTrace ++
            [s.resultTrace (s.childOf now volume price active w index)
              (decide (price ≠ 0)) 1 "submitted"] }
  | refused {index : OrderIndex} {v : World} (hvolume : volume ≠ 0)
      (hplaced : (s.attemptedIn volume price active w).allocateOrderId.2.Placed now routes
        (s.childOf now volume price active w index) false v) :
      Submits now routes w s volume price active (false, s.broken)
        (s.broken.mirroredIn now { v with childTrace := v.childTrace ++
          [s.resultTrace (s.childOf now volume price active w index) (decide (price ≠ 0)) 0
            "route_failed"] })

/-- The volume that the active strategy decides to submit. -/
def activeVolume? (s : Session) (cfg : Config) (env : Env) (view : Option MarketDataView)
    (budget : Volume) : Option Volume :=
  match view with
  | none => none
  | some view =>
      if ¬ cfg.hasActiveStrategy ∨ budget = 0 then none
      else if view.predictionState ≠ .fresh then none
      else if view.publishSeqNo = s.lastActivePublishSeqNo then none
      else
        let decision := env.evaluate s.parentRequest view budget
        if ¬ decision.shouldSubmit ∨ decision.volume = 0 ∨ decision.volume > budget then none
        else some decision.volume

/-- The active strategy decides to submit a child for the session. -/
def DecidesActive (cfg : Config) (env : Env) (s : Session) : Prop :=
  ∃ view price, s.resolveSubmitPrice cfg env = some (view, price) ∧
    (s.activeVolume? cfg env view s.currentBudgetVolume).isSome = true

/-- The submissions of a turn: none, an active one, a passive one, or a passive one after an active
one that the router refused. -/
inductive Tries (cfg : Config) (env : Env) (routes : Prop) (w : World)
    (s : Session) (price : DPrice) : Bool × Session → World → Prop
  | silent (seqNo : UInt64) : Tries cfg env routes w s price (false, s.seen seqNo) w
  | active {seqNo : UInt64} {volume : Volume} {out : Bool × Session} {v : World}
      (hdecides : s.DecidesActive cfg env) (hle : volume ≤ s.currentBudgetVolume)
      (hsubmits : (s.seen seqNo).Submits env.nowNs routes w volume price true out v) :
      Tries cfg env routes w s price out v
  | passive {seqNo : UInt64} {out : Bool × Session} {v : World}
      (hsubmits : (s.seen seqNo).Submits env.nowNs False w s.currentBudgetVolume
        price false out v) :
      Tries cfg env routes w s price out v
  | both {seqNo : UInt64} {volume : Volume} {u v : World} {out : Bool × Session}
      (hrefused : ¬ routes)
      (hdecides : s.DecidesActive cfg env) (hle : volume ≤ s.currentBudgetVolume)
      (hfirst : (s.seen seqNo).Submits env.nowNs routes w volume price true
        (false, (s.seen seqNo).broken) u)
      (hsecond : (s.seen seqNo).broken.Submits env.nowNs False u s.currentBudgetVolume
        price false out v) :
      Tries cfg env routes w s price out v

/-- The session with the marks of the cancels in the book. -/
def refreshed (s : Session) (b : OrderBook) : Session :=
  ({ s with cancelRequested := false }).noteCancels b
    (b.getChildren s.parentRequest.internalOrderId)

/-- The session that decides about a submission: the cancels are noted and the slice is advanced. -/
def ready (s : Session) (b : OrderBook) : Session := (s.refreshed b).advanceSliceIfReady

/-- The session after the tail of `TwapSession::tick`. -/
def ended (s : Session) : Session :=
  if s.advanceSliceIfReady.slicesExhausted ∧ ¬ s.advanceSliceIfReady.hasWorkingChildren then
    { s.advanceSliceIfReady with terminal := true }
  else s.advanceSliceIfReady

/-- The session whose slice has its child, if there is one. -/
def consumedIf (s : Session) (sent : Bool) : Session := if sent then s.consumeSlice else s

/-- A turn of a session. -/
inductive Turn (cfg : Config) (env : Env) (routes : Prop) (w : World) (s : Session) :
    Session → World → Prop
  -- the parent has left the book
  | gone (hnone : w.book.findOrder s.parentRequest.internalOrderId = none) :
      Turn cfg env routes w s s.broken (s.broken.mirroredIn env.nowNs w)
  -- the session failed before
  | fails (hfound : (w.book.findOrder s.parentRequest.internalOrderId).isSome = true)
      (hfailed : (s.refreshed w.book).failed = true) :
      Turn cfg env routes w s { s.refreshed w.book with terminal := true }
        (mirroredIn { s.refreshed w.book with terminal := true } env.nowNs w)
  -- a child works, or nothing may be sent yet
  | waits (hfound : (w.book.findOrder s.parentRequest.internalOrderId).isSome = true)
      (hfailed : (s.ready w.book).failed = false) :
      Turn cfg env routes w s (s.ready w.book) ((s.ready w.book).mirroredIn env.nowNs w)
  -- no child works, and there is nothing left to send
  | ends (hfound : (w.book.findOrder s.parentRequest.internalOrderId).isSome = true)
      (hfailed : (s.ready w.book).failed = false)
      (hidle : (s.ready w.book).hasWorkingChildren = false)
      (hwhy : (s.ready w.book).cancelRequested = true ∨ (s.ready w.book).remainingTarget = 0 ∨
        (s.ready w.book).slicesExhausted = true) :
      Turn cfg env routes w s { s.ready w.book with terminal := true }
        (mirroredIn { s.ready w.book with terminal := true } env.nowNs w)
  -- it is over, and waits for its last children
  | skips (hfound : (w.book.findOrder s.parentRequest.internalOrderId).isSome = true)
      (hfailed : (s.ready w.book).failed = false) (hbusy : (s.ready w.book).idleAtEnd = false)
      (hterminal : (s.ready w.book).terminal = true) :
      Turn cfg env routes w s (s.ready w.book) w
  -- a clip is tried
  | clip {clipVolume : Volume} {price : DPrice} {sent : Bool} {t : Session} {v : World}
      (hfound : (w.book.findOrder s.parentRequest.internalOrderId).isSome = true)
      (hplan : s.plan = .sequentialClip clipVolume) (hfailed : (s.ready w.book).failed = false)
      (hidle : (s.ready w.book).hasWorkingChildren = false)
      (hcancel : (s.ready w.book).cancelRequested = false)
      (hbudget : (s.ready w.book).currentBudgetVolume ≠ 0)
      (htries : (s.ready w.book).Tries cfg env routes w price (sent, t) v) :
      Turn cfg env routes w s t (t.mirroredIn env.nowNs v)
  -- a slice is tried
  | slice {price : DPrice} {sent : Bool} {t : Session} {v : World}
      (hfound : (w.book.findOrder s.parentRequest.internalOrderId).isSome = true)
      (hplan : (s.ready w.book).twapState?.isSome = true)
        (hfailed : (s.ready w.book).failed = false)
      (hlive : (s.ready w.book).slicesExhausted = false)
      (hopen : (s.ready w.book).sliceConsumed = false)
      (hcancel : (s.ready w.book).cancelRequested = false)
      (hbudget : (s.ready w.book).currentBudgetVolume ≠ 0)
      (htries : (s.ready w.book).Tries cfg env routes w price (sent, t) v) :
      Turn cfg env routes w s (t.consumedIf sent).ended
        (if (t.consumedIf sent).ended.terminal then v
          else (t.consumedIf sent).ended.mirroredIn env.nowNs v)
  -- nothing is tried in this slice
  | passes (hfound : (w.book.findOrder s.parentRequest.internalOrderId).isSome = true)
      (hplan : (s.ready w.book).twapState?.isSome = true)
        (hfailed : (s.ready w.book).failed = false)
      (hlive : (s.ready w.book).slicesExhausted = false)
      (hcancel : (s.ready w.book).cancelRequested = false) :
      Turn cfg env routes w s (s.ready w.book).ended
        (if (s.ready w.book).ended.terminal then w
          else (s.ready w.book).ended.mirroredIn env.nowNs w)

/-! ## Every tick is a turn -/

open Program

variable {routes : Prop} {w : World} {s : Session}

theorem allocateOrderId_attemptedIn (s : Session) (volume : Volume) (price : DPrice) (active : Bool)
    (w : World) :
    (s.attemptedIn volume price active w).allocateOrderId.1 = w.allocateOrderId.1 := by
  simp only [World.allocateOrderId, attemptedIn]
  cases w.upstreamNextOrderId <;> rfl

theorem triple_syncParentView (s : Session) (now : TimestampNs) (w : World) :
    Triple World.Gateway (w.Amid anyMemory) (s.syncParentView now) fun _ =>
      (s.mirroredIn now w).Amid anyMemory :=
  Triple.bind (Service.triple_onBook lasting_anyMemory w now _) fun _ => Triple.pure fun _ h => h.2

/-- A session is mirrored and returned. -/
theorem triple_sync_pure (s : Session) (now : TimestampNs) (w : World) :
    Triple World.Gateway (w.Amid anyMemory) (do s.syncParentView now; pure s : Service Session)
      fun s' u => s' = s ∧ (s.mirroredIn now w).Amid anyMemory u :=
  Triple.bind (triple_syncParentView s now w) fun _ => Triple.pure fun _ h => ⟨rfl, h⟩

theorem triple_submitChild (s : Session) (now : TimestampNs) (volume : Volume) (price : DPrice)
    (active : Bool) (hroutes : routes → w.Routes) :
    Triple World.Gateway (w.Amid fun pool queue => routes → HasRoom pool queue)
      (s.submitChild now volume price active) fun out u =>
        ∃ v, s.Submits now routes w volume price active out v ∧ v.Amid anyMemory u := by
  refine Triple.ite (fun hvoid => Triple.pure fun u hu => ⟨w, .void hvoid, hu.forget⟩) fun hsome =>
    ?_
  have hvolume : volume ≠ 0 := fun h => hsome (Or.inl h)
  have hdrawn := s.allocateOrderId_attemptedIn volume price active w
  have hstill : routes → (s.attemptedIn volume price active w).Routes := by
    intro hr
    rw [World.Routes, hdrawn]
    exact hroutes hr
  refine Triple.bind (Service.triple_recordTrace lasting_hasRoom w _) fun _ => ?_
  refine Triple.bind
    (Service.triple_submitInternalOrder (s.attemptedIn volume price active w) now rfl rfl
    hstill) fun out => ?_
  refine Triple.exists fun index => Triple.exists fun v => ?_
  refine Triple.pure_and fun hchild => Triple.pure_and fun hplaced => ?_
  obtain ⟨sent, child⟩ := out
  rw [hdrawn] at hchild
  simp only at hchild hplaced
  subst hchild
  refine Triple.ite (fun hsent => ?_) fun hnot => ?_
  · subst hsent
    refine Triple.bind (Service.triple_recordTrace lasting_anyMemory v _) fun _ => ?_
    exact Triple.pure fun u hu => ⟨_, .sent hvolume hplaced, hu⟩
  · obtain rfl : sent = false := by simpa using hnot
    refine Triple.bind (Service.triple_recordTrace lasting_anyMemory v _) fun _ => ?_
    refine Triple.bind (triple_syncParentView s.broken now _) fun _ => ?_
    exact Triple.pure fun u hu => ⟨_, .refused hvolume hplaced, hu⟩

/-- `try_active_submit` is a submission of the volume that the strategy decides, if it decides
one. -/
theorem tryActive_eq (s : Session) (cfg : Config) (env : Env) (view : Option MarketDataView)
    (price : DPrice) (budget : Volume) :
    ∃ seqNo, s.tryActive cfg env view price budget =
      match s.activeVolume? cfg env view budget with
      | none => pure (false, s.seen seqNo)
      | some volume => (s.seen seqNo).submitChild env.nowNs volume price true := by
  have hsame : s.seen s.lastActivePublishSeqNo = s := rfl
  simp only [tryActive, activeVolume?]
  cases view with
  | none => exact ⟨s.lastActivePublishSeqNo, rfl⟩
  | some view =>
      simp only [tryActiveSubmit]
      split
      · exact ⟨s.lastActivePublishSeqNo, rfl⟩
      split
      · exact ⟨s.lastActivePublishSeqNo, rfl⟩
      split
      · exact ⟨s.lastActivePublishSeqNo, rfl⟩
      split
      · exact ⟨view.publishSeqNo, rfl⟩
      · exact ⟨view.publishSeqNo, rfl⟩

theorem activeVolume?_le {cfg : Config} {env : Env} {view : Option MarketDataView}
    {budget volume : Volume}
    (h : s.activeVolume? cfg env view budget = some volume) : volume ≤ budget := by
  unfold activeVolume? at h
  split at h
  · exact absurd h (by simp)
  split at h
  · exact absurd h (by simp)
  split at h
  · exact absurd h (by simp)
  split at h
  · exact absurd h (by simp)
  simp only at h
  split at h
  · exact absurd h (by simp)
  next hdecision =>
    simp only [not_or, gt_iff_lt, Word.lt_iff] at hdecision
    rw [← Option.some.inj h, Word.le_iff]
    omega

section Tries

variable {cfg : Config} {env : Env} {price : DPrice}

/-- What `try_active_submit` has done: nothing, or a submission. -/
inductive TriedActive (cfg : Config) (env : Env) (routes : Prop) (w : World)
    (s : Session) (price : DPrice) : Bool × Session → World → Prop
  | silent (seqNo : UInt64) : TriedActive cfg env routes w s price (false, s.seen seqNo) w
  | submits {seqNo : UInt64} {volume : Volume} {out : Bool × Session} {v : World}
      (hdecides : s.DecidesActive cfg env) (hle : volume ≤ s.currentBudgetVolume)
      (hsubmits : (s.seen seqNo).Submits env.nowNs routes w volume price true out v) :
      TriedActive cfg env routes w s price out v

theorem TriedActive.tries {out : Bool × Session} {v : World}
    (h : s.TriedActive cfg env routes w price out v) : s.Tries cfg env routes w price out v := by
  cases h with
  | silent seqNo => exact .silent seqNo
  | submits hdecides hle hsubmits => exact .active hdecides hle hsubmits

theorem triple_tryActive {view : Option MarketDataView} (hroutes : routes → w.Routes)
    (hprice : s.resolveSubmitPrice cfg env = some (view, price)) :
    Triple World.Gateway (w.Amid fun pool queue => routes → HasRoom pool queue)
      (s.tryActive cfg env view price s.currentBudgetVolume) fun out u =>
        ∃ v, s.TriedActive cfg env routes w price out v ∧ v.Amid anyMemory u := by
  obtain ⟨seqNo, heq⟩ := s.tryActive_eq cfg env view price s.currentBudgetVolume
  rw [heq]
  cases hvolume : s.activeVolume? cfg env view s.currentBudgetVolume with
  | none => exact Triple.pure fun u hu => ⟨w, .silent seqNo, hu.forget⟩
  | some volume =>
      have hdecides : s.DecidesActive cfg env := ⟨view, price, hprice, by rw [hvolume]; rfl⟩
      refine (triple_submitChild (s.seen seqNo) env.nowNs volume price true hroutes).mono
        (fun u hu => hu) ?_
      rintro out u ⟨v, hsubmits, hu⟩
      exact ⟨v, .submits hdecides (activeVolume?_le hvolume) hsubmits, hu⟩

/-- The passive submission after an active one that was not sent. -/
theorem triple_passive {t : Session} {v : World}
    (h : s.TriedActive cfg env routes w price (false, t) v) :
    Triple World.Gateway (v.Amid anyMemory)
      (t.submitChild env.nowNs s.currentBudgetVolume price false)
      fun out u => ∃ v', s.Tries cfg env routes w price out v' ∧ v'.Amid anyMemory u := by
  have hnever : False → v.Routes := fun hfalse => hfalse.elim
  have hsubmit := triple_submitChild t env.nowNs s.currentBudgetVolume price false hnever
  refine hsubmit.mono (fun u hu => ⟨hu.1, fun hfalse => hfalse.elim⟩) ?_
  rintro out u ⟨v', hsubmits, hu⟩
  refine ⟨v', ?_, hu⟩
  cases h with
  | silent seqNo => exact .passive hsubmits
  | submits hdecides hle hfirst =>
      generalize hout : (false, t) = pair at hfirst
      cases hfirst with
      | void hvoid =>
          cases hout
          exact .passive hsubmits
      | sent hvolume hplaced => exact absurd (congrArg Prod.fst hout) Bool.false_ne_true
      | refused hvolume hplaced =>
          cases hout
          have hrefused : ¬ routes := by
            cases hplaced with
            | unsent hrefused hok => exact hrefused
            | shut hrefused => exact hrefused
          exact .both hrefused hdecides hle (.refused hvolume hplaced) hsubmits

end Tries

/-! The marks of cancels change nothing but marks. -/

theorem plan_noteCancels (b : OrderBook) (ids : List InternalOrderId) (s : Session) :
    (s.noteCancels b ids).plan = s.plan := by
  induction ids generalizing s with
  | nil => rfl
  | cons relatedId rest ih =>
      rw [noteCancels]
      split
      · exact ih s
      split
      · exact ih s
      · rw [ih]
        rw [noteCancel]
        split <;> rfl

theorem plan_refreshed (s : Session) (b : OrderBook) : (s.refreshed b).plan = s.plan :=
  plan_noteCancels b _ _

theorem advanceSliceIfReady_sequential {clipVolume : Volume}
    (h : s.plan = .sequentialClip clipVolume) : s.advanceSliceIfReady = s := by
  rw [advanceSliceIfReady]
  rw [h]

theorem ready_sequential {clipVolume : Volume} (h : s.plan = .sequentialClip clipVolume)
    (b : OrderBook) :
    s.ready b = s.refreshed b := advanceSliceIfReady_sequential ((s.plan_refreshed b).trans h)

theorem Submits.plan {now : TimestampNs} {volume : Volume} {price : DPrice} {active : Bool}
    {out : Bool × Session} {v : World} (h : s.Submits now routes w volume price active out v) :
    out.2.plan = s.plan := by
  cases h with
  | void hvoid => rfl
  | sent hvolume hplaced => exact (addChild_facts s _ volume price).2
  | refused hvolume hplaced => rfl

theorem TriedActive.plan {cfg : Config} {env : Env} {price : DPrice}
    {out : Bool × Session} {v : World}
    (h : s.TriedActive cfg env routes w price out v) : out.2.plan = s.plan := by
  cases h with
  | silent seqNo => rfl
  | submits hdecides hle hsubmits => exact hsubmits.plan

theorem Tries.plan {cfg : Config} {env : Env} {price : DPrice} {out : Bool × Session} {v : World}
    (h : s.Tries cfg env routes w price out v) : out.2.plan = s.plan := by
  cases h with
  | silent seqNo => rfl
  | active hdecides hle hsubmits => exact hsubmits.plan
  | passive hsubmits => exact hsubmits.plan
  | both hrefused hdecides hle hfirst hsecond => exact hsecond.plan

theorem sliceConsumed_congr {t : Session} (h : t.plan = s.plan) :
    t.sliceConsumed = s.sliceConsumed := by
  simp only [sliceConsumed, twapState?]
  rw [h]

/-- A TWAP session stays one. -/
theorem twapState?_ready {state : TwapState} (h : s.plan = .twap state) (b : OrderBook) :
    ∃ t, (s.ready b).plan = .twap t := by
  have hplan := (s.plan_refreshed b).trans h
  rw [ready, advanceSliceIfReady]
  rw [hplan]
  simp only
  split
  · exact ⟨state, hplan⟩
  · exact ⟨_, rfl⟩

section Turns

variable {cfg : Config} {env : Env}
  (hfound : (w.book.findOrder s.parentRequest.internalOrderId).isSome = true)

include hfound

theorem triple_finishIfIdle (hfailed : (s.ready w.book).failed = false) :
    Triple World.Gateway (w.Amid anyMemory) ((s.ready w.book).finishIfIdle env.nowNs) fun s' u =>
      ∃ v, s.Turn cfg env routes w s' v ∧ v.Amid anyMemory u := by
  refine Triple.ite (fun hend => ?_) fun hbusy => Triple.ite (fun hterminal => ?_) fun _ => ?_
  · have hwhy : (s.ready w.book).hasWorkingChildren = false ∧
        ((s.ready w.book).cancelRequested = true ∨ (s.ready w.book).remainingTarget = 0 ∨
          (s.ready w.book).slicesExhausted = true) := by
      simp only [idleAtEnd, hfailed, Bool.false_or, Bool.or_eq_true,
        Bool.and_eq_true, Bool.not_eq_true', decide_eq_true_eq] at hend
      rcases hend with ⟨hcancel, hidle⟩ | ⟨hzero, hidle⟩
      · exact ⟨hidle, Or.inl hcancel⟩
      · exact ⟨hidle, Or.inr (Or.inl hzero)⟩
    refine (triple_sync_pure _ env.nowNs w).mono (fun u hu => hu) ?_
    rintro s' u ⟨rfl, hu⟩
    exact ⟨_, .ends hfound hfailed hwhy.1 hwhy.2, hu⟩
  · exact Triple.pure fun u hu => ⟨w, .skips hfound hfailed (by simpa using hbusy) hterminal, hu⟩
  · refine (triple_sync_pure _ env.nowNs w).mono (fun u hu => hu) ?_
    rintro s' u ⟨rfl, hu⟩
    exact ⟨_, .waits hfound hfailed, hu⟩

omit hfound in
/-- A turn that ends with the mirror of the session. -/
theorem triple_mirror {t : Session} (hturn : s.Turn cfg env routes w t (t.mirroredIn env.nowNs w)) :
    Triple World.Gateway (w.Amid fun pool queue => routes → HasRoom pool queue)
      (do t.syncParentView env.nowNs; pure t : Service Session) fun s' u =>
        ∃ v, s.Turn cfg env routes w s' v ∧ v.Amid anyMemory u := by
  refine (triple_sync_pure t env.nowNs w).mono (fun u hu => hu.forget) ?_
  rintro s' u ⟨rfl, hu⟩
  exact ⟨_, hturn, hu⟩

theorem triple_tickSequential {clipVolume : Volume} (hplan : s.plan = .sequentialClip clipVolume)
    (hroutes : routes → w.Routes) :
    Triple World.Gateway (w.Amid fun pool queue => routes → HasRoom pool queue)
      ((s.refreshed w.book).tickSequential cfg env) fun s' u =>
        ∃ v, s.Turn cfg env routes w s' v ∧ v.Amid anyMemory u := by
  have hready := ready_sequential hplan w.book
  -- The guards of the source, one after another; each of them is one way for the turn to go.
  refine Triple.ite (fun hfailed => triple_mirror (.fails hfound hfailed)) fun hnot => ?_
  rw [← hready] at hnot ⊢
  have hfailed : (s.ready w.book).failed = false := by simpa using hnot
  refine Triple.ite (fun _ => triple_mirror (.waits hfound hfailed)) fun hworking => ?_
  have hidle : (s.ready w.book).hasWorkingChildren = false := by simpa using hworking
  refine Triple.ite (fun hcancel => triple_mirror (.ends hfound hfailed hidle (Or.inl hcancel)))
    fun hnocancel => ?_
  refine Triple.ite (fun _ => (triple_finishIfIdle hfound hfailed).mono (fun u hu => hu.forget)
    fun _ _ h => h) fun hbudget => ?_
  cases hprice : (s.ready w.book).resolveSubmitPrice cfg env with
  | none => exact triple_mirror (.waits hfound hfailed)
  | some submitPrice =>
      obtain ⟨view, price⟩ := submitPrice
      refine Triple.bind (triple_tryActive hroutes hprice) fun out => ?_
      obtain ⟨active, s₁⟩ := out
      refine Triple.bind
        (R := fun out u => ∃ v, (s.ready w.book).Tries cfg env routes w price out v ∧
        v.Amid anyMemory u) ?_ fun out => ?_
      -- The active child comes first, the passive one only if it was not sent.
      · refine Triple.exists fun v => Triple.pure_and fun hactive =>
          Triple.ite (fun hsent => ?_) fun hnot => ?_
        · subst hsent
          exact Triple.pure fun u hu => ⟨v, hactive.tries, hu⟩
        · obtain rfl : active = false := by simpa using hnot
          exact triple_passive hactive
      · refine Triple.exists fun v => Triple.pure_and fun htries => ?_
        obtain ⟨sent, s₂⟩ := out
        refine (triple_sync_pure s₂ env.nowNs v).mono (fun u hu => hu) ?_
        rintro s' u ⟨rfl, hu⟩
        exact ⟨_, .clip hfound hplan hfailed hidle (by simpa using hnocancel) hbudget htries, hu⟩

omit hfound in
/-- The tail of a TWAP tick. -/
theorem triple_endSlice (t : Session) (now : TimestampNs) (v : World) :
    Triple World.Gateway (v.Amid anyMemory) (t.endSlice now) fun s' u =>
      s' = t.ended ∧
        (if t.ended.terminal then v else t.ended.mirroredIn now v).Amid anyMemory u := by
  have hend : ∀ e : Session, Triple World.Gateway (v.Amid anyMemory)
      (if e.terminal then pure e else do e.syncParentView now; pure e : Service Session) fun s' u =>
        s' = e ∧ (if e.terminal then v else e.mirroredIn now v).Amid anyMemory u := by
    intro e
    cases hterminal : e.terminal with
    | true =>
        simp only [if_true]
        exact Triple.pure fun u hu => ⟨rfl, hu⟩
    | false =>
        simp only [Bool.false_eq_true, if_false]
        exact triple_sync_pure e now v
  exact hend t.ended

omit hfound in
/-- The submissions for an open slice. -/
theorem triple_submitSlice {view : Option MarketDataView} {price : DPrice}
    (nowNs deadline : TimestampNs)
    {state : TwapState} (hplan : s.plan = .twap state) (hopen : s.sliceConsumed = false)
    (hprice : s.resolveSubmitPrice cfg env = some (view, price)) (hroutes : routes → w.Routes) :
    Triple World.Gateway (w.Amid fun pool queue => routes → HasRoom pool queue)
      (s.submitSlice cfg env nowNs deadline s.currentBudgetVolume view price) fun s' u =>
        ∃ sent t v, s' = t.consumedIf sent ∧ s.Tries cfg env routes w price (sent, t) v ∧
          v.Amid anyMemory u := by
  rw [submitSlice]
  rw [hopen]
  simp only [Bool.false_eq_true, if_false]
  refine Triple.bind (R := fun s₁ u => ∃ active t v, s₁ = t.consumedIf active ∧
    s.TriedActive cfg env routes w price (active, t) v ∧ v.Amid anyMemory u) ?_ fun s₁ => ?_
  · refine Triple.bind (triple_tryActive hroutes hprice) fun out => Triple.pure fun u hu => ?_
    obtain ⟨active, t⟩ := out
    obtain ⟨v, hactive, hu⟩ := hu
    exact ⟨active, t, v, rfl, hactive, hu⟩
  · refine Triple.exists fun active => Triple.exists fun t => Triple.exists fun v => ?_
    refine Triple.pure_and fun hs₁ => Triple.pure_and fun hactive => ?_
    subst hs₁
    cases active with
    | true =>
        -- an active child takes the slice
        have hconsumed : (t.consumedIf true).sliceConsumed = true :=
          sliceConsumed_consumeSlice (hactive.plan.trans hplan)
        rw [if_neg fun h => h.1 hconsumed]
        exact Triple.pure fun u hu => ⟨true, t, v, rfl, hactive.tries, hu⟩
    | false =>
        refine Triple.ite (fun _ => ?_) fun _ => ?_
        · refine Triple.bind (triple_passive hactive) fun out => Triple.pure fun u hu => ?_
          obtain ⟨sent, t'⟩ := out
          obtain ⟨v', htries, hu⟩ := hu
          exact ⟨sent, t', v', rfl, htries, hu⟩
        · exact Triple.pure fun u hu => ⟨false, t, v, rfl, hactive.tries, hu⟩

theorem triple_tickTwap {state : TwapState} (hplan : s.plan = .twap state) (nowNs : TimestampNs)
    (hroutes : routes → w.Routes) :
    Triple World.Gateway (w.Amid fun pool queue => routes → HasRoom pool queue)
      ((s.refreshed w.book).tickTwap cfg env nowNs) fun s' u =>
        ∃ v, s.Turn cfg env routes w s' v ∧ v.Amid anyMemory u := by
  rw [tickTwap]
  refine Triple.ite (fun hfailed => triple_mirror (.fails hfound hfailed)) fun hnot => ?_
  obtain ⟨t, htwap⟩ := twapState?_ready hplan w.book
  have hready : (s.refreshed w.book).advanceSliceIfReady = s.ready w.book := rfl
  have hstate : (s.ready w.book).twapState? = some t := by
    rw [twapState?]
    rw [htwap]
  have hexhausted : (s.ready w.book).slicesExhausted = t.exhausted := by
    rw [slicesExhausted]
    rw [hstate]
    rfl
  have hfailed : (s.ready w.book).failed = false := by
    have hkept : (s.ready w.book).failed = (s.refreshed w.book).failed := by
      rw [ready, advanceSliceIfReady]
      split
      · rfl
      · split <;> rfl
    rw [hkept]
    simpa using hnot
  simp only [hready, hstate]
  refine Triple.ite (fun hend => ?_) fun hlive => ?_
  · split
    next => exact triple_mirror (.waits hfound hfailed)
    next hidle =>
      exact triple_mirror
        (.ends hfound hfailed (by simpa using hidle) (Or.inr (Or.inr (hexhausted.trans hend))))
  have hslices : (s.ready w.book).slicesExhausted = false := by
    rw [hexhausted]
    simpa using hlive
  refine Triple.ite (fun _ => (triple_finishIfIdle hfound hfailed).mono (fun u hu => hu.forget)
    fun _ _ h => h) fun hnocancel => ?_
  have hcancel : (s.ready w.book).cancelRequested = false := by simpa using hnocancel
  have hpasses : Triple World.Gateway (w.Amid fun pool queue => routes → HasRoom pool queue)
      ((s.ready w.book).endSlice env.nowNs) fun s' u =>
        ∃ v, s.Turn cfg env routes w s' v ∧ v.Amid anyMemory u := by
    refine (triple_endSlice _ env.nowNs w).mono (fun u hu => hu.forget) ?_
    rintro s' u ⟨rfl, hu⟩
    exact ⟨_, .passes hfound (by rw [hstate]; rfl) hfailed hslices hcancel, hu⟩
  refine Triple.ite (fun _ => hpasses) fun hbudget => ?_
  cases hprice : (s.ready w.book).resolveSubmitPrice cfg env with
  | none => exact triple_mirror (.waits hfound hfailed)
  | some submitPrice =>
      obtain ⟨view, price⟩ := submitPrice
      cases hconsumed : (s.ready w.book).sliceConsumed with
      | true =>
          -- the slice has its child: nothing is submitted
          have hsame : (s.ready w.book).submitSlice cfg env nowNs t.nextDeadlineNs
              (s.ready w.book).currentBudgetVolume view price = pure (s.ready w.book) := by
            rw [submitSlice]
            rw [hconsumed]
            change (if ¬ (s.ready w.book).sliceConsumed = true ∧
              nowNs ≥ t.nextDeadlineNs then _ else
              pure (s.ready w.book)) = _
            rw [if_neg fun h => h.1 hconsumed]
          simp only [hsame]
          exact hpasses
      | false =>
          refine Triple.bind
            (triple_submitSlice nowNs t.nextDeadlineNs htwap hconsumed hprice hroutes)
            fun s' => ?_
          refine Triple.exists fun sent => Triple.exists fun t' => Triple.exists fun v => ?_
          refine Triple.pure_and fun hs' => Triple.pure_and fun htries => ?_
          subst hs'
          refine (triple_endSlice _ env.nowNs v).mono (fun u hu => hu) ?_
          rintro s' u ⟨rfl, hu⟩
          exact ⟨_, .slice hfound (by rw [hstate]; rfl) hfailed hslices hconsumed
            hcancel hbudget htries, hu⟩

end Turns

/-- Every tick is a turn. -/
theorem triple_tick (cfg : Config) (env : Env) (nowNs : TimestampNs) (s : Session)
    (hroutes : routes → w.Routes) :
    Triple World.Gateway (w.Amid fun pool queue => routes → HasRoom pool queue)
      (s.tick cfg env nowNs)
      fun s' u => ∃ v, s.Turn cfg env routes w s' v ∧ v.Amid anyMemory u := by
  refine Triple.bind (Service.triple_read lasting_hasRoom w fun u hu => ?_) fun out => ?_
  · exact congrArg s.refreshParentState hu.book
  · refine Triple.pure_and fun hout => ?_
    subst hout
    rw [refreshParentState]
    cases hparent : w.book.findOrder s.parentRequest.internalOrderId with
    | none =>
        refine (triple_sync_pure s.broken env.nowNs w).mono (fun u hu => hu.forget) ?_
        rintro s' u ⟨rfl, hu⟩
        exact ⟨_, .gone hparent, hu⟩
    | some parent =>
        have hfound : (w.book.findOrder s.parentRequest.internalOrderId).isSome = true := by
          rw [hparent]
          rfl
        have hrefreshed : ({ s with cancelRequested := false } : Session).noteCancels w.book
          (w.book.getChildren s.parentRequest.internalOrderId) = s.refreshed w.book := rfl
        have hplan := s.plan_refreshed w.book
        simp only [if_true, hrefreshed]
        cases hkind : (s.refreshed w.book).plan with
        | sequentialClip clipVolume => exact triple_tickSequential hfound (hplan ▸ hkind) hroutes
        | twap state => exact triple_tickTwap hfound (hplan ▸ hkind) nowNs hroutes

end Session

end AccountServices
