import AccountServices.Execution.Stopping

/-!
# One child at a time

A session submits a child only when none works, so at most one of its children has unresolved
volume. What was sent is read off the records: an attempt, followed by its result. A turn sends one
child at most, and no more than its budget allows.
-/

set_option autoImplicit false

namespace AccountServices

open Foundation

/-! ## What was sent -/

/-- One record, for the attempt that waits for its result and the children that were sent. -/
def noteSent (acc : Option (Volume × Bool) × List (Volume × Bool)) :
    ChildTrace → Option (Volume × Bool) × List (Volume × Bool)
  | .submitAttempt _ volume _ _ _ _ _ active => (some (volume, active), acc.2)
  | .submitResult _ _ _ _ _ reason =>
      (none, if reason = "submitted" then acc.2 ++ acc.1.toList else acc.2)
  | .finalized .. => acc

/-- The children that were sent, in the order of the records: their volumes, and whether the active
strategy decided about them. -/
def sentChildren (records : List ChildTrace) : List (Volume × Bool) :=
  (records.foldl noteSent (none, [])).2

namespace Session

variable {cfg : Config} {env : Env} {routes : Prop} {w v : World} {s s' t : Session}
variable {records : List ChildTrace}

theorem sentChildren_submitted (s : Session) (volume : Volume) (price : DPrice) (active : Bool)
    (child : OrderEntry) (success : Bool) (flag : DPrice) :
    sentChildren (records ++ [s.attemptTrace volume price active] ++
      [s.resultTrace child success flag "submitted"]) = sentChildren records ++
        [(volume, active)] := by
  simp [sentChildren, noteSent, attemptTrace, resultTrace, List.foldl_append]

theorem sentChildren_refused (s : Session) (volume : Volume) (price : DPrice) (active : Bool)
    (child : OrderEntry) (success : Bool) (flag : DPrice) :
    sentChildren (records ++ [s.attemptTrace volume price active] ++
      [s.resultTrace child success flag "route_failed"]) = sentChildren records := by
  simp [sentChildren, noteSent, attemptTrace, resultTrace, List.foldl_append]

/-- A response sends nothing. -/
theorem sentChildren_onTradeResponse (s : Session) (r : TradeResponse) :
    sentChildren (records ++ (s.onTradeResponse r).2) = sentChildren records := by
  have hnil : sentChildren (records ++ []) = sentChildren records := by rw [List.append_nil]
  have hone : ∀ (u : Session) (l : ChildExecutionLedger),
      sentChildren (records ++ [u.finalizedTrace l]) = sentChildren records := by
    intro u l
    simp [sentChildren, noteSent, finalizedTrace, List.foldl_append]
  simp only [onTradeResponse]
  split
  · exact hnil
  split
  · exact hnil
  split
  · exact hone _ _
  split
  · exact hone _ _
  · exact hnil

/-- A submission is on record as sent if and only if it succeeds. -/
theorem Submits.sentChildren {now : TimestampNs} {volume : Volume} {price : DPrice} {active : Bool}
    {out : Bool × Session} (h : s.Submits now routes w volume price active out v) :
    sentChildren v.childTrace =
      AccountServices.sentChildren w.childTrace ++ (if out.1 then [(volume, active)] else []) := by
  cases h with
  | void hvoid => simp
  | sent hvolume hplaced =>
      have htrace := hplaced.frame.2.trans (World.allocateOrderId_frame _).2
      simp only [htrace, attemptedIn, if_true]
      exact sentChildren_submitted _ _ _ _ _ _ _
  | refused hvolume hplaced =>
      have htrace := hplaced.frame.2.trans (World.allocateOrderId_frame _).2
      simp only [mirroredIn, htrace, attemptedIn, Bool.false_eq_true, if_false, List.append_nil]
      exact sentChildren_refused _ _ _ _ _ _ _

/-- A submission that succeeds has a volume. -/
theorem Submits.volume_ne {now : TimestampNs} {volume : Volume} {price : DPrice} {active : Bool}
    (h : s.Submits now routes w volume price active (true, t) v) : volume ≠ 0 := by
  cases h with
  | sent hvolume hplaced => exact hvolume

/-- The submissions of a turn send one child within the budget, or none. -/
theorem Tries.sentChildren {price : DPrice} {out : Bool × Session}
    (h : s.Tries cfg env routes w price out v) :
    (out.1 = false → sentChildren v.childTrace = AccountServices.sentChildren w.childTrace) ∧
      (out.1 = true → ∃ volume active, volume ≠ 0 ∧ volume ≤ s.currentBudgetVolume ∧
        AccountServices.sentChildren v.childTrace =
          AccountServices.sentChildren w.childTrace ++ [(volume, active)]) := by
  -- Whatever was attempted before, one submission follows, and records its child only if it was
  -- sent.
  have hone : ∀ {u : World} {y : Session} {now : TimestampNs} {r : Prop} {volume : Volume}
      {active : Bool},
      volume ≤ s.currentBudgetVolume → y.Submits now r u volume price active out v →
      AccountServices.sentChildren u.childTrace = AccountServices.sentChildren w.childTrace →
      (out.1 = false → AccountServices.sentChildren v.childTrace =
        AccountServices.sentChildren w.childTrace) ∧
      (out.1 = true → ∃ volume active, volume ≠ 0 ∧ volume ≤ s.currentBudgetVolume ∧
        AccountServices.sentChildren v.childTrace =
          AccountServices.sentChildren w.childTrace ++ [(volume, active)]) := by
    intro u y now r volume active hle hsubmits hsame
    obtain ⟨sent, y'⟩ := out
    have hsent := hsubmits.sentChildren
    rw [hsame] at hsent
    cases sent with
    | false => exact ⟨fun _ => by simpa using hsent, fun hfalse => Bool.noConfusion hfalse⟩
    | true =>
        refine ⟨fun hfalse => Bool.noConfusion hfalse, fun _ =>
          ⟨volume, active, hsubmits.volume_ne, hle, ?_⟩⟩
        simpa using hsent
  cases h with
  | silent seqNo => exact ⟨fun _ => rfl, fun hfalse => Bool.noConfusion hfalse⟩
  | active hdecides hle hsubmits => exact hone hle hsubmits rfl
  | passive hsubmits => exact hone ((Word.le_iff _ _).2 (Nat.le_refl _)) hsubmits rfl
  -- The active child was refused, so its attempt recorded none.
  | both hrefused hdecides hle hfirst hsecond =>
      have hfirstSent := hfirst.sentChildren
      simp only [Bool.false_eq_true, if_false, List.append_nil] at hfirstSent
      exact hone ((Word.le_iff _ _).2 (Nat.le_refl _)) hsecond hfirstSent

/-! ## The invariant -/

/-- Nothing counts as cancelled before its child is final, and at most one child works. -/
structure OneWorks (s : Session) : Prop where
  clean : ∀ id l, s.childLedgers.lookup id = some l → l.finalized = false →
    l.finalCancelledVolume = 0
  single : ∀ id k l m, s.childLedgers.lookup id = some l → s.childLedgers.lookup k = some m →
    l.unresolvedVolume ≠ 0 → m.unresolvedVolume ≠ 0 → id = k

/-- At most one child works, and none works when the slice is open. -/
structure SingleChild (s : Session) : Prop extends s.OneWorks where
  openSlice : s.twapState?.isSome = true → s.sliceConsumed = false → s.Idle

/-- No child works, so none works besides another. -/
theorem oneWorks_of_idle (hclean : ∀ id l, s.childLedgers.lookup id = some l → l.finalized = false →
    l.finalCancelledVolume = 0) (hidle : s.Idle) : s.OneWorks where
  clean := hclean
  single id _ l _ hl _ hworks _ := absurd (hidle id l hl) hworks

/-- An idle session and one child more. -/
theorem OneWorks.addChild (h : s.OneWorks) (hidle : s.Idle) (child : OrderEntry) (volume : Volume)
    (price : DPrice) : (s.addChild child volume price).OneWorks := by
  simp only [Session.addChild]
  split
  · exact h
  · -- Only the new child can work.
    have hself : ∀ {new : ChildExecutionLedger} id l,
        (s.setLedger child.request.internalOrderId new).childLedgers.lookup id = some l →
        l.unresolvedVolume ≠ 0 → id = child.request.internalOrderId := by
      intro new id l hl hworks
      rw [Session.setLedger, Map.lookup_insert_eq] at hl
      split at hl
      next heq => exact heq
      next => exact absurd (hidle id l hl) hworks
    refine ⟨fun id l hl => ?_, fun id k l m hl hm hworks hworks' => ?_⟩
    · rw [Session.setLedger, Map.lookup_insert_eq] at hl
      split at hl
      · rw [← Option.some.inj hl]
        exact fun _ => rfl
      · exact h.clean id l hl
    · exact (hself id l hl hworks).trans (hself k m hm hworks').symm

namespace SingleChild

theorem of_idle (hclean : ∀ id l, s.childLedgers.lookup id = some l → l.finalized = false →
    l.finalCancelledVolume = 0) (hidle : s.Idle) : s.SingleChild where
  toOneWorks := oneWorks_of_idle hclean hidle
  openSlice _ _ := hidle

/-- Only the ledgers and the plan matter. -/
theorem of_eq (h : s.SingleChild) (hledgers : t.childLedgers = s.childLedgers)
    (hplan : t.plan = s.plan) : t.SingleChild where
  clean := hledgers ▸ h.clean
  single := hledgers ▸ h.single
  openSlice := by
    rw [twapState?_congr hplan, sliceConsumed_congr hplan]
    exact fun htwap hopen => (h.openSlice htwap hopen).of_ledgers hledgers

theorem alike (h : s.SingleChild) (halike : s.Alike t) : t.SingleChild where
  clean := halike.clean h.clean
  single := by
    intro id k l m hl hm hworks hworks'
    obtain ⟨l₀, hl₀, heq⟩ := halike.ledger hl
    obtain ⟨m₀, hm₀, heq'⟩ := halike.ledger hm
    have hsame : (unmarked l₀).unresolvedVolume = (unmarked l).unresolvedVolume := by rw [heq]
    have hsame' : (unmarked m₀).unresolvedVolume = (unmarked m).unresolvedVolume := by rw [heq']
    exact h.single id k l₀ m₀ hl₀ hm₀ (fun hzero => hworks (hsame.symm.trans hzero))
      fun hzero => hworks' (hsame'.symm.trans hzero)
  openSlice := by
    rw [twapState?_congr halike.plan, sliceConsumed_congr halike.plan]
    exact fun htwap hopen => halike.idle (h.openSlice htwap hopen)

theorem advanceSliceIfReady (h : s.SingleChild) : s.advanceSliceIfReady.SingleChild := by
  simp only [Session.advanceSliceIfReady]
  split
  · exact h
  · split
    · exact h
    next hready =>
      have hidle : s.Idle := by
        rw [← hasWorkingChildren_eq_false_iff]
        simpa using fun hworking => hready (Or.inr hworking)
      exact of_idle h.clean hidle

theorem ready (h : s.SingleChild) (b : OrderBook) : (s.ready b).SingleChild :=
  (h.alike (Alike.refreshed s b)).advanceSliceIfReady

theorem ended (h : s.SingleChild) : s.ended.SingleChild := by
  simp only [Session.ended]
  split
  · exact h.advanceSliceIfReady.of_eq rfl rfl
  · exact h.advanceSliceIfReady

/-- The ledger of a child changes, and the child does not start to work again. -/
theorem setLedger (h : s.SingleChild) {id : InternalOrderId} {l l' : ChildExecutionLedger}
    (hl : s.childLedgers.lookup id = some l)
    (hclean : l'.finalized = false → l'.finalCancelledVolume = 0)
    (hkept : l.unresolvedVolume = 0 → l'.unresolvedVolume = 0) :
    (s.setLedger id l').SingleChild where
  clean := by
    intro k m hm
    rw [Session.setLedger, Map.lookup_insert_eq] at hm
    split at hm
    · rw [← Option.some.inj hm]
      exact hclean
    · exact h.clean k m hm
  single := by
    -- Every ledger that works has a ledger under the same id that worked before.
    have hbefore : ∀ k m, (s.setLedger id l').childLedgers.lookup k = some m →
        m.unresolvedVolume ≠ 0 →
        ∃ m₀, s.childLedgers.lookup k = some m₀ ∧ m₀.unresolvedVolume ≠ 0 := by
      intro k m hm hworks
      rw [Session.setLedger, Map.lookup_insert_eq] at hm
      split at hm
      next heq =>
        rw [← Option.some.inj hm] at hworks
        exact ⟨l, heq ▸ hl, fun hzero => hworks (hkept hzero)⟩
      next => exact ⟨m, hm, hworks⟩
    intro k k' m m' hm hm' hworks hworks'
    obtain ⟨m₀, hm₀, hworks₀⟩ := hbefore k m hm hworks
    obtain ⟨m₁, hm₁, hworks₁⟩ := hbefore k' m' hm' hworks'
    exact h.single k k' m₀ m₁ hm₀ hm₁ hworks₀ hworks₁
  openSlice htwap hopen :=
    idle_setLedger (hkept (h.openSlice htwap hopen id l hl)) fun k m _ hm =>
      h.openSlice htwap hopen k m hm

end SingleChild

/-! ## Turns -/

/-- The submissions of an idle session: one child works if one was sent, else none. -/
theorem Submits.oneWorks {now : TimestampNs} {volume : Volume} {price : DPrice} {active : Bool}
    {out : Bool × Session} (hsubmits : s.Submits now routes w volume price active out v)
    (h : s.OneWorks)
    (hidle : s.Idle) : out.2.OneWorks ∧ (out.1 = false → out.2.Idle) := by
  cases hsubmits with
  | void hvoid => exact ⟨h, fun _ => hidle⟩
  | sent hvolume hplaced =>
      exact ⟨h.addChild hidle _ volume price, fun hfalse => Bool.noConfusion hfalse⟩
  | refused hvolume hplaced => exact ⟨⟨h.clean, h.single⟩, fun _ => hidle⟩

theorem Tries.oneWorks {price : DPrice} {out : Bool × Session}
    (htries : s.Tries cfg env routes w price out v)
    (h : s.OneWorks) (hidle : s.Idle) : out.2.OneWorks ∧ (out.1 = false → out.2.Idle) := by
  have hseen : ∀ seqNo, (s.seen seqNo).OneWorks := fun _ => ⟨h.clean, h.single⟩
  cases htries with
  | silent seqNo => exact ⟨hseen seqNo, fun _ => hidle⟩
  | active hdecides hle hsubmits => exact hsubmits.oneWorks (hseen _) hidle
  | passive hsubmits => exact hsubmits.oneWorks (hseen _) hidle
  | both hrefused hdecides hle hfirst hsecond =>
      obtain ⟨hbroken, hstill⟩ := hfirst.oneWorks (hseen _) hidle
      exact hsecond.oneWorks hbroken (hstill rfl)

/-- A turn keeps the invariant. -/
theorem Turn.singleChild (hturn : s.Turn cfg env routes w s' v) (h : s.SingleChild) :
    s'.SingleChild := by
  have hready := h.ready w.book
  cases hturn with
  | gone hnone => exact h.of_eq rfl rfl
  | fails hfound hfailed => exact (h.alike (Alike.refreshed s w.book)).of_eq rfl rfl
  | waits hfound hfailed => exact hready
  | ends hfound hfailed hidle hwhy => exact hready.of_eq rfl rfl
  | skips hfound hfailed hbusy hterminal => exact hready
  | @clip clipVolume price sent _ v hfound hplan hfailed hidle hcancel hbudget htries =>
      have hone :=
        (htries.oneWorks hready.toOneWorks ((hasWorkingChildren_eq_false_iff _).1 hidle)).1
      -- The session has no slices.
      have hsequential : s'.plan = .sequentialClip clipVolume := by
        rw [show s'.plan = _ from htries.plan, ready_sequential hplan, s.plan_refreshed, hplan]
      refine ⟨hone, fun htwap => ?_⟩
      obtain ⟨state, htwap⟩ := plan_of_twapState? htwap
      exact absurd (hsequential.symm.trans htwap) (by simp)
  | @slice price sent t v hfound hplan hfailed hlive hopen hcancel hbudget htries =>
      obtain ⟨hone, hidle⟩ := htries.oneWorks hready.toOneWorks (hready.openSlice hplan hopen)
      refine SingleChild.ended ?_
      cases sent with
      | false => exact SingleChild.of_idle hone.clean (hidle rfl)
      | true =>
          obtain ⟨state, htwap⟩ := plan_of_twapState? hplan
          have hledgers : (t.consumedIf true).childLedgers = t.childLedgers :=
            t.consumeSlice_childLedgers
          refine ⟨⟨hledgers ▸ hone.clean, hledgers ▸ hone.single⟩, fun _ hopen' => ?_⟩
          have hconsumed :=
            sliceConsumed_consumeSlice ((show t.plan = _ from htries.plan).trans htwap)
          exact absurd (hopen'.symm.trans hconsumed) Bool.false_ne_true
  | passes hfound hplan hfailed hlive hcancel => exact hready.ended

/-- An uninterrupted tick is a turn. -/
theorem exists_turn_tick (cfg : Config) (env : Env) (nowNs : TimestampNs)
    (s : Session) (w : World) : ∃ v, s.Turn cfg env False w ((s.tick cfg env nowNs).run w).1 v ∧
      ((s.tick cfg env nowNs).run w).2.childTrace = v.childTrace := by
  have htick := triple_tick (w := w) cfg env nowNs s fun h : False => h.elim
  obtain ⟨v, hturn, hamid⟩ := htick.ensures (fun _ _ => Relation.ReflTransGen.refl)
    ⟨World.Apart.refl w, fun h => h.elim⟩
  exact ⟨v, hturn, hamid.1.childTrace⟩

/-! ## Responses -/

/-- The reported volume of a child fits a word. -/
def Fits (s : Session) (r : TradeResponse) : Prop :=
  ∀ l, s.childLedgers.lookup r.internalOrderId = some l →
    l.confirmedTradedVolume.toNat + r.volumeTraded.toNat < 2 ^ 64

/-- A response keeps the invariant, unless the reported volume wraps. -/
theorem SingleChild.onTradeResponse {r : TradeResponse} (h : s.SingleChild) (hfits : s.Fits r) :
    (s.onTradeResponse r).1.SingleChild := by
  simp only [Session.onTradeResponse]
  split
  next => exact h
  next ledger hledger =>
    split
    next => exact h
    next hfinal =>
      have hopen : ledger.finalized = false := by simpa using hfinal
      have hclean := h.clean _ _ hledger hopen
      split
      -- The child finished: nothing of it works any more.
      next hfinished =>
        have hset : (s.setLedger r.internalOrderId
            (({ ledger.addFill r with orderState := r.newState } :
            ChildExecutionLedger).finishWith r.cancelledVolume)).SingleChild :=
          h.setLedger hledger (fun hfalse => Bool.noConfusion hfalse) fun _ =>
            ChildExecutionLedger.unresolvedVolume_of_final rfl
        refine SingleChild.advanceSliceIfReady ?_
        simp only [finalizeFinishedChild]
        split
        · exact hset.of_eq rfl rfl
        · exact hset
      next hunfinished =>
        split
        -- It failed, and what was open of it is given up.
        next hfailure =>
          have hset : (s.setLedger r.internalOrderId
              (({ ledger.addFill r with orderState := r.newState } :
              ChildExecutionLedger).failOpen)).SingleChild :=
            h.setLedger hledger (fun hfalse => Bool.noConfusion hfalse) fun _ =>
              ChildExecutionLedger.unresolvedVolume_of_final rfl
          exact SingleChild.advanceSliceIfReady (hset.of_eq rfl rfl)
        -- It works on, with what its fill leaves open.
        next hgoes =>
          refine h.setLedger hledger (fun _ => ?_) fun hzero => ?_
          · rw [← hclean]
            simp only [ChildExecutionLedger.addFill]
            split <;> rfl
          · exact ChildExecutionLedger.unresolvedVolume_addFill hopen hclean hzero
              (hfits ledger hledger)

/-! ## Fresh sessions -/

theorem singleChild_create {c : SplitConfig} {parentIndex : OrderIndex}
    {parentRequest : OrderRequest}
    {strategyId : StrategyId} {startTimeNs : TimestampNs} {s₀ : Session}
    (hcreate : create c parentIndex parentRequest strategyId startTimeNs = some s₀) :
    s₀.SingleChild := by
  have hempty : ∀ id, s₀.childLedgers.lookup id = none := by
    intro id
    rw [(fresh_create hcreate).ledgers]
    rfl
  refine SingleChild.of_idle (fun id l hl => ?_) fun id l hl => ?_
  · exact absurd ((hempty id).symm.trans hl) (by simp)
  · exact absurd ((hempty id).symm.trans hl) (by simp)

/-! ## Reported volumes -/

/-- Every ledger is one of the old ledgers with the volume that it had, or has nothing confirmed. -/
def TradedAsIn (s t : Session) : Prop :=
  ∀ id l, t.childLedgers.lookup id = some l → l.confirmedTradedVolume = 0 ∨
    ∃ m, s.childLedgers.lookup id = some m ∧ l.confirmedTradedVolume = m.confirmedTradedVolume

namespace TradedAsIn

theorem of_eq (hledgers : t.childLedgers = s.childLedgers) : s.TradedAsIn t :=
  fun _ l hl => Or.inr ⟨l, hledgers ▸ hl, rfl⟩

theorem trans {u : Session} (h : s.TradedAsIn t) (h' : t.TradedAsIn u) : s.TradedAsIn u := by
  intro id l hl
  rcases h' id l hl with hzero | ⟨m, hm, heq⟩
  · exact Or.inl hzero
  · rcases h id m hm with hzero | ⟨k, hk, heq'⟩
    · exact Or.inl (heq.trans hzero)
    · exact Or.inr ⟨k, hk, heq.trans heq'⟩

theorem of_alike (h : s.Alike t) : s.TradedAsIn t := by
  intro id l hl
  obtain ⟨m, hm, heq⟩ := h.ledger hl
  have hsame :
      (unmarked m).confirmedTradedVolume = (unmarked l).confirmedTradedVolume := by rw [heq]
  exact Or.inr ⟨m, hm, hsame.symm⟩

theorem ready (s : Session) (b : OrderBook) : s.TradedAsIn (s.ready b) :=
  (of_alike (Alike.refreshed s b)).trans (of_eq (advanceSliceIfReady_childLedgers _))

theorem ended (s : Session) : s.TradedAsIn s.ended := by
  refine of_eq ?_
  simp only [Session.ended]
  split
  · exact advanceSliceIfReady_childLedgers s
  · exact advanceSliceIfReady_childLedgers s

theorem addChild (s : Session) (child : OrderEntry) (volume : Volume) (price : DPrice) :
    s.TradedAsIn (s.addChild child volume price) := by
  intro id l hl
  simp only [Session.addChild] at hl
  split at hl
  · exact Or.inr ⟨l, hl, rfl⟩
  · rw [Session.setLedger, Map.lookup_insert_eq] at hl
    split at hl
    · rw [← Option.some.inj hl]
      exact Or.inl rfl
    · exact Or.inr ⟨l, hl, rfl⟩

theorem submits {now : TimestampNs} {volume : Volume} {price : DPrice} {active : Bool}
    {out : Bool × Session}
    (h : s.Submits now routes w volume price active out v) : s.TradedAsIn out.2 := by
  cases h with
  | void hvoid => exact of_eq rfl
  | sent hvolume hplaced => exact addChild s _ volume price
  | refused hvolume hplaced => exact of_eq rfl

theorem tries {price : DPrice} {out : Bool × Session} (h : s.Tries cfg env routes w price out v) :
    s.TradedAsIn out.2 := by
  cases h with
  | silent seqNo => exact of_eq rfl
  | active hdecides hle hsubmits => exact fun id l hl => submits hsubmits id l hl
  | passive hsubmits => exact fun id l hl => submits hsubmits id l hl
  | both hrefused hdecides hle hfirst hsecond => exact fun id l hl => submits hsecond id l hl

theorem turn (hturn : s.Turn cfg env routes w s' v) : s.TradedAsIn s' := by
  have hready := ready s w.book
  cases hturn with
  | gone hnone => exact of_eq rfl
  | fails hfound hfailed => exact (of_alike (Alike.refreshed s w.book)).trans (of_eq rfl)
  | waits hfound hfailed => exact hready
  | ends hfound hfailed hidle hwhy => exact hready.trans (of_eq rfl)
  | skips hfound hfailed hbusy hterminal => exact hready
  | clip hfound hplan hfailed hidle hcancel hbudget htries => exact hready.trans (tries htries)
  | @slice price sent t v hfound hplan hfailed hlive hopen hcancel hbudget htries =>
      have hconsumed : (t.consumedIf sent).childLedgers = t.childLedgers := by
        cases sent with
        | false => rfl
        | true => exact t.consumeSlice_childLedgers
      exact hready.trans ((tries htries).trans ((of_eq hconsumed).trans (ended _)))
  | passes hfound hplan hfailed hlive hcancel => exact hready.trans (ended _)

end TradedAsIn

/-- A response adds at most its own volume, to its own child. -/
theorem confirmed_onTradeResponse (s : Session) (r : TradeResponse)
    (hfits : s.Fits r) {id : InternalOrderId} {l : ChildExecutionLedger}
    (hl : (s.onTradeResponse r).1.childLedgers.lookup id = some l) :
    ∃ m, s.childLedgers.lookup id = some m ∧ l.confirmedTradedVolume.toNat ≤
      m.confirmedTradedVolume.toNat + if r.internalOrderId = id then
        r.volumeTraded.toNat else 0 := by
  have hsame : s.childLedgers.lookup id = some l → ∃ m, s.childLedgers.lookup id = some m ∧
      l.confirmedTradedVolume.toNat ≤
        m.confirmedTradedVolume.toNat + if r.internalOrderId = id then
          r.volumeTraded.toNat else 0 :=
    fun h => ⟨l, h, Nat.le_add_right _ _⟩
  simp only [onTradeResponse] at hl
  split at hl
  next => exact hsame hl
  next ledger hledger =>
    split at hl
    next => exact hsame hl
    next =>
      have hadded : (ledger.addFill r).confirmedTradedVolume.toNat ≤
          ledger.confirmedTradedVolume.toNat + r.volumeTraded.toNat := by
        simp only [ChildExecutionLedger.addFill]
        split
        · rw [Word.toNat_min, Word.toNat_add_of_lt (hfits ledger hledger)]
          exact Nat.min_le_right _ _
        · exact Nat.le_add_right _ _
      -- Whatever the ledger becomes, its confirmed volume is that of the fill.
      have hset : ∀ l', (s.childLedgers.insert r.internalOrderId l').lookup id = some l →
          l'.confirmedTradedVolume = (ledger.addFill r).confirmedTradedVolume →
          ∃ m, s.childLedgers.lookup id = some m ∧ l.confirmedTradedVolume.toNat ≤
            m.confirmedTradedVolume.toNat + if r.internalOrderId = id then
              r.volumeTraded.toNat else 0 := by
        intro l' hlookup hconfirmed
        rw [Map.lookup_insert_eq] at hlookup
        split at hlookup
        next heq =>
          rw [← Option.some.inj hlookup, hconfirmed, if_pos heq.symm]
          exact ⟨ledger, heq ▸ hledger, hadded⟩
        next => exact hsame hlookup
      split at hl
      next =>
        rw [advanceSliceIfReady_childLedgers, finalizeFinishedChild_childLedgers] at hl
        exact hset _ hl rfl
      next =>
        split at hl
        next =>
          rw [advanceSliceIfReady_childLedgers] at hl
          exact hset _ hl rfl
        next => exact hset _ hl rfl

end Session

namespace SessionStep

/-- The volume that a step reports for a child. -/
def reported (id : InternalOrderId) : SessionStep → Nat
  | .tick .. => 0
  | .response r => if r.internalOrderId = id then r.volumeTraded.toNat else 0

/-- The volume that the steps report for a child. -/
def reportedVolume (steps : List SessionStep) (id : InternalOrderId) :
    Nat := (steps.map (reported id)).sum

/-- The reported volume of the child of a response fits a word. -/
def Fits (state : Session × List ChildTrace) : SessionStep → Prop
  | .tick .. => True
  | .response r => state.1.Fits r

/-- Reported volumes that fit a word in total fit it at every step. -/
theorem stepsMeet_fits {steps : List SessionStep} {state : Session × List ChildTrace}
    (hconfirmed : ∀ id l, state.1.childLedgers.lookup id = some l →
      l.confirmedTradedVolume.toNat + reportedVolume steps id < 2 ^ 64)
    (htotal : ∀ id, reportedVolume steps id < 2 ^ 64) : StepsMeet apply Fits state steps := by
  induction steps generalizing state with
  | nil => trivial
  | cons step rest ih =>
      -- What is reported of a child still lies ahead, or was confirmed by the step.
      have hsplit : ∀ id, reportedVolume (step :: rest) id = step.reported id +
          reportedVolume rest id := by
        intro id
        rw [reportedVolume, List.map_cons, List.sum_cons, reportedVolume]
      have hrest : ∀ id, reportedVolume rest id < 2 ^ 64 := by
        intro id
        have hall := htotal id
        rw [hsplit] at hall
        omega
      cases step with
      | tick cfg env nowNs w =>
          refine ⟨trivial, ih (fun id l hl => ?_) hrest⟩
          obtain ⟨v, hturn, -⟩ :=
            Session.exists_turn_tick cfg env nowNs state.1 { w with childTrace := state.2 }
          -- A tick confirms nothing: its ledgers are new, or those before it.
          rcases Session.TradedAsIn.turn hturn id l hl with hzero | ⟨m, hm, heq⟩
          · rw [hzero, UInt64.toNat_zero, Nat.zero_add]
            exact hrest id
          · have hold := hconfirmed id m hm
            rw [hsplit] at hold
            rw [heq]
            omega
      | response r =>
          have hfits : state.1.Fits r := by
            intro l hl
            have hold := hconfirmed r.internalOrderId l hl
            simp only [hsplit, reported, if_true] at hold
            omega
          refine ⟨hfits, ih (fun id l hl => ?_) hrest⟩
          obtain ⟨m, hm, hle⟩ := Session.confirmed_onTradeResponse state.1 r hfits hl
          have hold := hconfirmed id m hm
          simp only [hsplit, reported] at hold
          omega

end SessionStep

end AccountServices
