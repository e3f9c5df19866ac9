import AccountServices.Execution.SequentialClips

/-!
# What the child trace tells

The records of a submission and of the end of a child, against what the session did. The submissions
are noted beside the program: each function that submits has a twin that returns them too and does
the same otherwise (`run_tickNoting`). The record of a result has the right child, but the flag and
the price are exchanged on the way to the recorder, so that it says that the child was sent whatever
the router answered, and at a price of one or zero. The record of an end is right: there is one for
each child, and its volumes add up.
-/

set_option autoImplicit false

namespace AccountServices

open Foundation Program

/-! ## The fields of the records -/

/-- What a `ChildSubmitResult` says. -/
structure SubmitOutcome where
  childId : InternalOrderId
  price : DPrice
  success : Bool
  deriving DecidableEq

/-- What a `ChildFinalized` says about the volumes. -/
structure ChildEnd where
  childId : InternalOrderId
  state : OrderState
  entrustVolume : Volume
  tradedVolume : Volume
  cancelledVolume : Volume
  deriving DecidableEq

/-- The outcome in a record. -/
def ChildTrace.outcome? : ChildTrace → Option SubmitOutcome
  | .submitResult _ childId _ price success _ => some ⟨childId, price, success⟩
  | _ => none

/-- The end of a child in a record. -/
def ChildTrace.childEnd? : ChildTrace → Option ChildEnd
  | .finalized _ childId _ state entrustVolume _ tradedVolume _ _ _ cancelledVolume _ _ _ _ _ =>
      some ⟨childId, state, entrustVolume, tradedVolume, cancelledVolume⟩
  | _ => none

/-- The outcomes on record. -/
def outcomes (records : List ChildTrace) :
    List SubmitOutcome := records.filterMap ChildTrace.outcome?

/-- The ends on record. -/
def childEnds (records : List ChildTrace) : List ChildEnd := records.filterMap ChildTrace.childEnd?

theorem outcomes_append (records more : List ChildTrace) :
    outcomes (records ++ more) = outcomes records ++ outcomes more := List.filterMap_append

theorem childEnds_append (records more : List ChildTrace) :
    childEnds (records ++ more) = childEnds records ++ childEnds more := List.filterMap_append

/-! ## Submissions -/

/-- A child that `submit_child` hands to `submit_internal_order`, with its answer. -/
structure Submission where
  childId : InternalOrderId
  volume : Volume
  price : DPrice
  sent : Bool

/-- What the record of the submission should say. -/
def Submission.truth (x : Submission) : SubmitOutcome := ⟨x.childId, x.price, x.sent⟩

/-- What it says. -/
def Submission.told (x : Submission) : SubmitOutcome := ⟨x.childId, if x.sent then 1 else 0, true⟩

theorem Submission.told_eq_truth_iff (x : Submission) :
    x.told = x.truth ↔ x.sent = true ∧ x.price = 1 := by
  obtain ⟨childId, volume, price, sent⟩ := x
  cases sent with
  | false => simp [told, truth]
  | true => simp [told, truth, eq_comm]

/-- A program that submits nothing. -/
def Service.noting {α : Type} (p : Service α) : Service (α × List Submission) := do
  let a ← p
  pure (a, [])

namespace Session

/-- `submit_child`, noting the submission. -/
def submitChildNoting (s : Session) (now : TimestampNs) (volume : Volume) (price : DPrice)
    (activeClaimed : Bool) : Service ((Bool × Session) × List Submission) := do
  if volume = 0 ∨ price = 0 then pure ((false, s), [])
  else
    Service.recordTrace [s.attemptTrace volume price activeClaimed]
    let (sent, child) ← Service.submitInternalOrder now
        (s.childEntry now volume price activeClaimed)
    let submission : Submission := ⟨child.request.internalOrderId, volume, price, sent⟩
    if sent then
      Service.recordTrace
        [s.resultTrace child (decide (child.request.dpriceEntrust ≠ 0)) 1 "submitted"]
      pure ((true, s.addChild child volume price), [submission])
    else
      Service.recordTrace
        [s.resultTrace child (decide (child.request.dpriceEntrust ≠ 0)) 0 "route_failed"]
      let s' := { s with failed := true, terminal := true }
      s'.syncParentView now
      pure ((false, s'), [submission])

/-- `try_active_submit`, noting the submission. -/
def tryActiveNoting (s : Session) (cfg : Config) (env : Env) (view : Option MarketDataView)
    (price : DPrice) (budget : Volume) : Service ((Bool × Session) × List Submission) :=
  match view with
  | none => pure ((false, s), [])
  | some view => do
      if ¬ cfg.hasActiveStrategy ∨ budget = 0 then pure ((false, s), [])
      else if view.predictionState ≠ .fresh then pure ((false, s), [])
      else if view.publishSeqNo = s.lastActivePublishSeqNo then pure ((false, s), [])
      else
        let decision := env.evaluate s.parentRequest view budget
        let s := { s with lastActivePublishSeqNo := view.publishSeqNo }
        if ¬ decision.shouldSubmit ∨ decision.volume = 0 ∨ decision.volume > budget then
          pure ((false, s), [])
        else s.submitChildNoting env.nowNs decision.volume price true

/-- `SequentialClipSession::tick`, noting the submissions. -/
def tickSequentialNoting (s : Session) (cfg : Config) (env : Env) :
    Service (Session × List Submission) := do
  if s.failed ∨ s.hasWorkingChildren ∨ s.cancelRequested ∨ s.currentBudgetVolume = 0 then
    (s.tickSequential cfg env).noting
  else
    match s.resolveSubmitPrice cfg env with
    | none => (s.tickSequential cfg env).noting
    | some (view, price) =>
        let ((active, s₁), first) ← s.tryActiveNoting cfg env view price s.currentBudgetVolume
        let ((_, s₂), second) ←
          (if active then pure ((true, s₁), [])
          else s₁.submitChildNoting env.nowNs s.currentBudgetVolume price false)
        s₂.syncParentView env.nowNs
        pure (s₂, first ++ second)

/-- The submissions for the current slice, noted. -/
def submitSliceNoting (s : Session) (cfg : Config) (env : Env) (nowNs deadline : TimestampNs)
    (budget : Volume) (view : Option MarketDataView) (price : DPrice) :
    Service (Session × List Submission) := do
  let (s₁, first) ←
    (if s.sliceConsumed then pure (s, [])
    else do
      let ((active, s'), noted) ← s.tryActiveNoting cfg env view price budget
      pure (if active then s'.consumeSlice else s', noted))
  if ¬ s₁.sliceConsumed ∧ nowNs ≥ deadline then
    let ((sent, s'), second) ← s₁.submitChildNoting env.nowNs budget price false
    pure (if sent then s'.consumeSlice else s', first ++ second)
  else pure (s₁, first)

/-- `TwapSession::tick`, noting the submissions. -/
def tickTwapNoting (s : Session) (cfg : Config) (env : Env) (nowNs : TimestampNs) :
    Service (Session × List Submission) := do
  if s.failed then (s.tickTwap cfg env nowNs).noting
  else
    let ready := s.advanceSliceIfReady
    match ready.twapState? with
    | none => (s.tickTwap cfg env nowNs).noting
    | some t =>
        if t.exhausted ∨ ready.cancelRequested ∨ ready.currentBudgetVolume = 0 then
          (s.tickTwap cfg env nowNs).noting
        else
          match ready.resolveSubmitPrice cfg env with
          | none => (s.tickTwap cfg env nowNs).noting
          | some (view, price) =>
              let (s', noted) ← ready.submitSliceNoting cfg env nowNs t.nextDeadlineNs
                ready.currentBudgetVolume view price
              let s'' ← s'.endSlice env.nowNs
              pure (s'', noted)

/-- `tick`, noting the submissions. -/
def tickNoting (s : Session) (cfg : Config) (env : Env) (nowNs : TimestampNs) :
    Service (Session × List Submission) := do
  let (found, s) ← Program.read .internal fun w => s.refreshParentState w.book
  if found then
    match s.plan with
    | .sequentialClip _ => s.tickSequentialNoting cfg env
    | .twap _ => s.tickTwapNoting cfg env nowNs
  else (do s.syncParentView env.nowNs; pure s : Service Session).noting

/-! ## Noting changes nothing -/

/-- The first program does what the second does, and notes submissions. -/
def Notes {α : Type} (p' : Service (α × List Submission)) (p : Service α) : Prop :=
  ∀ w, p.run w = ((p'.run w).1.1, (p'.run w).2)

namespace Notes

variable {α β : Type}

theorem noted (p : Service α) (l : List Submission) :
    Notes (do let a ← p; Pure.pure (a, l)) p := fun w => by
  rw [run_bind]
  rfl

theorem noting (p : Service α) : Notes p.noting p := noted p []

theorem pure (a : α) (l : List Submission) : Notes (Pure.pure (a, l)) (Pure.pure a) := fun _ => rfl

theorem bind {p' : Service (α × List Submission)} {p : Service α}
    {f' : α × List Submission → Service (β × List Submission)}
    {f : α → Service β} (hp : Notes p' p) (hf : ∀ a l, Notes (f' (a, l)) (f a)) :
    Notes (p' >>= f') (p >>= f) := by
  intro w
  rw [run_bind, run_bind, hp w]
  exact hf _ _ _

/-- After a step that submits nothing. -/
theorem after {γ : Type} {p : Service γ} {f' : γ → Service (β × List Submission)}
    {f : γ → Service β} (hf : ∀ c, Notes (f' c) (f c)) : Notes (p >>= f') (p >>= f) := by
  intro w
  rw [run_bind, run_bind]
  exact hf _ _

theorem ite {c : Prop} [Decidable c] {p' q' : Service (α × List Submission)} {p q : Service α}
    (hp : c → Notes p' p) (hq : ¬ c → Notes q' q) :
    Notes (if c then p' else q') (if c then p else q) := by
  split
  next h => exact hp h
  next h => exact hq h

end Notes

theorem notes_submitChild (s : Session) (now : TimestampNs) (volume : Volume)
    (price : DPrice) (active : Bool) :
    Notes (s.submitChildNoting now volume price active)
      (s.submitChild now volume price active) := by
  refine Notes.ite (fun _ => Notes.pure _ _) fun _ => ?_
  refine Notes.after fun _ => Notes.after fun out => ?_
  refine Notes.ite (fun _ => ?_) fun _ => ?_
  · exact Notes.after fun _ => Notes.pure _ _
  · exact Notes.after fun _ => Notes.after fun _ => Notes.pure _ _

theorem notes_tryActive (s : Session) (cfg : Config) (env : Env) (view : Option MarketDataView)
    (price : DPrice) (budget : Volume) :
    Notes (s.tryActiveNoting cfg env view price budget)
      (s.tryActive cfg env view price budget) := by
  cases view with
  | none => exact Notes.pure _ _
  | some view =>
      refine Notes.ite (fun _ => Notes.pure _ _) fun _ => ?_
      refine Notes.ite (fun _ => Notes.pure _ _) fun _ => ?_
      refine Notes.ite (fun _ => Notes.pure _ _) fun _ => ?_
      exact Notes.ite (fun _ => Notes.pure _ _) fun _ => notes_submitChild _ _ _ _ _

theorem notes_tickSequential (s : Session) (cfg : Config) (env : Env) :
    Notes (s.tickSequentialNoting cfg env) (s.tickSequential cfg env) := by
  rw [tickSequentialNoting]
  split
  next => exact Notes.noting _
  next hgo =>
    simp only [not_or] at hgo
    obtain ⟨hfailed, hworking, hcancel, hbudget⟩ := hgo
    cases hprice : s.resolveSubmitPrice cfg env with
    | none => exact Notes.noting _
    | some submitPrice =>
        obtain ⟨view, price⟩ := submitPrice
        rw [tickSequential, if_neg hfailed, if_neg hworking, if_neg hcancel, if_neg hbudget, hprice]
        refine Notes.bind (notes_tryActive _ _ _ _ _ _) fun out first => ?_
        refine Notes.bind (Notes.ite (fun _ => Notes.pure _ _) fun _ => notes_submitChild _ _ _ _ _)
          fun out second => ?_
        exact Notes.after fun _ => Notes.pure _ _

theorem notes_submitSlice (s : Session) (cfg : Config) (env : Env) (nowNs deadline : TimestampNs)
    (budget : Volume) (view : Option MarketDataView) (price : DPrice) :
    Notes (s.submitSliceNoting cfg env nowNs deadline budget view price)
      (s.submitSlice cfg env nowNs deadline budget view price) := by
  refine Notes.bind (Notes.ite (fun _ => Notes.pure _ _) fun _ => ?_) fun s₁ first => ?_
  · exact Notes.bind (notes_tryActive _ _ _ _ _ _) fun out noted => Notes.pure _ _
  · refine Notes.ite (fun _ => ?_) fun _ => Notes.pure _ _
    exact Notes.bind (notes_submitChild _ _ _ _ _) fun out second => Notes.pure _ _

theorem notes_tickTwap (s : Session) (cfg : Config) (env : Env) (nowNs : TimestampNs) :
    Notes (s.tickTwapNoting cfg env nowNs) (s.tickTwap cfg env nowNs) := by
  rw [tickTwapNoting]
  split
  next => exact Notes.noting _
  next hfailed =>
    simp only
    cases htwap : s.advanceSliceIfReady.twapState? with
    | none => exact Notes.noting _
    | some t =>
        simp only
        split
        next => exact Notes.noting _
        next hgo =>
          simp only [not_or] at hgo
          obtain ⟨hlive, hcancel, hbudget⟩ := hgo
          cases hprice : s.advanceSliceIfReady.resolveSubmitPrice cfg env with
          | none => exact Notes.noting _
          | some submitPrice =>
              obtain ⟨view, price⟩ := submitPrice
              rw [tickTwap, if_neg hfailed]
              simp only [htwap]
              rw [if_neg hlive, if_neg hcancel, if_neg hbudget, hprice]
              refine Notes.bind (notes_submitSlice _ _ _ _ _ _ _ _) fun s' noted => ?_
              exact Notes.noted _ _

/-- A tick that notes its submissions is a tick. -/
theorem run_tickNoting (s : Session) (cfg : Config) (env : Env) (nowNs : TimestampNs) :
    Notes (s.tickNoting cfg env nowNs) (s.tick cfg env nowNs) := by
  refine Notes.after fun out => Notes.ite (fun _ => ?_) fun _ => Notes.noting _
  cases out.2.plan with
  | sequentialClip clipVolume => exact notes_tickSequential _ _ _
  | twap t => exact notes_tickTwap _ _ _ _

/-! ## What a tick leaves of the ledgers -/

variable {s t u : Session} {w v x : World} {subs more : List Submission} {now : TimestampNs}

/-- A mark of a cancel leaves what a record of the ledger says. -/
structure SameBut (l m : ChildExecutionLedger) : Prop where
  finalized : m.finalized = l.finalized
  childOrderId : m.childOrderId = l.childOrderId
  entrustVolume : m.entrustVolume = l.entrustVolume
  consistent : l.Consistent → m.Consistent

theorem sameBut_of_unmarked {l m : ChildExecutionLedger} (h : unmarked m = unmarked l) :
    SameBut l m := by
  cases l
  cases m
  simp only [unmarked, ChildExecutionLedger.mk.injEq] at h
  obtain ⟨rfl, rfl, rfl, rfl, rfl, rfl, rfl, rfl, rfl, -, rfl⟩ := h
  exact ⟨rfl, rfl, rfl, fun hcons => ⟨hcons.known_le, hcons.open_cancelled⟩⟩

/-- The ledgers of the one session are those of the other, but for the marks of cancels, and those
of submissions that were sent. -/
structure Adds (s t : Session) (subs : List Submission) : Prop where
  kept : ∀ id l, s.childLedgers.lookup id = some l → ∃ m, t.childLedgers.lookup id = some m ∧
    unmarked m = unmarked l
  new : ∀ id m, t.childLedgers.lookup id = some m → s.childLedgers.lookup id = none →
    m.Consistent ∧ m.finalized = false ∧ m.childOrderId = id ∧
      ∃ x ∈ subs, x.sent = true ∧ x.childId = id ∧ x.volume = m.entrustVolume

theorem Adds.of_alike (h : s.Alike t) : s.Adds t [] where
  kept id l hl := by
    have hmap := h.ledgers id
    rw [hl, Option.map_some] at hmap
    exact Option.map_eq_some_iff.1 hmap
  new id m hm hnone := by
    have hmap := h.ledgers id
    rw [hm, hnone] at hmap
    exact absurd hmap (by simp)

theorem Adds.of_ledgers (h : t.childLedgers = s.childLedgers) : s.Adds t [] where
  kept id l hl := ⟨l, h ▸ hl, rfl⟩
  new id m hm hnone := by
    rw [h, hnone] at hm
    exact absurd hm (by simp)

theorem Adds.trans (h : s.Adds t subs) (h' : t.Adds u more) : s.Adds u (subs ++ more) where
  kept id l hl := by
    obtain ⟨m, hm, heq⟩ := h.kept id l hl
    obtain ⟨k, hk, heq'⟩ := h'.kept id m hm
    exact ⟨k, hk, heq'.trans heq⟩
  new id k hk hnone := by
    cases hm : t.childLedgers.lookup id with
    | none =>
        obtain ⟨hcons, hopen, hid, x, hx, hsubmitted⟩ := h'.new id k hk hm
        exact ⟨hcons, hopen, hid, x, List.mem_append_right _ hx, hsubmitted⟩
    | some m =>
        obtain ⟨k', hk', heq⟩ := h'.kept id m hm
        obtain rfl : k' = k := Option.some.inj (hk'.symm.trans hk)
        obtain ⟨hcons, hopen, hid, x, hx, hsent, hchild, hvolume⟩ := h.new id m hm hnone
        have hsame := sameBut_of_unmarked heq
        exact ⟨hsame.consistent hcons, hsame.finalized.trans hopen, hsame.childOrderId.trans hid, x,
          List.mem_append_left _ hx, hsent, hchild, hvolume.trans hsame.entrustVolume.symm⟩

theorem Adds.weaken (h : s.Adds t []) : s.Adds t subs where
  kept := h.kept
  new id m hm hnone := by
    obtain ⟨-, -, -, x, hx, -⟩ := h.new id m hm hnone
    exact absurd hx List.not_mem_nil

theorem Adds.addChild (s : Session) (child : OrderEntry) (volume : Volume) (price : DPrice) :
    s.Adds (s.addChild child volume price)
      [⟨child.request.internalOrderId, volume, price, true⟩] := by
  rw [Session.addChild]
  split
  next l hl =>
    exact ⟨fun id m hm => ⟨m, hm, rfl⟩, fun id m hm hnone => absurd (hm.symm.trans hnone) (by simp)⟩
  next hnone =>
    constructor
    · intro id l hl
      rw [setLedger, Map.lookup_insert_eq]
      split
      next heq =>
        rw [heq, hnone] at hl
        exact absurd hl (by simp)
      next => exact ⟨l, hl, rfl⟩
    · intro id m hm hfresh
      rw [setLedger, Map.lookup_insert_eq] at hm
      split at hm
      next heq =>
        rw [← Option.some.inj hm]
        exact ⟨⟨Nat.zero_le _, fun _ => rfl⟩, rfl, heq.symm, _, List.mem_singleton_self _, rfl,
          heq.symm, rfl⟩
      next => exact absurd (hm.symm.trans hfresh) (by simp)

/-! ## What a tick records -/

/-- From one state to another with submissions: the records tell of them in order, of no end, and
the ledgers are those of the submissions. -/
structure Tells (s : Session) (w : World) (t : Session) (subs : List Submission) (v : World) :
    Prop where
  records : ∃ added, v.childTrace = w.childTrace ++ added ∧
    outcomes added = subs.map Submission.told ∧ childEnds added = []
  ledgers : s.Adds t subs

theorem Tells.trans (h : s.Tells w t subs v) (h' : t.Tells v u more x) :
    s.Tells w u (subs ++ more) x where
  records := by
    obtain ⟨added, htrace, htold, hends⟩ := h.records
    obtain ⟨added', htrace', htold', hends'⟩ := h'.records
    refine ⟨added ++ added', ?_, ?_, ?_⟩
    · rw [htrace', htrace, List.append_assoc]
    · rw [outcomes_append, htold, htold', List.map_append]
    · rw [childEnds_append, hends, hends', List.append_nil]
  ledgers := h.ledgers.trans h'.ledgers

theorem Tells.of_still (hledgers : t.childLedgers = s.childLedgers)
    (htrace : v.childTrace = w.childTrace) : s.Tells w t [] v where
  records := ⟨[], by rw [htrace, List.append_nil], rfl, rfl⟩
  ledgers := Adds.of_ledgers hledgers

/-- Steps that leave the records and the ledgers alone may follow. -/
theorem Tells.still (h : s.Tells w t subs v) (hledgers : u.childLedgers = t.childLedgers)
    (htrace : x.childTrace = v.childTrace) : s.Tells w u subs x := by
  have htells := h.trans (of_still hledgers htrace)
  rw [List.append_nil] at htells
  exact htells

/-- They may also precede. -/
theorem Tells.after (h : t.Tells v u subs x) (hledgers : t.childLedgers = s.childLedgers)
    (htrace : v.childTrace = w.childTrace) :
    s.Tells w u subs x := (of_still hledgers htrace).trans h

theorem ensures_syncParentView (s : Session) (now : TimestampNs) (w : World) :
    Ensures (s.syncParentView now) w fun _ v => v.childTrace = w.childTrace := by
  refine Ensures.bind ?_
  refine (Preserves.ensures (Service.preserves_onBook (stable_childTrace w.childTrace) now
    fun _ h => h) rfl).mono fun _ v htrace => ?_
  exact Ensures.pure htrace

/-- The router writes no record, and keeps the price of the child. -/
theorem ensures_submitInternalOrder (s : Session) (now : TimestampNs)
    (volume : Volume) (price : DPrice) (active : Bool) (w : World) :
    Ensures (Service.submitInternalOrder now (s.childEntry now volume price active)) w fun out v =>
      v.childTrace = w.childTrace ∧ out.2.request.dpriceEntrust = price := by
  have hid : (s.childEntry now volume price active).request.internalOrderId = 0 := rfl
  have htriple := Service.triple_submitInternalOrder w now hid rfl fun h : False => h.elim
  refine (htriple.ensures (fun _ _ => Relation.ReflTransGen.refl)
    ⟨World.Apart.refl w, fun h => h.elim⟩).mono ?_
  rintro out u ⟨index, v, hchild, hplaced, hamid⟩
  refine ⟨hamid.1.childTrace.trans (hplaced.frame.2.trans (World.allocateOrderId_frame _).2), ?_⟩
  rw [hchild]
  rfl

/-- The records of a submission. -/
theorem tells_submitChild (s : Session) (now : TimestampNs) (volume : Volume)
    (price : DPrice) (active : Bool) (w : World) :
    Ensures (s.submitChildNoting now volume price active) w fun out v =>
      s.Tells w out.1.2 out.2 v := by
  rw [submitChildNoting]
  split
  next => exact Ensures.pure (Tells.of_still rfl rfl)
  next hgo =>
    simp only [not_or] at hgo
    refine Ensures.bind (Ensures.modify (Ensures.bind ?_))
    refine (ensures_submitInternalOrder s now volume price active _).mono ?_
    rintro ⟨sent, child⟩ v ⟨htrace, hprice⟩
    -- The recorder takes the price for the flag, and a submission has a price.
    have hsuccess : decide (child.request.dpriceEntrust ≠ 0) = true :=
      decide_eq_true (hprice ▸ hgo.2)
    simp only
    rw [hsuccess]
    split
    next hsent =>
      refine Ensures.bind (Ensures.modify (Ensures.pure ⟨⟨[s.attemptTrace volume price active,
        s.resultTrace child true 1 "submitted"], ?_, ?_, rfl⟩, ?_⟩))
      · rw [htrace, List.append_assoc]
        rfl
      · rw [hsent]
        rfl
      · rw [hsent]
        exact Adds.addChild s child volume price
    next hrefused =>
      have hsent : sent = false := by simpa using hrefused
      refine Ensures.bind (Ensures.modify (Ensures.bind ?_))
      refine (ensures_syncParentView _ now _).mono fun _ u hmirror => Ensures.pure
        ⟨⟨[s.attemptTrace volume price active, s.resultTrace child true 0 "route_failed"], ?_,
          ?_, rfl⟩, ?_⟩
      · rw [hmirror, htrace, List.append_assoc]
        rfl
      · rw [hsent]
        rfl
      · have hledgers :=
          Adds.of_ledgers (s := s) (t := { s with failed := true, terminal := true }) rfl
        exact hledgers.weaken

theorem tells_tryActive (s : Session) (cfg : Config) (env : Env) (view : Option MarketDataView)
    (price : DPrice) (budget : Volume) (w : World) :
    Ensures (s.tryActiveNoting cfg env view price budget) w fun out v =>
      s.Tells w out.1.2 out.2 v := by
  unfold tryActiveNoting
  split
  next => exact Ensures.pure (Tells.of_still rfl rfl)
  next view =>
    split
    · exact Ensures.pure (Tells.of_still rfl rfl)
    split
    · exact Ensures.pure (Tells.of_still rfl rfl)
    split
    · exact Ensures.pure (Tells.of_still rfl rfl)
    simp only
    split
    · exact Ensures.pure (Tells.of_still rfl rfl)
    · exact (tells_submitChild _ _ _ _ _ w).mono fun out v h => h.after rfl rfl

/-- A session that is mirrored. -/
theorem tells_sync_pure (s : Session) (now : TimestampNs) (h : t.childLedgers = s.childLedgers)
    (w : World) : Ensures (Service.noting (do t.syncParentView now; pure t : Service Session)) w
      fun out v => s.Tells w out.1 out.2 v := by
  refine Ensures.bind (Ensures.bind ?_)
  exact (ensures_syncParentView t now w).mono fun _ v htrace =>
    Ensures.pure (Ensures.pure (Tells.of_still h htrace))

theorem tells_finishIfIdle (s : Session) (now : TimestampNs) (h : t.childLedgers = s.childLedgers)
    (w : World) : Ensures (t.finishIfIdle now).noting w fun out v => s.Tells w out.1 out.2 v := by
  rw [finishIfIdle]
  split
  next => exact tells_sync_pure (t := { t with terminal := true }) s now h w
  next =>
    split
    next => exact Ensures.pure (Tells.of_still h rfl)
    next => exact tells_sync_pure s now h w

theorem tells_endSlice (s : Session) (now : TimestampNs) (w : World) :
    Ensures (s.endSlice now) w fun t v => t.childLedgers = s.childLedgers ∧
      v.childTrace = w.childTrace := by
  have hend : ∀ t : Session, t.childLedgers = s.childLedgers →
      Ensures (if t.terminal then pure t else do t.syncParentView now; pure t : Service Session) w
        fun t v => t.childLedgers = s.childLedgers ∧ v.childTrace = w.childTrace := by
    intro t ht
    split
    next => exact Ensures.pure ⟨ht, rfl⟩
    next =>
      exact Ensures.bind ((ensures_syncParentView t now w).mono fun _ v htrace =>
        Ensures.pure ⟨ht, htrace⟩)
  have hadvance := s.advanceSliceIfReady_childLedgers
  rw [endSlice]
  apply hend
  split
  next => exact hadvance
  next => exact hadvance

/-- The records of a tick of a sequential session. -/
theorem tells_tickSequential (s : Session) (cfg : Config) (env : Env) (w : World) :
    Ensures (s.tickSequentialNoting cfg env) w fun out v => s.Tells w out.1 out.2 v := by
  rw [tickSequentialNoting]
  split
  next hquiet =>
    -- A turn without a submission is the tick of the program itself.
    rw [tickSequential]
    split
    next => exact tells_sync_pure (t := { s with terminal := true }) s env.nowNs rfl w
    split
    next => exact tells_sync_pure s env.nowNs rfl w
    split
    next => exact tells_sync_pure (t := { s with terminal := true }) s env.nowNs rfl w
    split
    next => exact tells_finishIfIdle s env.nowNs rfl w
    next hfailed hworking hcancel hbudget =>
      exact absurd hquiet (by simp [hfailed, hworking, hcancel, hbudget])
  next hgo =>
    simp only [not_or] at hgo
    obtain ⟨hfailed, hworking, hcancel, hbudget⟩ := hgo
    cases hprice : s.resolveSubmitPrice cfg env with
    | none =>
        simp only
        rw [tickSequential, if_neg hfailed, if_neg hworking, if_neg hcancel, if_neg hbudget, hprice]
        exact tells_sync_pure s env.nowNs rfl w
    | some submitPrice =>
        obtain ⟨view, price⟩ := submitPrice
        refine Ensures.bind ((tells_tryActive s cfg env view price _ w).mono ?_)
        rintro ⟨⟨active, s₁⟩, first⟩ w₁ hfirst
        refine Ensures.bind
          (Ensures.mono (Q := fun out v => s.Tells w out.1.2 (first ++ out.2) v) ?_ ?_)
        · split
          next => exact Ensures.pure (by simpa using hfirst)
          next => exact (tells_submitChild _ _ _ _ _ w₁).mono fun out v hsecond =>
            hfirst.trans hsecond
        · rintro ⟨⟨sent, s₂⟩, second⟩ w₂ hboth
          exact Ensures.bind ((ensures_syncParentView s₂ env.nowNs w₂).mono fun _ v htrace =>
            Ensures.pure (hboth.still rfl htrace))

theorem tells_submitSlice (s : Session) (cfg : Config) (env : Env) (nowNs deadline : TimestampNs)
    (budget : Volume) (view : Option MarketDataView) (price : DPrice) (w : World) :
    Ensures (s.submitSliceNoting cfg env nowNs deadline budget view price) w
      fun out v => s.Tells w out.1 out.2 v := by
  rw [submitSliceNoting]
  refine Ensures.bind (Ensures.mono (Q := fun out v => s.Tells w out.1 out.2 v) ?_ ?_)
  · split
    next => exact Ensures.pure (Tells.of_still rfl rfl)
    next =>
      refine Ensures.bind ((tells_tryActive s cfg env view price budget w).mono ?_)
      rintro ⟨⟨active, s'⟩, noted⟩ v hnoted
      refine Ensures.pure ?_
      cases active with
      | false => exact hnoted
      | true => exact hnoted.still s'.consumeSlice_childLedgers rfl
  · rintro ⟨s₁, first⟩ w₁ hfirst
    simp only
    split
    next =>
      refine Ensures.bind ((tells_submitChild s₁ env.nowNs budget price false w₁).mono ?_)
      rintro ⟨⟨sent, s'⟩, second⟩ v hsecond
      refine Ensures.pure ?_
      cases sent with
      | false => exact hfirst.trans hsecond
      | true => exact (hfirst.trans hsecond).still s'.consumeSlice_childLedgers rfl
    next => exact Ensures.pure hfirst

/-- The records of a tick of a TWAP session. -/
theorem tells_tickTwap (s : Session) (cfg : Config) (env : Env) (nowNs : TimestampNs) (w : World) :
    Ensures (s.tickTwapNoting cfg env nowNs) w fun out v => s.Tells w out.1 out.2 v := by
  have hready := s.advanceSliceIfReady_childLedgers
  rw [tickTwapNoting]
  split
  next hfailed =>
    rw [tickTwap, if_pos hfailed]
    exact tells_sync_pure (t := { s with terminal := true }) s env.nowNs rfl w
  next hfailed =>
    rw [tickTwap, if_neg hfailed]
    simp only
    cases htwap : s.advanceSliceIfReady.twapState? with
    | none => exact Ensures.pure (Tells.of_still hready rfl)
    | some t =>
        simp only
        split
        next hquiet =>
          -- A turn without a submission is the tick of the program itself.
          split
          next =>
            split
            next => exact tells_sync_pure s env.nowNs hready w
            next =>
              exact tells_sync_pure (t := { s.advanceSliceIfReady with terminal := true })
                s env.nowNs hready w
          split
          next => exact tells_finishIfIdle s env.nowNs hready w
          split
          next =>
            exact Ensures.bind
              ((tells_endSlice s.advanceSliceIfReady env.nowNs w).mono fun t v hstill =>
              Ensures.pure (Tells.of_still (hstill.1.trans hready) hstill.2))
          next hlive hcancel hbudget => exact absurd hquiet (by simp [hlive, hcancel, hbudget])
        next hgo =>
          simp only [not_or] at hgo
          obtain ⟨hlive, hcancel, hbudget⟩ := hgo
          cases hprice : s.advanceSliceIfReady.resolveSubmitPrice cfg env with
          | none =>
              simp only
              rw [if_neg hlive, if_neg hcancel, if_neg hbudget]
              exact tells_sync_pure s env.nowNs hready w
          | some submitPrice =>
              obtain ⟨view, price⟩ := submitPrice
              refine Ensures.bind
                ((tells_submitSlice s.advanceSliceIfReady cfg env nowNs _ _ view price w).mono ?_)
              rintro ⟨s', noted⟩ v hnoted
              exact Ensures.bind ((tells_endSlice s' env.nowNs v).mono fun t u hstill =>
                Ensures.pure ((hnoted.after hready rfl).still hstill.1 hstill.2))

/-- The records of a tick. -/
theorem tells_tick (s : Session) (cfg : Config) (env : Env) (nowNs : TimestampNs) (w : World) :
    Ensures (s.tickNoting cfg env nowNs) w fun out v => s.Tells w out.1 out.2 v := by
  refine Ensures.bind (Ensures.read ?_)
  cases hparent : w.book.findOrder s.parentRequest.internalOrderId with
  | none =>
      have hgone : s.refreshParentState w.book = (false, s.broken) := by
        simp only [refreshParentState, hparent]
        rfl
      simp only [hgone, Bool.false_eq_true, if_false]
      exact tells_sync_pure (t := s.broken) s env.nowNs rfl w
  | some parent =>
      have hrefreshed : s.refreshParentState w.book = (true, s.refreshed w.book) := by
        simp only [refreshParentState, hparent]
        rfl
      have hmarks : s.Tells w (s.refreshed w.book) [] w :=
        ⟨⟨[], (List.append_nil _).symm, rfl, rfl⟩, Adds.of_alike (Alike.refreshed s w.book)⟩
      simp only [hrefreshed, if_true]
      cases (s.refreshed w.book).plan with
      | sequentialClip clipVolume =>
          exact (tells_tickSequential _ cfg env w).mono fun out v h => hmarks.trans h
      | twap t => exact (tells_tickTwap _ cfg env nowNs w).mono fun out v h => hmarks.trans h

/-! ## What a response records -/

/-- The ledger of a child after a response. -/
structure Follows (l l' : ChildExecutionLedger) : Prop where
  consistent : l'.Consistent
  childOrderId : l'.childOrderId = l.childOrderId
  entrustVolume : l'.entrustVolume = l.entrustVolume

/-- What a response does to the session and the records: nothing, or it changes the ledger of an
open child and records its end if there is one. -/
inductive Responds (s : Session) (r : TradeResponse) : Session × List ChildTrace → Prop
  | ignored : Responds s r (s, [])
  | goesOn {t : Session} {l l' : ChildExecutionLedger}
      (hl : s.childLedgers.lookup r.internalOrderId = some l)
      (hopen : l.finalized = false) (hfollows : Follows l l')
      (hledgers : t.childLedgers = s.childLedgers.insert r.internalOrderId l') :
      Responds s r (t, [])
  | ends {t u : Session} {l l' : ChildExecutionLedger}
      (hl : s.childLedgers.lookup r.internalOrderId = some l)
      (hopen : l.finalized = false) (hfollows : Follows l l') (hfinal : l'.finalized = true)
      (hfull : r.newState = .finished → r.cancelledVolume = 0 →
        l'.confirmedTradedVolume.toNat + l'.finalCancelledVolume.toNat = l'.entrustVolume.toNat)
      (hledgers : t.childLedgers = s.childLedgers.insert r.internalOrderId l') :
      Responds s r (t, [u.finalizedTrace l'])

/-- A child that finishes without a cancelled volume is taken to be cancelled as far as it is
open. -/
theorem finishWith_full {l : ChildExecutionLedger} (h : l.Consistent)
    (hopen : l.finalized = false) :
    (l.finishWith 0).confirmedTradedVolume.toNat + (l.finishWith 0).finalCancelledVolume.toNat =
      l.entrustVolume.toNat := by
  have hknown := h.known_le
  have hrest := ChildExecutionLedger.unresolvedVolume_of_open h hopen
  have hnot : ¬ (0 : Volume) > 0 := by decide
  rw [ChildExecutionLedger.finishWith, if_neg hnot]
  simp only
  split
  next hzero =>
    rw [hzero, UInt64.toNat_zero] at hrest
    rw [UInt64.toNat_zero]
    omega
  next => omega

theorem addFill_childOrderId {l : ChildExecutionLedger} (r : TradeResponse) :
    (l.addFill r).childOrderId = l.childOrderId := by
  rw [ChildExecutionLedger.addFill]
  split <;> rfl

theorem responds (hcons : ∀ id l, s.childLedgers.lookup id = some l → l.Consistent)
    (r : TradeResponse) : s.Responds r (s.onTradeResponse r) := by
  rw [onTradeResponse]
  split
  next => exact .ignored
  next ledger hledger =>
    split
    next => exact .ignored
    next hfinalized =>
      have hopen : ledger.finalized = false := by simpa using hfinalized
      have hfilled := ChildExecutionLedger.consistent_addFill (hcons _ _ hledger) hopen r
      have hopen' := (ChildExecutionLedger.addFill_finalized (l := ledger) r).trans hopen
      have hentrust := ChildExecutionLedger.addFill_entrustVolume (l := ledger) r
      have hid := addFill_childOrderId (l := ledger) r
      generalize hl :
        ({ ledger.addFill r with orderState := r.newState } : ChildExecutionLedger) = l
      have hl' : l.Consistent := hl ▸ ⟨hfilled.known_le, hfilled.open_cancelled⟩
      have hlopen : l.finalized = false := hl ▸ hopen'
      have hlentrust : l.entrustVolume = ledger.entrustVolume := hl ▸ hentrust
      have hlid : l.childOrderId = ledger.childOrderId := hl ▸ hid
      simp only
      split
      next hfinished =>
        -- The order has ended, and what is open of it is taken for cancelled.
        have hends : Follows ledger (l.finishWith r.cancelledVolume) :=
          ⟨ChildExecutionLedger.consistent_finishWith hl' hlopen _, hlid, hlentrust⟩
        refine .ends hledger hopen hends rfl ?_ ?_
        · intro _ hnone
          rw [hnone]
          exact finishWith_full hl' hlopen
        · rw [advanceSliceIfReady_childLedgers, finalizeFinishedChild_childLedgers]
      next hgoes =>
        split
        next =>
          -- It was rejected or failed: what is open of it will not be traded.
          have hends : Follows ledger l.failOpen :=
            ⟨ChildExecutionLedger.consistent_failOpen hl' hlopen, hlid, hlentrust⟩
          refine .ends hledger hopen hends rfl ?_ ?_
          · exact fun hfinished => absurd hfinished hgoes
          · rw [advanceSliceIfReady_childLedgers]
            rfl
        next => exact .goesOn hledger hopen ⟨hl', hlid, hlentrust⟩ rfl

end Session

/-! ## Runs -/

/-- A session with its records and the submissions that it attempted. -/
structure TracedSession where
  session : Session
  records : List ChildTrace := []
  submissions : List Submission := []

namespace TracedSession

/-- A step of a session. -/
def step (state : TracedSession) : SessionStep → TracedSession
  | .tick cfg env nowNs w =>
      let out := (state.session.tickNoting cfg env nowNs).run { w with childTrace := state.records }
      { session := out.1.1, records := out.2.childTrace,
        submissions := state.submissions ++ out.1.2 }
  | .response r =>
      { state with
        session := (state.session.onTradeResponse r).1
        records := state.records ++ (state.session.onTradeResponse r).2 }

/-- Without the submissions, it is a step of the session and its records. -/
theorem step_eq_apply (state : TracedSession) (step : SessionStep) :
    ((state.step step).session, (state.step step).records) = step.apply
      (state.session, state.records) := by
  cases step with
  | tick cfg env nowNs w =>
      rw [SessionStep.apply, Session.run_tickNoting]
      rfl
  | response r => rfl

/-- The trace tells the truth: the outcomes on record are those of the submissions, in order; every
child has at most one end; an end is that of a child that was sent, its volumes stay within the
volume of the child, and they make it up when the child finishes without a cancelled volume. -/
structure TellsTruth (state : TracedSession) : Prop where
  outcomes : AccountServices.outcomes state.records = state.submissions.map Submission.truth
  once : ((childEnds state.records).map ChildEnd.childId).Nodup
  sent : ∀ e ∈ childEnds state.records,
    ∃ x ∈ state.submissions, x.sent = true ∧ x.childId = e.childId ∧ x.volume = e.entrustVolume
  within : ∀ e ∈ childEnds state.records, e.tradedVolume.toNat + e.cancelledVolume.toNat ≤
    e.entrustVolume.toNat
  full : ∀ r : TradeResponse, r.newState = .finished → r.cancelledVolume = 0 →
    ∀ e ∈ childEnds (state.session.onTradeResponse r).2,
      e.tradedVolume.toNat + e.cancelledVolume.toNat = e.entrustVolume.toNat

/-- What a run keeps of the records, the ledgers and the submissions. -/
structure Kept (state : TracedSession) : Prop where
  told : AccountServices.outcomes state.records = state.submissions.map Submission.told
  consistent : ∀ id l, state.session.childLedgers.lookup id = some l → l.Consistent
  named : ∀ id l, state.session.childLedgers.lookup id = some l → l.childOrderId = id
  submitted : ∀ id l, state.session.childLedgers.lookup id = some l →
    ∃ x ∈ state.submissions, x.sent = true ∧ x.childId = id ∧ x.volume = l.entrustVolume
  once : ((childEnds state.records).map ChildEnd.childId).Nodup
  ended : ∀ e ∈ childEnds state.records, ∃ l, state.session.childLedgers.lookup e.childId = some l ∧
    l.finalized = true ∧ l.entrustVolume = e.entrustVolume
  within : ∀ e ∈ childEnds state.records, e.tradedVolume.toNat + e.cancelledVolume.toNat ≤
    e.entrustVolume.toNat

variable {state : TracedSession}

theorem kept_fresh {request : OrderRequest} {s : Session} (h : s.Fresh request) :
    Kept { session := s } where
  told := rfl
  consistent id l hl := by
    rw [h.ledgers] at hl
    exact absurd hl (by simp)
  named id l hl := by
    rw [h.ledgers] at hl
    exact absurd hl (by simp)
  submitted id l hl := by
    rw [h.ledgers] at hl
    exact absurd hl (by simp)
  once := List.nodup_nil
  ended e he := absurd he List.not_mem_nil
  within e he := absurd he List.not_mem_nil

/-- A tick. -/
theorem Kept.tick (h : state.Kept) (cfg : Config) (env : Env) (nowNs : TimestampNs) (w : World) :
    (state.step (.tick cfg env nowNs w)).Kept := by
  have htells := Session.tells_tick state.session cfg env nowNs
    { w with childTrace := state.records }
  obtain ⟨⟨added, htrace, htold, hends⟩, hadds⟩ := htells
  have hrecords : (state.step (.tick cfg env nowNs w)).records = state.records ++ added := htrace
  have hchildEnds : childEnds (state.step (.tick cfg env nowNs w)).records =
      childEnds state.records := by
    rw [hrecords, childEnds_append, hends, List.append_nil]
  -- A ledger is an old one, but for a mark, or that of a submission of the tick.
  have hledger : ∀ id l, (state.step (.tick cfg env nowNs w)).session.childLedgers.lookup
      id = some l → (∃ m, state.session.childLedgers.lookup id = some m ∧ Session.SameBut m l) ∨
        (state.session.childLedgers.lookup id = none) := by
    intro id l hl
    cases hold : state.session.childLedgers.lookup id with
    | none => exact Or.inr rfl
    | some m =>
        obtain ⟨k, hk, heq⟩ := hadds.kept id m hold
        obtain rfl : k = l := Option.some.inj (hk.symm.trans hl)
        exact Or.inl ⟨m, rfl, Session.sameBut_of_unmarked heq⟩
  exact {
    told := by
      rw [hrecords, outcomes_append, h.told, htold, ← List.map_append]
      rfl
    consistent := by
      intro id l hl
      rcases hledger id l hl with ⟨m, hm, hsame⟩ | hnone
      · exact hsame.consistent (h.consistent id m hm)
      · exact (hadds.new id l hl hnone).1
    named := by
      intro id l hl
      rcases hledger id l hl with ⟨m, hm, hsame⟩ | hnone
      · exact hsame.childOrderId.trans (h.named id m hm)
      · exact (hadds.new id l hl hnone).2.2.1
    submitted := by
      intro id l hl
      rcases hledger id l hl with ⟨m, hm, hsame⟩ | hnone
      · obtain ⟨x, hx, hsent, hchild, hvolume⟩ := h.submitted id m hm
        exact ⟨x, List.mem_append_left _ hx, hsent, hchild, hvolume.trans hsame.entrustVolume.symm⟩
      · obtain ⟨-, -, -, x, hx, hsubmitted⟩ := hadds.new id l hl hnone
        exact ⟨x, List.mem_append_right _ hx, hsubmitted⟩
    once := by
      rw [hchildEnds]
      exact h.once
    ended := by
      rw [hchildEnds]
      intro e he
      obtain ⟨l, hl, hfinal, hentrust⟩ := h.ended e he
      obtain ⟨m, hm, heq⟩ := hadds.kept e.childId l hl
      have hsame := Session.sameBut_of_unmarked heq
      exact ⟨m, hm, hsame.finalized.trans hfinal, hsame.entrustVolume.trans hentrust⟩
    within := by
      rw [hchildEnds]
      exact h.within }

/-- A ledger that changes, and keeps the name and the volume of the child. -/
theorem Kept.insert (h : state.Kept) {t : Session} {id : InternalOrderId}
    {l l' : ChildExecutionLedger}
    (hl : state.session.childLedgers.lookup id = some l) (hfollows : Session.Follows l l')
    (hledgers : t.childLedgers = state.session.childLedgers.insert id l') :
    (∀ k m, t.childLedgers.lookup k = some m → m.Consistent) ∧
      (∀ k m, t.childLedgers.lookup k = some m → m.childOrderId = k) ∧
      (∀ k m, t.childLedgers.lookup k = some m →
        ∃ x ∈ state.submissions, x.sent = true ∧ x.childId = k ∧ x.volume = m.entrustVolume) := by
  have hcases : ∀ k m, t.childLedgers.lookup k = some m →
      (k = id ∧ m = l') ∨ state.session.childLedgers.lookup k = some m := by
    intro k m hm
    rw [hledgers, Map.lookup_insert_eq] at hm
    split at hm
    next heq => exact Or.inl ⟨heq, (Option.some.inj hm).symm⟩
    next => exact Or.inr hm
  refine ⟨fun k m hm => ?_, fun k m hm => ?_, fun k m hm => ?_⟩
  · rcases hcases k m hm with ⟨-, rfl⟩ | hold
    · exact hfollows.consistent
    · exact h.consistent k m hold
  · rcases hcases k m hm with ⟨rfl, rfl⟩ | hold
    · exact hfollows.childOrderId.trans (h.named k l hl)
    · exact h.named k m hold
  · rcases hcases k m hm with ⟨rfl, rfl⟩ | hold
    · rw [hfollows.entrustVolume]
      exact h.submitted k l hl
    · exact h.submitted k m hold

/-- An end on record is not that of a child that is open. -/
theorem Kept.childId_ne (h : state.Kept) {id : InternalOrderId} {l : ChildExecutionLedger}
    (hl : state.session.childLedgers.lookup id = some l) (hopen : l.finalized = false)
    {e : ChildEnd}
    (he : e ∈ childEnds state.records) : e.childId ≠ id := by
  rintro rfl
  obtain ⟨m, hm, hfinal, -⟩ := h.ended e he
  rw [Option.some.inj (hm.symm.trans hl), hopen] at hfinal
  exact Bool.noConfusion hfinal

/-- The ends on record keep their ledgers when that of an open child changes. -/
theorem Kept.ended_insert (h : state.Kept) {t : Session} {id : InternalOrderId}
    {l l' : ChildExecutionLedger}
    (hl : state.session.childLedgers.lookup id = some l) (hopen : l.finalized = false)
    (hledgers : t.childLedgers = state.session.childLedgers.insert id l') :
    ∀ e ∈ childEnds state.records, ∃ m, t.childLedgers.lookup e.childId = some m ∧
      m.finalized = true ∧ m.entrustVolume = e.entrustVolume := by
  intro e he
  rw [hledgers, Map.lookup_insert_eq, if_neg (h.childId_ne hl hopen he)]
  exact h.ended e he

theorem childEnds_finalizedTrace (u : Session) (l : ChildExecutionLedger) :
    childEnds [u.finalizedTrace l] =
      [⟨l.childOrderId, l.orderState, l.entrustVolume, l.confirmedTradedVolume,
        l.finalCancelledVolume⟩] := rfl

/-- A response. -/
theorem Kept.response (h : state.Kept) (r : TradeResponse) : (state.step (.response r)).Kept := by
  have hresponds := Session.responds h.consistent r
  rw [step]
  generalize state.session.onTradeResponse r = out at hresponds ⊢
  cases hresponds with
  -- It names no child of the session, or one whose end is on record.
  | ignored =>
      rw [List.append_nil]
      exact h
  -- The ledger of the child moves, and stays open.
  | @goesOn t l l' hl hopen hfollows hledgers =>
      obtain ⟨hconsistent, hnamed, hsubmitted⟩ := h.insert hl hfollows hledgers
      rw [List.append_nil]
      exact {
        told := h.told
        consistent := hconsistent
        named := hnamed
        submitted := hsubmitted
        once := h.once
        ended := h.ended_insert hl hopen hledgers
        within := h.within }
  -- The child ends: its record is the only one for it, since its ledger was open until now.
  | @ends t u l l' hl hopen hfollows hfinal hfull hledgers =>
      obtain ⟨hconsistent, hnamed, hsubmitted⟩ := h.insert hl hfollows hledgers
      have hid : l'.childOrderId = r.internalOrderId := hfollows.childOrderId.trans (h.named _ l hl)
      have hself : t.childLedgers.lookup r.internalOrderId = some l' := by
        rw [hledgers, Map.lookup_insert_eq, if_pos rfl]
      exact {
        told := by
          rw [outcomes_append, h.told]
          exact List.append_nil _
        consistent := hconsistent
        named := hnamed
        submitted := hsubmitted
        once := by
          rw [childEnds_append, List.map_append, childEnds_finalizedTrace, List.map_singleton, hid]
          refine List.Nodup.append h.once (List.nodup_singleton _) ?_
          intro k hk hk'
          rw [List.mem_singleton] at hk'
          obtain ⟨e, he, rfl⟩ := List.mem_map.mp hk
          exact h.childId_ne hl hopen he hk'
        ended := by
          rw [childEnds_append, childEnds_finalizedTrace]
          intro e he
          rcases List.mem_append.mp he with hold | hnew
          · exact h.ended_insert hl hopen hledgers e hold
          · rw [List.mem_singleton.mp hnew]
            exact ⟨l', hid ▸ hself, hfinal, rfl⟩
        within := by
          rw [childEnds_append, childEnds_finalizedTrace]
          intro e he
          rcases List.mem_append.mp he with hold | hnew
          · exact h.within e hold
          · rw [List.mem_singleton.mp hnew]
            exact hfollows.consistent.known_le }

/-- The parts of the truth that the trace always tells. -/
theorem Kept.tellsTruth_iff (h : state.Kept) :
    state.TellsTruth ↔ ∀ x ∈ state.submissions, x.sent = true ∧ x.price = 1 := by
  constructor
  · intro htruth x hx
    have hsame := htruth.outcomes
    rw [h.told, List.map_inj_left] at hsame
    exact x.told_eq_truth_iff.mp (hsame x hx)
  · intro hall
    exact {
      outcomes := by
        rw [h.told, List.map_inj_left]
        exact fun x hx => x.told_eq_truth_iff.mpr (hall x hx)
      once := h.once
      sent := by
        intro e he
        obtain ⟨l, hl, -, hentrust⟩ := h.ended e he
        obtain ⟨x, hx, hsent, hchild, hvolume⟩ := h.submitted _ l hl
        exact ⟨x, hx, hsent, hchild, hvolume.trans hentrust⟩
      within := h.within
      full := by
        intro r hfinished hnone e he
        have hresponds := Session.responds h.consistent r
        generalize state.session.onTradeResponse r = out at hresponds he
        cases hresponds with
        | ignored => exact absurd he List.not_mem_nil
        | goesOn => exact absurd he List.not_mem_nil
        | ends hl hopen hfollows hfinal hfull hledgers =>
            rw [childEnds_finalizedTrace, List.mem_singleton] at he
            rw [he]
            exact hfull hfinished hnone }

end TracedSession

/-- In every state of every run of a session, the trace tells the truth if and only if all
submissions so far were sent, at a price of one. -/
theorem child_trace_truth (c : SplitConfig) (parentIndex : OrderIndex)
    (parentRequest : OrderRequest)
    (strategyId : StrategyId) (startTimeNs : TimestampNs) (s₀ : Session)
    (hcreate : Session.create c parentIndex parentRequest strategyId startTimeNs = some s₀)
    (steps : List SessionStep) :
    ∀ state ∈ trace TracedSession.step { session := s₀ } steps,
      state.TellsTruth ↔ ∀ x ∈ state.submissions, x.sent = true ∧ x.price = 1 := by
  have hstep : ∀ state step, TracedSession.Kept state → True →
      (TracedSession.step state step).Kept := by
    intro state step hkept _
    cases step with
    | tick cfg env nowNs w => exact hkept.tick cfg env nowNs w
    | response r => exact hkept.response r
  have hrun := trace_invariant TracedSession.Kept hstep
    (TracedSession.kept_fresh (Session.fresh_create hcreate))
      (stepsMeet_true TracedSession.step { session := s₀ } steps)
  exact fun state hstate => (hrun state hstate).tellsTruth_iff

/-- A parent of 250 shares at a price of one, in clips of 100. -/
def cheapParent : OrderRequest :=
  { OrderRequest.ofClient 7 .buy 250 1 with passiveExecutionAlgo := .fixedSize }

/-- The service with the parent in its book, before it hands out the id `next`. -/
def cheapWorld (next : InternalOrderId) : World :=
  { World.start {} {} (OrdersShm.ofClients [cheapParent]) with
    book := (OrderBook.empty.addOrder { request := cheapParent } 0).book
    upstreamNextOrderId := some next }

/-- The first clip is sent and filled, the second is sent, filled with 40 shares and rejected. -/
def cheapClips : List SessionStep :=
  [.tick Session.clippedConfig {} 0 (cheapWorld 1),
    .response
      { internalOrderId := 1, tradeSide := .buy, newState := .finished, volumeTraded := 100
        dpriceTraded := 1, dvalueTraded := 100 },
    .tick Session.clippedConfig {} 0 (cheapWorld 2),
    .response
      { internalOrderId := 2, tradeSide := .buy, newState := .marketAccepted, volumeTraded := 40
        dpriceTraded := 1, dvalueTraded := 40 },
    .response { internalOrderId := 2, tradeSide := .buy, newState := .marketRejected }]

/-- The session of the parent, before its first tick. -/
def cheapSession : Session :=
  (Session.create Session.clippedConfig.splitConfig 0 cheapParent 1 0).get (by decide)

/-- The same when both clips have their ends. -/
def cheapEnd : TracedSession :=
  cheapClips.foldl TracedSession.step { session := cheapSession }

/-- Both clips are on record with the price of one, and with their ends. -/
theorem child_trace_truth_cheap_clips :
    cheapEnd.TellsTruth ∧ outcomes cheapEnd.records = [⟨1, 1, true⟩, ⟨2, 1, true⟩] ∧
      childEnds cheapEnd.records =
        [⟨1, .finished, 100, 100, 0⟩, ⟨2, .marketRejected, 100, 40, 60⟩] := by
  refine ⟨?_, by decide, by decide⟩
  have hsent : cheapEnd.submissions.all (fun x => decide (x.sent = true ∧ x.price = 1)) = true := by
    decide
  rw [child_trace_truth _ _ _ _ _ cheapSession (Option.some_get _).symm cheapClips cheapEnd
    (foldl_mem_trace _ _ _)]
  exact fun x hx => of_decide_eq_true (List.all_eq_true.1 hsent x hx)

/-- The first tick of a session, with its clip sent at a price of ten, or refused. -/
def firstTick (w : World) : TracedSession :=
  TracedSession.step
    { session :=
        (Session.create Session.oneClipConfig.splitConfig 0 Session.oneClipParent 1 0).get
          (by decide) }
    (.tick Session.oneClipConfig {} 0 w)

/-- A child that is sent at a price of ten is on record at a price of one, and one that is refused
is on record as sent. -/
theorem child_trace_misreports :
    ¬ (firstTick Session.oneClipWorld).TellsTruth ∧
      (firstTick Session.oneClipWorld).submissions.map Submission.truth = [⟨1, 10, true⟩] ∧
      outcomes (firstTick Session.oneClipWorld).records = [⟨1, 1, true⟩] ∧
      (firstTick { Session.oneClipWorld with ordersShm := none }).submissions.map Submission.truth =
        [⟨1, 10, false⟩] ∧
      outcomes (firstTick { Session.oneClipWorld with ordersShm := none }).records =
        [⟨1, 0, true⟩] :=
  ⟨fun htruth => absurd htruth.outcomes (by decide), by decide⟩

end AccountServices
