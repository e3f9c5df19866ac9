import AccountServices.Order.ChildChanges

/-!
# The status of an aggregated parent

The state of a parent that no session manages is derived from its children whenever one of them
changes: an error that was latched wins, then a finished parent, then the best state of a child. The
rank that picks the best state gives a terminal state and an unset one the same value, so that the
order of registration decides between them. `parent_status` says when the state that is stored is
the one the children call for: always, unless none of them has made progress, one is unset, and
either the first of them has ended or the parent itself had.
-/

set_option autoImplicit false

namespace AccountServices

open Foundation

/-- What the state of an aggregated parent should be, given its state before and the states of its
live new children. -/
structure Aggregates (errored : Prop) (before : OrderState) (children : List OrderState)
    (state : OrderState) : Prop where
  error : errored → state = .traderError
  terminal : ¬ errored → (state.isTerminal = true ↔ ∀ s ∈ children, s.isTerminal = true)
  finished : ¬ errored → (∀ s ∈ children, s.isTerminal = true) → state = .finished
  progress : ¬ errored → (∃ s ∈ children, 0 < s.progressRank) →
    state ∈ children ∧ state.isTerminal = false ∧
      ∀ s ∈ children, s.progressRank ≤ state.progressRank
  unchanged : ¬ errored → (∃ s ∈ children, s.isTerminal = false) →
    (∀ s ∈ children, s.progressRank ≤ 0) → state = before

/-- The states of the children decide the state of the parent. Where none has a rank, this needs an
unset child in front and a parent that is open. -/
def Decisive (before : OrderState) (children : List OrderState) : Prop :=
  (∀ s ∈ children, s.isTerminal = true) ∨ (∃ s ∈ children, 0 < s.progressRank) ∨
    (children.head? = some .notSet ∧ before.isTerminal = false)

theorem OrderState.isTerminal_of_progressRank_pos {s : OrderState} (h : 0 < s.progressRank) :
    s.isTerminal = false := by
  revert h
  cases s <;> decide

theorem OrderState.eq_notSet_of_open {s : OrderState} (hrank : s.progressRank ≤ 0)
    (hopen : s.isTerminal = false) : s = .notSet := by
  revert hrank hopen
  cases s <;> decide

namespace OrderBook

variable {b b' : OrderBook} {orderId parentId : InternalOrderId} {calls : List Call} {call : Call}
  {errored : Prop} {before state : OrderState} {children children' : List OrderState}

/-- The states of the live new children. -/
def newStates (b : OrderBook) (parentId : InternalOrderId) : List OrderState :=
  (b.newChildren parentId).map fun e => e.request.orderState

/-- The state of a live new order. -/
def newState? (b : OrderBook) (orderId : InternalOrderId) : Option OrderState :=
  (b.findOrder orderId).bind fun e => if e.request.orderType = .new then
    some e.request.orderState else none

theorem newStates_eq (b : OrderBook) (parentId : InternalOrderId) :
    b.newStates parentId = (b.getChildren parentId).filterMap b.newState? := by
  rw [newStates, newChildren]
  induction b.getChildren parentId with
  | nil => rfl
  | cons c rest ih =>
      rw [List.filterMap_cons, List.filterMap_cons, newState?]
      cases b.findOrder c with
      | none => exact ih
      | some e =>
          simp only [Option.bind_some, List.filter_cons]
          by_cases hnew : e.request.orderType = .new
          · rw [if_pos (decide_eq_true hnew), if_pos hnew, List.map_cons, ih]
          · rw [if_neg fun h => hnew (of_decide_eq_true h), if_neg hnew, ih]

/-! ## What the loop finds -/

/-- While no child has a rank, the first one stays the best. -/
theorem bestProgressStatus_foldl (entries : List OrderEntry)
    (hnew : ∀ e ∈ entries, e.request.orderType = .new)
    (hrank : ∀ e ∈ entries, e.request.orderState.progressRank ≤ 0) (acc : ChildFold)
    (hacc : 0 ≤ acc.bestProgressRank) :
    (entries.foldl (fun acc e => acc.add (some e)) acc).bestProgressStatus =
      acc.bestProgressStatus := by
  induction entries generalizing acc with
  | nil => rfl
  | cons e rest ih =>
      have hle := hrank e List.mem_cons_self
      rw [List.foldl_cons, ih (fun x hx => hnew x (List.mem_cons_of_mem _ hx))
        (fun x hx => hrank x (List.mem_cons_of_mem _ hx))]
      · simp only [ChildFold.add, if_pos (hnew e List.mem_cons_self)]
        rw [if_neg (by omega)]
      · simp only [ChildFold.add, if_pos (hnew e List.mem_cons_self)]
        exact hacc.trans (le_max_left _ _)

/-- What the accumulators say of the states of the live new children. -/
structure FoldTells (acc : ChildFold) (children : List OrderState) : Prop where
  terminal : acc.allTerminal = true ↔ ∀ s ∈ children, s.isTerminal = true
  best : acc.bestProgressStatus ∈ children
  highest : ∀ s ∈ children, s.progressRank ≤ acc.bestProgressStatus.progressRank
  first : (∀ s ∈ children, s.progressRank ≤ 0) → children.head? = some acc.bestProgressStatus

theorem foldTells_foldChildren (b : OrderBook) (parent : OrderEntry)
    (hsome : b.newChildren parentId ≠ []) :
    FoldTells (b.foldChildren parent (b.getChildren parentId)) (b.newStates parentId) := by
  have hdescribes := describes_foldChildren b parent (b.getChildren parentId)
  have hstates : ∀ s, b.HasNewChild (b.getChildren parentId) s ↔ s ∈ b.newStates parentId := by
    intro s
    rw [hasNewChild_iff, newStates, List.mem_map]
  have hcount : (b.foldChildren parent (b.getChildren parentId)).newChildCount ≠ 0 := by
    rw [foldChildren_eq, newChildCount_foldl _ fun e he => orderType_of_mem_newChildren he]
    have hlength := List.length_pos_iff.2 hsome
    omega
  obtain ⟨hbest, hrank, hhighest⟩ := hdescribes.best hcount
  refine ⟨?_, (hstates _).1 hbest, ?_, ?_⟩
  · rw [hdescribes.terminal]
    exact forall_congr' fun s => by rw [hstates]
  · intro s hs
    rw [hrank]
    exact hhighest s ((hstates s).2 hs)
  · -- Without a rank among the children the fold stays with the first of them.
    intro hidle
    rw [foldChildren_eq, newStates]
    rw [newStates] at hidle
    have hnew : ∀ e ∈ b.newChildren parentId, e.request.orderType = .new :=
      fun e he => orderType_of_mem_newChildren he
    revert hidle hnew
    cases hentries : b.newChildren parentId with
    | nil => exact absurd hentries hsome
    | cons e rest =>
        intro hidle hnew
        have hle : ∀ x ∈ e :: rest, x.request.orderState.progressRank ≤ 0 :=
          fun x hx => hidle _ (List.mem_map_of_mem hx)
        have hpos := progressRank_nonneg e.request.orderState
        rw [List.foldl_cons, bestProgressStatus_foldl rest
          (fun x hx => hnew x (List.mem_cons_of_mem _ hx))
          (fun x hx => hle x (List.mem_cons_of_mem _ hx))]
        · simp only [ChildFold.add, if_pos (hnew e List.mem_cons_self),
            List.map_cons, List.head?_cons]
          rw [if_pos (by omega)]
        · simp only [ChildFold.add, if_pos (hnew e List.mem_cons_self)]
          exact hpos.trans (le_max_right _ _)

/-! ## The state that is stored -/

theorem refreshedState_eq {acc : ChildFold} (h : FoldTells acc children) :
    refreshedState true acc before = .traderError ∧
      ((∀ s ∈ children, s.isTerminal = true) → refreshedState false acc before = .finished) ∧
      ((∃ s ∈ children, s.isTerminal = false) → acc.bestProgressStatus ≠ .notSet →
        refreshedState false acc before = acc.bestProgressStatus) ∧
      ((∃ s ∈ children, s.isTerminal = false) → acc.bestProgressStatus = .notSet →
        refreshedState false acc before = before) := by
  have hopen : (∃ s ∈ children, s.isTerminal = false) → ¬ acc.allTerminal = true := by
    rintro ⟨s, hs, hopen⟩ hall
    exact absurd (hopen.symm.trans (h.terminal.1 hall s hs)) (by decide)
  refine ⟨rfl, ?_, ?_, ?_⟩
  · intro hall
    rw [refreshedState, if_neg (by decide), if_pos (h.terminal.2 hall)]
  · intro hsome hbest
    rw [refreshedState, if_neg (by decide), if_neg (hopen hsome), if_pos hbest]
  · intro hsome hbest
    rw [refreshedState, if_neg (by decide), if_neg (hopen hsome), if_neg (not_not_intro hbest)]

section Stored

/-! The states `children'` are those after the refresh. They differ from `children` when the parent
is one of its own children. -/

variable {acc : ChildFold}

/-- Every child has ended. -/
theorem aggregates_of_ended (h : FoldTells acc children) (hno : ¬ errored)
    (hall : ∀ s ∈ children, s.isTerminal = true) (hstate : state = refreshedState false acc before)
    (hfrom : ∀ s ∈ children', s ∈ children ∨ s = state) :
    Aggregates errored before children' state := by
  rw [(refreshedState_eq h).2.1 hall] at hstate
  have hall' : ∀ s ∈ children', s.isTerminal = true := by
    intro s hs
    rcases hfrom s hs with hold | rfl
    · exact hall s hold
    · rw [hstate]
      rfl
  refine ⟨fun herr => absurd herr hno, fun _ => ⟨fun _ => hall', fun _ => by rw [hstate]; rfl⟩,
    fun _ _ => hstate, ?_, ?_⟩
  · rintro - ⟨s, hs, hrank⟩
    exact absurd ((OrderState.isTerminal_of_progressRank_pos hrank).symm.trans (hall' s hs))
      (by decide)
  · rintro - ⟨s, hs, hopen⟩ -
    exact absurd (hopen.symm.trans (hall' s hs)) (by decide)

/-- Some child has a rank, so the best one is open. -/
theorem aggregates_of_ranked (h : FoldTells acc children) (hno : ¬ errored)
    (hranked : ∃ s ∈ children, 0 < s.progressRank)
    (hstate : state = refreshedState false acc before)
    (hfrom : ∀ s ∈ children', s ∈ children ∨ s = state)
    (hkept : state ∈ children → state ∈ children') :
    Aggregates errored before children' state := by
  -- Some child has a rank, so the best one is live, and the refreshed state is its state.
  obtain ⟨t, ht, hpos⟩ := hranked
  have hbest : 0 < acc.bestProgressStatus.progressRank := hpos.trans_le (h.highest t ht)
  have hset : acc.bestProgressStatus ≠ .notSet := by
    intro heq
    rw [heq] at hbest
    exact absurd hbest (by decide)
  rw [(refreshedState_eq h).2.2.1 ⟨t, ht, OrderState.isTerminal_of_progressRank_pos hpos⟩
    hset] at hstate
  have hopen : state.isTerminal = false := by
    rw [hstate]
    exact OrderState.isTerminal_of_progressRank_pos hbest
  have hmem : state ∈ children' := hkept (hstate ▸ h.best)
  refine ⟨fun herr => absurd herr hno, fun _ => ⟨fun hterm => ?_, fun hall => ?_⟩,
    fun _ hall => ?_, ?_, ?_⟩
  · exact absurd (hopen.symm.trans hterm) (by decide)
  · exact hall state hmem
  · exact absurd (hopen.symm.trans (hall state hmem)) (by decide)
  · intro _ _
    refine ⟨hmem, hopen, ?_⟩
    intro s hs
    rcases hfrom s hs with hold | rfl
    · rw [hstate]
      exact h.highest s hold
    · exact le_refl _
  · intro _ _ hnone
    have hle := hnone state hmem
    rw [hstate] at hle
    omega

/-- No child has a rank and the first one is unset: the parent is left alone. -/
theorem aggregates_of_idle (h : FoldTells acc children) (hno : ¬ errored)
    (hidle : ∀ s ∈ children, s.progressRank ≤ 0) (hhead : children.head? = some .notSet)
    (hopen : before.isTerminal = false) (hstate : state = refreshedState false acc before)
    (hsame : state = before → children' = children) :
    Aggregates errored before children' state := by
  have hunset : acc.bestProgressStatus = .notSet :=
    Option.some.inj ((h.first hidle).symm.trans hhead)
  have hfirst : OrderState.notSet ∈ children := List.mem_of_mem_head? hhead
  rw [(refreshedState_eq h).2.2.2 ⟨_, hfirst, rfl⟩ hunset] at hstate
  rw [hsame hstate, hstate]
  refine ⟨fun herr => absurd herr hno, fun _ => ⟨fun hterm => ?_, fun hall => ?_⟩,
    fun _ hall => ?_, ?_, ?_⟩
  · exact absurd (hopen.symm.trans hterm) (by decide)
  · exact absurd (hall _ hfirst) (by decide)
  · exact absurd (hall _ hfirst) (by decide)
  · rintro - ⟨s, hs, hpos⟩
    exact absurd hpos (not_lt.2 (hidle s hs))
  · intro _ _ _
    rfl

/-- A decisive aggregation gives the parent the state that the children call for. -/
theorem aggregates_of_decisive {latched : Bool} (h : FoldTells acc children)
    (herrored : latched = true ↔ errored) (hdecisive : errored ∨ Decisive before children)
    (hstate : state = refreshedState latched acc before)
    (hfrom : ∀ s ∈ children', s ∈ children ∨ s = state)
    (hkept : state ∈ children → state ∈ children')
    (hsame : state = before → children' = children) :
    Aggregates errored before children' state := by
  cases latched with
  | true =>
      have herr := herrored.1 rfl
      exact ⟨fun _ => hstate, fun hno => absurd herr hno, fun hno => absurd herr hno,
        fun hno => absurd herr hno, fun hno => absurd herr hno⟩
  | false =>
      have hno : ¬ errored := fun herr => absurd (herrored.2 herr) (by decide)
      by_cases hranked : ∃ s ∈ children, 0 < s.progressRank
      · exact aggregates_of_ranked h hno hranked hstate hfrom hkept
      have hidle : ∀ s ∈ children, s.progressRank ≤ 0 :=
        fun s hs => not_lt.1 fun hpos => hranked ⟨s, hs, hpos⟩
      rcases hdecisive.resolve_left hno with hall | hsome | ⟨hhead, hopen⟩
      · exact aggregates_of_ended h hno hall hstate hfrom
      · exact absurd hsome hranked
      · exact aggregates_of_idle h hno hidle hhead hopen hstate hsame

/-- And only a decisive one does, where the children are the same before and after. -/
theorem decisive_of_aggregates {latched : Bool} (h : FoldTells acc children)
    (herrored : latched = true ↔ errored) (hstate : state = refreshedState latched acc before)
    (haggregates : Aggregates errored before children state) :
    errored ∨ Decisive before children := by
  cases latched with
  | true => exact Or.inl (herrored.1 rfl)
  | false =>
      have hno : ¬ errored := fun herr => absurd (herrored.2 herr) (by decide)
      refine Or.inr ?_
      by_cases hall : ∀ s ∈ children, s.isTerminal = true
      · exact Or.inl hall
      by_cases hranked : ∃ s ∈ children, 0 < s.progressRank
      · exact Or.inr (Or.inl hranked)
      have hidle : ∀ s ∈ children, s.progressRank ≤ 0 :=
        fun s hs => not_lt.1 fun hpos => hranked ⟨s, hs, hpos⟩
      have hsome : ∃ s ∈ children, s.isTerminal = false := by
        simpa using hall
      have hopen : state.isTerminal = false := by
        rw [← Bool.not_eq_true]
        exact fun hterm => hall ((haggregates.terminal hno).1 hterm)
      -- the best child has no rank, and it is open because the parent took its state
      have hunset : acc.bestProgressStatus = .notSet := by
        by_contra hset
        rw [(refreshedState_eq h).2.2.1 hsome hset] at hstate
        exact hset (OrderState.eq_notSet_of_open (hidle _ h.best) (hstate ▸ hopen))
      refine Or.inr (Or.inr ⟨?_, ?_⟩)
      · rw [h.first hidle, hunset]
      · have hkeep : refreshedState false acc before = before :=
          (refreshedState_eq h).2.2.2 hsome hunset
        rw [← hkeep, ← hstate]
        exact hopen

end Stored

/-! ## The error latch over a run -/

/-- The parent was set to an error in its present life, when a child was registered already. -/
def SetToError (calls : List Call) (parentId : InternalOrderId) : Prop :=
  ∃ (earlier later : List Call) (now : TimestampNs),
    calls = earlier ++ .updateState parentId .traderError now :: later ∧
      (afterCalls earlier).IsLive parentId ∧
      ((afterCalls earlier).parentToChildren.lookup parentId).isSome = true ∧
      ∀ call ∈ later, call ≠ .archiveOrder parentId ∧ call ≠ .clear

theorem afterCalls_append (calls : List Call) (call : Call) :
    afterCalls (calls ++ [call]) = (afterCalls calls).after call := by
  rw [afterCalls, afterCalls, List.foldl_append, List.foldl_cons, List.foldl_nil]

theorem setToError_append_iff :
    SetToError (calls ++ [call]) parentId ↔
      (∃ now, call = .updateState parentId .traderError now ∧ (afterCalls calls).IsLive parentId ∧
        ((afterCalls calls).parentToChildren.lookup parentId).isSome = true) ∨
      (SetToError calls parentId ∧ call ≠ .archiveOrder parentId ∧ call ≠ .clear) := by
  constructor
  · rintro ⟨earlier, later, now, heq, hlive, hlisted, hkept⟩
    rcases List.eq_nil_or_concat later with rfl | ⟨rest, last, rfl⟩
    · obtain ⟨rfl, hcall⟩ := List.append_inj' heq rfl
      exact Or.inl ⟨now, List.singleton_inj.1 hcall, hlive, hlisted⟩
    · rw [List.concat_eq_append] at heq hkept
      rw [← List.cons_append, ← List.append_assoc] at heq
      obtain ⟨rfl, hcall⟩ := List.append_inj' heq rfl
      obtain rfl := List.singleton_inj.1 hcall
      refine Or.inr ⟨⟨earlier, rest, now, rfl, hlive, hlisted, ?_⟩, hkept call (by simp)⟩
      intro c hc
      exact hkept c (List.mem_append_left _ hc)
  · rintro (⟨now, rfl, hlive, hlisted⟩ | ⟨⟨earlier, later, now, rfl, hlive, hlisted, hkept⟩, hcall⟩)
    · exact ⟨calls, [], now, rfl, hlive, hlisted, fun c hc => absurd hc (List.not_mem_nil)⟩
    · refine ⟨earlier, later ++ [call], now, by simp, hlive, hlisted, ?_⟩
      intro c hc
      rcases List.mem_append.1 hc with hold | hnew
      · exact hkept c hold
      · rw [List.mem_singleton.1 hnew]
        exact hcall

theorem latched_updateState (b : OrderBook) (orderId : InternalOrderId) (state : OrderState)
    (now : TimestampNs) :
    parentId ∈ (b.updateState orderId state now).book.splitParentErrorLatched ↔
      parentId ∈ b.splitParentErrorLatched ∨
        (parentId = orderId ∧ state = .traderError ∧ b.IsLive orderId ∧
          (b.parentToChildren.lookup orderId).isSome = true ∧
            b.isManagedParent orderId = false) := by
  rw [updateState]
  split
  next hnone =>
    rw [IsLive, terms, hnone]
    simp
  next e he =>
    have hmarks := sets_of_marks
      (marks_refreshParentOf
        ((b.modifyOrder orderId fun _ => withState e state now).latchSplitError orderId state)
        orderId)
    simp only
    rw [hmarks.2, latchSplitError]
    have hlive := isLive_of_findOrder he
    split
    -- The error of a live, unmanaged parent with children is latched.
    next hlatch =>
      obtain ⟨rfl, hlisted, hunmanaged⟩ := hlatch
      rw [Finset.mem_insert]
      constructor
      · rintro (rfl | hold)
        · exact Or.inr ⟨rfl, rfl, hlive, hlisted, Bool.eq_false_iff.2 hunmanaged⟩
        · exact Or.inl hold
      · rintro (hold | ⟨rfl, -⟩)
        · exact Or.inr hold
        · exact Or.inl rfl
    next hopen =>
      constructor
      · exact Or.inl
      · rintro (hold | ⟨rfl, rfl, -, hlisted, hunmanaged⟩)
        · exact hold
        · exact absurd ⟨rfl, hlisted, Bool.eq_false_iff.1 hunmanaged⟩ hopen

theorem tidy_afterCalls (calls : List Call) : (afterCalls calls).Tidy := by
  induction calls using List.reverseRecOn with
  | nil => exact tidy_empty
  | append_singleton calls call ih =>
      rw [afterCalls_append]
      cases call with
      | addOrder entry now => exact ih.addOrder entry now
      | updateState orderId state now => exact ih.updateState orderId state now
      | updateTrade orderId vol px val fee now => exact ih.updateTrade orderId vol px val fee now
      | markManagedParent parentId => exact ih.markManagedParent parentId
      | syncManagedParentView parentId view state now =>
          exact ih.syncManagedParentView parentId view state now
      | archiveOrder orderId => exact ih.archiveOrder orderId
      | clear => exact ⟨tidy_empty.managed, tidy_empty.latched, tidy_empty.listed⟩

/-- Only an archived parent and a cleared book lose the mark of a session. -/
theorem managed_after (hmanaged : parentId ∈ b.managedParentIds)
    (harchive : call ≠ .archiveOrder parentId)
    (hclear : call ≠ .clear) : parentId ∈ (b.after call).managedParentIds := by
  cases call with
  | addOrder entry now =>
      exact (sets_of_marks (marks_addOrder b entry now)).1.symm ▸ hmanaged
  | updateState orderId state now => exact (marks_updateState b orderId state now).1.symm ▸ hmanaged
  | updateTrade orderId vol px val fee now =>
      exact (sets_of_marks (marks_updateTrade b orderId vol px val fee now)).1.symm ▸ hmanaged
  | markManagedParent orderId =>
      simp only [after, markManagedParent]
      split
      · exact hmanaged
      · exact Finset.mem_insert_of_mem hmanaged
  | syncManagedParentView orderId view state now =>
      simp only [after, syncManagedParentView]
      split
      · exact hmanaged
      split
      · exact Finset.mem_insert_of_mem hmanaged
      · exact Finset.mem_insert_of_mem hmanaged
  | archiveOrder orderId =>
      simp only [after, archiveOrder]
      split
      · exact hmanaged
      · refine Finset.mem_erase.2 ⟨?_, hmanaged⟩
        rintro rfl
        exact harchive rfl
  | clear => exact absurd rfl hclear

theorem latched_markManagedParent (b : OrderBook) (parentId : InternalOrderId) :
    (b.markManagedParent parentId).book.splitParentErrorLatched = b.splitParentErrorLatched := by
  rw [markManagedParent]
  split <;> rfl

theorem latched_syncManagedParentView (b : OrderBook) (parentId : InternalOrderId)
    (view : ManagedParentView) (state : OrderState) (now : TimestampNs) :
    (b.syncManagedParentView parentId view state now).book.splitParentErrorLatched =
      b.splitParentErrorLatched := by
  rw [syncManagedParentView]
  split
  · rfl
  simp only
  split <;> rfl

theorem latched_archiveOrder (htidy : b.Tidy) (orderId : InternalOrderId) :
    parentId ∈ (b.archiveOrder orderId).book.splitParentErrorLatched ↔
      parentId ∈ b.splitParentErrorLatched ∧ parentId ≠ orderId := by
  rw [archiveOrder]
  split
  next hnone =>
    constructor
    · intro hmem
      refine ⟨hmem, ?_⟩
      rintro rfl
      exact htidy.latched _ hmem (by rw [terms, hnone, Option.map_none])
    · exact And.left
  next => exact Finset.mem_erase.trans And.comm

/-- What one call does to the latch of a parent that it leaves unmanaged. -/
theorem latched_after (htidy : b.Tidy)
    (hunmanaged : (b.after call).isManagedParent parentId = false) :
    parentId ∈ (b.after call).splitParentErrorLatched ↔
      (∃ now, call = .updateState parentId .traderError now ∧ b.IsLive parentId ∧
        (b.parentToChildren.lookup parentId).isSome = true) ∨
      (parentId ∈ b.splitParentErrorLatched ∧ call ≠ .archiveOrder parentId ∧ call ≠ .clear) := by
  -- Only a trader error of the parent latches, and only archiving it or clearing the book
  -- unlatches.
  cases call with
  | addOrder entry now =>
      rw [after, (sets_of_marks (marks_addOrder b entry now)).2]
      simp
  | updateState orderId state now =>
      rw [isManagedParent, after, (marks_updateState b orderId state now).1] at hunmanaged
      rw [after, latched_updateState]
      constructor
      · rintro (hold | ⟨rfl, rfl, hlive, hlisted, -⟩)
        · exact Or.inr ⟨hold, by simp, by simp⟩
        · exact Or.inl ⟨now, rfl, hlive, hlisted⟩
      · rintro (⟨_, hcall, hlive, hlisted⟩ | ⟨hold, -⟩)
        · obtain ⟨rfl, rfl, -⟩ := Call.updateState.inj hcall
          exact Or.inr ⟨rfl, rfl, hlive, hlisted, hunmanaged⟩
        · exact Or.inl hold
  | updateTrade orderId vol px val fee now =>
      rw [after, (sets_of_marks (marks_updateTrade b orderId vol px val fee now)).2]
      simp
  | markManagedParent orderId =>
      rw [after, latched_markManagedParent]
      simp
  | syncManagedParentView orderId view state now =>
      rw [after, latched_syncManagedParentView]
      simp
  | archiveOrder orderId =>
      rw [after, latched_archiveOrder htidy]
      constructor
      · rintro ⟨hmem, hne⟩
        refine Or.inr ⟨hmem, ?_, by simp⟩
        exact fun hcall => hne (Call.archiveOrder.inj hcall).symm
      · rintro (⟨_, hcall, -⟩ | ⟨hmem, hother, -⟩)
        · exact absurd hcall (by simp)
        · exact ⟨hmem, fun heq => hother (congrArg Call.archiveOrder heq.symm)⟩
  | clear =>
      constructor
      · exact fun hmem => absurd hmem (Finset.notMem_empty _)
      · rintro (⟨_, hcall, -⟩ | ⟨-, -, hclear⟩)
        · exact absurd hcall (by simp)
        · exact absurd rfl hclear

/-- The latch of an unmanaged parent stands for an error in its past. -/
theorem latched_iff_setToError (calls : List Call) (parentId : InternalOrderId)
    (hunmanaged : (afterCalls calls).isManagedParent parentId = false) :
    parentId ∈ (afterCalls calls).splitParentErrorLatched ↔ SetToError calls parentId := by
  induction calls using List.reverseRecOn with
  | nil =>
      constructor
      · exact fun hmem => absurd hmem (Finset.notMem_empty _)
      · rintro ⟨earlier, later, now, heq, -⟩
        exact absurd heq.symm (by simp)
  | append_singleton calls call ih =>
      rw [afterCalls_append] at hunmanaged ⊢
      rw [latched_after (tidy_afterCalls calls) hunmanaged, setToError_append_iff]
      refine or_congr_right (and_congr_left ?_)
      rintro ⟨harchive, hclear⟩
      refine ih ?_
      rw [isManagedParent, decide_eq_false_iff_not] at hunmanaged ⊢
      exact fun hmem => hunmanaged (managed_after hmem harchive hclear)

/-! ## The parent after a change of a child -/

theorem newState?_refreshed {parent : OrderEntry} (hparent : b.findOrder parentId = some parent)
    {latched : Bool} {acc : ChildFold}
    (hfound : ∀ id, b'.findOrder id =
      if id = parentId then some (refreshParent parent latched acc) else b.findOrder id)
        (id : InternalOrderId) :
    b'.newState? id =
      if id = parentId then
        (b.newState? parentId).map fun _ => refreshedState latched acc parent.request.orderState
      else b.newState? id := by
  rw [newState?, newState?, newState?, hfound]
  split
  · rw [hparent, Option.bind_some, Option.bind_some]
    have htype : (refreshParent parent latched acc).request.orderType = parent.request.orderType :=
      rfl
    rw [htype]
    split <;> rfl
  · rfl

section Refreshed

variable {parent : OrderEntry} {latched : Bool} {acc : ChildFold}

theorem mem_newStates_refreshed (hparent : b.findOrder parentId = some parent)
    (hfound : ∀ id, b'.findOrder id =
      if id = parentId then some (refreshParent parent latched acc) else b.findOrder id)
    (hlinks : b'.links = b.links) (s : OrderState) (hs : s ∈ b'.newStates parentId) :
    s ∈ b.newStates parentId ∨ s = refreshedState latched acc parent.request.orderState := by
  rw [newStates_eq, List.mem_filterMap] at hs ⊢
  obtain ⟨c, hc, hstate⟩ := hs
  rw [newState?_refreshed hparent hfound] at hstate
  rw [getChildren_eq hlinks] at hc
  split at hstate
  · obtain ⟨-, -, heq⟩ := Option.map_eq_some_iff.1 hstate
    exact Or.inr heq.symm
  · exact Or.inl ⟨c, hc, hstate⟩

theorem refreshedState_mem_newStates (hparent : b.findOrder parentId = some parent)
    (hfound : ∀ id, b'.findOrder id =
      if id = parentId then some (refreshParent parent latched acc) else b.findOrder id)
    (hlinks : b'.links = b.links)
    (hs : refreshedState latched acc parent.request.orderState ∈ b.newStates parentId) :
    refreshedState latched acc parent.request.orderState ∈ b'.newStates parentId := by
  rw [newStates_eq, List.mem_filterMap] at hs ⊢
  obtain ⟨c, hc, hstate⟩ := hs
  refine ⟨c, (getChildren_eq hlinks parentId).symm ▸ hc, ?_⟩
  rw [newState?_refreshed hparent hfound]
  split
  next heq => rw [← heq, hstate, Option.map_some]
  next => exact hstate

/-- The states of the children change only where the parent is its own child and takes another
state. -/
theorem newStates_refreshed (hparent : b.findOrder parentId = some parent)
    (hfound : ∀ id, b'.findOrder id =
      if id = parentId then some (refreshParent parent latched acc) else b.findOrder id)
    (hlinks : b'.links = b.links)
    (hkept : parentId ∈ b.getChildren parentId →
      refreshedState latched acc parent.request.orderState = parent.request.orderState) :
    b'.newStates parentId = b.newStates parentId := by
  rw [newStates_eq, newStates_eq, getChildren_eq hlinks]
  refine List.filterMap_congr fun c hc => ?_
  rw [newState?_refreshed hparent hfound]
  split
  next heq =>
    subst heq
    rw [hkept hc, newState?, hparent, Option.bind_some]
    split <;> rfl
  next => rfl

end Refreshed

/-- The terms decide whether an order is a live new one. -/
theorem isSome_newState?_of_terms (hterms : b'.terms orderId = b.terms orderId) :
    (b'.newState? orderId).isSome = (b.newState? orderId).isSome := by
  have hsome : ∀ b : OrderBook, (b.newState? orderId).isSome =
      ((b.terms orderId).map fun t => decide (t.orderType = .new)).getD false := by
    intro b
    rw [newState?, terms]
    cases b.findOrder orderId with
    | none => rfl
    | some e =>
        rw [Option.bind_some, Option.map_some, Option.map_some, Option.getD_some, OrderEntry.terms]
        split
        next hnew => exact (decide_eq_true hnew).symm
        next hother => exact (decide_eq_false hother).symm
  rw [hsome, hsome, hterms]

/-- The live new children are the same before and after the refresh. -/
theorem newStates_ne_nil_iff (hterms : ∀ id, b'.terms id = b.terms id) (hlinks : b'.links = b.links)
    (parentId : InternalOrderId) : b'.newStates parentId ≠ [] ↔ b.newStates parentId ≠ [] := by
  rw [newStates_eq, newStates_eq, getChildren_eq hlinks, ne_eq, ne_eq, List.filterMap_eq_nil_iff,
    List.filterMap_eq_nil_iff]
  refine not_congr (forall_congr' fun id => forall_congr' fun _ => ?_)
  rw [← Option.not_isSome_iff_eq_none, isSome_newState?_of_terms (hterms id),
    Option.not_isSome_iff_eq_none]

theorem newStates_ne_nil (b : OrderBook) (parentId : InternalOrderId) :
    b.newStates parentId ≠ [] ↔ b.newChildren parentId ≠ [] := by
  rw [newStates, ne_eq, List.map_eq_nil_iff]

/-- A call that changes a child leaves the terms of every order as the refresh found them. -/
theorem terms_after (h : b.ChangesChild parentId call)
    (hunmanaged : b.isManagedParent parentId = false)
    (id : InternalOrderId) : (b.after call).terms id = (b.written call).terms id := by
  rw [terms, (agrees_refreshed h hunmanaged).findOrder, ← terms]
  exact (sameTerms_refreshParentFromChildren (b.written call) parentId).terms id

theorem ChangesChild.keeps (h : b.ChangesChild parentId call) (k : InternalOrderId) :
    call ≠ .archiveOrder k ∧ call ≠ .clear := by
  constructor
  · rintro rfl
    exact h
  · rintro rfl
    exact h

end OrderBook

open OrderBook in
/-- After every change of a child the state of an unmanaged parent is the one that its live new
children call for, when it was set to an error before or the children are decisive; and only then,
unless it is one of its own children. The parent's entry `parent` and the states of the children are
those that the change left to the aggregation. -/
theorem parent_status (calls : List Call) (call : Call) (parentId : InternalOrderId)
    {parent parent' : OrderEntry} (hchange : (afterCalls calls).ChangesChild parentId call)
    (hbefore : ((afterCalls calls).written call).findOrder parentId = some parent)
    (hunmanaged : (afterCalls (calls ++ [call])).isManagedParent parentId = false)
    (hafter : (afterCalls (calls ++ [call])).findOrder parentId = some parent')
    (hsome : (afterCalls (calls ++ [call])).newStates parentId ≠ []) :
    (SetToError (calls ++ [call]) parentId ∨
        Decisive parent.request.orderState (((afterCalls calls).written call).newStates parentId) →
      Aggregates (SetToError (calls ++ [call]) parentId) parent.request.orderState
        ((afterCalls (calls ++ [call])).newStates parentId) parent'.request.orderState) ∧
    (parentId ∉ (afterCalls (calls ++ [call])).getChildren parentId →
      Aggregates (SetToError (calls ++ [call]) parentId) parent.request.orderState
        ((afterCalls (calls ++ [call])).newStates parentId) parent'.request.orderState →
      SetToError (calls ++ [call]) parentId ∨
        Decisive parent.request.orderState
          (((afterCalls calls).written call).newStates parentId)) := by
  have herrored := latched_iff_setToError (calls ++ [call]) parentId hunmanaged
  rw [afterCalls_append] at hunmanaged hafter hsome herrored ⊢
  have hopen : (afterCalls calls).isManagedParent parentId = false := by
    rw [isManagedParent, decide_eq_false_iff_not] at hunmanaged ⊢
    exact fun hmem =>
      hunmanaged (managed_after hmem (hchange.keeps parentId).1 (hchange.keeps parentId).2)
  have hlinks := links_after hchange hopen
  have hmarks := sets_of_marks (marks_after hchange hopen)
  rw [newStates_ne_nil_iff (terms_after hchange hopen) hlinks, newStates_ne_nil] at hsome
  have hfound := findOrder_after hchange hopen hbefore hsome
  have htells := foldTells_foldChildren ((afterCalls calls).written call) parent hsome
  have hentry := hfound parentId
  rw [if_pos rfl, hafter, Option.some.injEq] at hentry
  rw [hmarks.2] at herrored
  have hlatched :
      decide (parentId ∈ ((afterCalls calls).written call).splitParentErrorLatched) = true ↔
      SetToError (calls ++ [call]) parentId := by rw [decide_eq_true_iff, herrored]
  subst hentry
  -- The children keep their states through the aggregation, but for a parent that is its own child.
  constructor
  · intro hdecisive
    exact aggregates_of_decisive htells hlatched hdecisive rfl
      (mem_newStates_refreshed hbefore hfound hlinks)
      (refreshedState_mem_newStates hbefore hfound hlinks)
      fun hkept => newStates_refreshed hbefore hfound hlinks fun _ => hkept
  · intro hother haggregates
    rw [newStates_refreshed hbefore hfound hlinks fun hown =>
      absurd ((getChildren_eq hlinks parentId).symm ▸ hown) hother] at haggregates
    exact decisive_of_aggregates htells hlatched rfl haggregates

namespace OrderBook

/-- A parent for 10 shares. -/
def splitParent : OrderEntry :=
  { request :=
    { internalOrderId := 1, orderType := .new, orderState := .userSubmitted, volumeEntrust := 10 } }

/-- A child of it for 5 shares. -/
def splitChild (orderId : InternalOrderId) (state : OrderState) : OrderEntry :=
  { request :=
    { internalOrderId := orderId, orderType := .new, orderState := state, volumeEntrust := 5 }
    isSplitChild := true
    parentOrderId := 1 }

end OrderBook

open OrderBook in
theorem parent_status_two_children :
    Aggregates (SetToError [.addOrder splitParent 1, .addOrder (splitChild 2 .finished) 2,
      .addOrder (splitChild 3 .brokerAccepted) 3] 1) .finished
        [.finished, .brokerAccepted] .brokerAccepted :=
  (@parent_status [.addOrder splitParent 1, .addOrder (splitChild 2 .finished) 2]
    (.addOrder (splitChild 3 .brokerAccepted) 3) 1 _ _ ⟨rfl, rfl, by decide, rfl⟩ rfl rfl rfl
      (by decide)).1 (Or.inr (Or.inr (Or.inl ⟨.brokerAccepted, by decide, by decide⟩)))

open OrderBook in
/-- A finished child in front of one that has no state yet: the parent is finished, and the child is
not. -/
theorem parent_finished_too_early :
    ¬ ∀ (calls : List Call) (call : Call) (parentId : InternalOrderId)
        (parent parent' : OrderEntry),
      (afterCalls calls).ChangesChild parentId call →
      ((afterCalls calls).written call).findOrder parentId = some parent →
      (afterCalls (calls ++ [call])).isManagedParent parentId = false →
      (afterCalls (calls ++ [call])).findOrder parentId = some parent' →
      (afterCalls (calls ++ [call])).newStates parentId ≠ [] →
      Aggregates (SetToError (calls ++ [call]) parentId) parent.request.orderState
        ((afterCalls (calls ++ [call])).newStates parentId) parent'.request.orderState := by
  intro h
  have haggregates := h [.addOrder splitParent 1, .addOrder (splitChild 2 .finished) 2]
    (.addOrder (splitChild 3 .notSet) 3) 1 _ _ ⟨rfl, rfl, by decide, rfl⟩ rfl rfl rfl (by decide)
  have hno : ¬ SetToError ([.addOrder splitParent 1, .addOrder (splitChild 2 .finished) 2] ++
      [.addOrder (splitChild 3 .notSet) 3]) 1 := by
    rw [← latched_iff_setToError _ _ rfl]
    decide
  exact absurd ((haggregates.terminal hno).1 (by decide) .notSet (by decide)) (by decide)

end AccountServices
