import AccountServices.Order.BookStates

/-!
# Registered children

`archive_order` drops an order from every container but the two that register children, so that an
id keeps its registration when it is used again. The marks of managed parents and of latched errors,
on the other hand, belong to live orders. An order that is registered as its own child takes the
state that the aggregation over the registered children gives it, whatever state it is set to.
-/

set_option autoImplicit false

namespace AccountServices

open Foundation

namespace OrderBook

variable {b b' : OrderBook} {orderId k : InternalOrderId}

/-- The order under the id is live. -/
def IsLive (b : OrderBook) (orderId : InternalOrderId) : Prop := b.terms orderId ≠ none

instance (b : OrderBook) (orderId : InternalOrderId) : Decidable (b.IsLive orderId) :=
  inferInstanceAs (Decidable (b.terms orderId ≠ none))

theorem isLive_of_findOrder {e : OrderEntry} (h : b.findOrder orderId = some e) :
    b.IsLive orderId := by
  rw [IsLive, terms, h, Option.map_some]
  exact Option.some_ne_none _

theorem SameTerms.isLive (h : SameTerms b b') : b'.IsLive k ↔ b.IsLive k := by
  rw [IsLive, IsLive, h.terms]

/-- Marks belong to live orders, and a child is in the list of its parent. -/
structure Tidy (b : OrderBook) : Prop where
  managed : ∀ k ∈ b.managedParentIds, b.IsLive k
  latched : ∀ k ∈ b.splitParentErrorLatched, b.IsLive k
  listed : ∀ c p, b.childToParent.lookup c = some p → c ∈ b.getChildren p

theorem tidy_empty : empty.Tidy where
  managed k hk := absurd hk (Finset.notMem_empty k)
  latched k hk := absurd hk (Finset.notMem_empty k)
  listed c p h := absurd h (by simp [empty])

/-! ## The marks -/

/-- The two sets of marks. -/
def marks (b : OrderBook) : Finset InternalOrderId × Finset InternalOrderId :=
  (b.managedParentIds, b.splitParentErrorLatched)

/-- Equal marks, set by set. -/
theorem sets_of_marks (h : b'.marks = b.marks) :
    b'.managedParentIds = b.managedParentIds ∧
      b'.splitParentErrorLatched = b.splitParentErrorLatched :=
  Prod.mk.inj h

theorem marks_refreshParentFromChildren (b : OrderBook) (parentId : InternalOrderId) :
    (b.refreshParentFromChildren parentId).1.marks = b.marks := by
  rw [refreshParentFromChildren]
  split
  · rfl
  split
  · rfl
  split
  · rfl
  simp only
  split <;> rfl

theorem marks_refreshParentOf (b : OrderBook) (orderId : InternalOrderId) :
    (b.refreshParentOf orderId).1.marks = b.marks := by
  rw [refreshParentOf]
  split
  · split
    · rfl
    · exact marks_refreshParentFromChildren b _
  · rfl

theorem marks_registerOrder (b : OrderBook) (orderId : InternalOrderId) (stored : OrderEntry) :
    (b.registerOrder orderId stored).marks = b.marks := by
  unfold registerOrder ensureNextOrderIdAtLeast
  simp only
  split <;> split <;> split <;> rfl

theorem marks_addOrder (b : OrderBook) (entry : OrderEntry) (now : TimestampNs) :
    (b.addOrder entry now).book.marks = b.marks := by
  rw [addOrder]
  simp only
  split
  · rfl
  split
  · rfl
  split
  · rfl
  have hstored : (b.stored entry now).marks = b.marks := marks_registerOrder _ _ _
  split
  · split
    · exact hstored
    · exact (marks_refreshParentFromChildren _ _).trans hstored
  · exact hstored

theorem marks_updateTrade (b : OrderBook) (orderId : InternalOrderId) (vol : Volume) (px : DPrice)
    (val fee : DValue) (now : TimestampNs) :
    (b.updateTrade orderId vol px val fee now).book.marks = b.marks := by
  rw [updateTrade]
  split
  · rfl
  · exact marks_refreshParentOf _ orderId

/-- A new state latches the error of the order that takes it, and changes no other mark. -/
theorem marks_updateState (b : OrderBook) (orderId : InternalOrderId) (state : OrderState)
    (now : TimestampNs) :
    (b.updateState orderId state now).book.managedParentIds = b.managedParentIds ∧
      ∀ k ∈ (b.updateState orderId state now).book.splitParentErrorLatched,
        k ∈ b.splitParentErrorLatched ∨ k = orderId ∧ state = .traderError ∧ b.IsLive orderId := by
  rw [updateState]
  split
  · exact ⟨rfl, fun k hk => Or.inl hk⟩
  next e he =>
    have hmarks := sets_of_marks
      (marks_refreshParentOf
        ((b.modifyOrder orderId fun _ => withState e state now).latchSplitError orderId state)
        orderId)
    simp only
    rw [hmarks.1, hmarks.2]
    rw [latchSplitError]
    split
    next hlatch =>
      refine ⟨rfl, fun k hk => ?_⟩
      rcases Finset.mem_insert.1 hk with rfl | hold
      · exact Or.inr ⟨rfl, hlatch.1, isLive_of_findOrder he⟩
      · exact Or.inl hold
    next => exact ⟨rfl, fun k hk => Or.inl hk⟩

/-! ## Operations keep the book tidy -/

namespace Tidy

/-- Operations that end no order and leave marks and links alone. -/
theorem of_marks (h : b.Tidy) (hlive : ∀ k, b.IsLive k → b'.IsLive k) (hmarks : b'.marks = b.marks)
    (hlinks : b'.links = b.links) : b'.Tidy := by
  replace hmarks := sets_of_marks hmarks
  rw [links, links, Prod.mk.injEq] at hlinks
  refine ⟨?_, ?_, ?_⟩
  · intro k hk
    exact hlive k (h.managed k (hmarks.1 ▸ hk))
  · intro k hk
    exact hlive k (h.latched k (hmarks.2 ▸ hk))
  · intro c p hc
    rw [hlinks.1] at hc
    rw [getChildren, hlinks.2]
    exact h.listed c p hc

theorem updateState (h : b.Tidy) (orderId : InternalOrderId) (state : OrderState)
    (now : TimestampNs) : (b.updateState orderId state now).book.Tidy := by
  obtain ⟨hmanaged, hlatched⟩ := marks_updateState b orderId state now
  have hsame := sameTerms_updateState b orderId state now
  have hlinks := links_updateState b orderId state now
  rw [links, links, Prod.mk.injEq] at hlinks
  refine ⟨?_, ?_, ?_⟩
  · intro k hk
    exact hsame.isLive.2 (h.managed k (hmanaged ▸ hk))
  · intro k hk
    refine hsame.isLive.2 ?_
    rcases hlatched k hk with hold | ⟨rfl, -, hlive⟩
    · exact h.latched k hold
    · exact hlive
  · intro c p hc
    rw [hlinks.1] at hc
    rw [getChildren, hlinks.2]
    exact h.listed c p hc

theorem updateTrade (h : b.Tidy) (orderId : InternalOrderId) (vol : Volume) (px : DPrice)
    (val fee : DValue) (now : TimestampNs) : (b.updateTrade orderId vol px val fee now).book.Tidy :=
  h.of_marks (fun _ => (sameTerms_updateTrade b orderId vol px val fee now).isLive.2)
    (marks_updateTrade b orderId vol px val fee now)
      (links_updateTrade b orderId vol px val fee now)

theorem markManagedParent (h : b.Tidy) (parentId : InternalOrderId) :
    (b.markManagedParent parentId).book.Tidy := by
  rw [OrderBook.markManagedParent]
  split
  · exact h
  next e he =>
    refine ⟨fun k hk => ?_, h.latched, h.listed⟩
    rcases Finset.mem_insert.1 hk with rfl | hold
    · exact isLive_of_findOrder he
    · exact h.managed k hold

theorem syncManagedParentView (h : b.Tidy) (parentId : InternalOrderId) (view : ManagedParentView)
    (state : OrderState) (now : TimestampNs) :
    (b.syncManagedParentView parentId view state now).book.Tidy := by
  have hsame := sameTerms_syncManagedParentView b parentId view state now
  revert hsame
  rw [OrderBook.syncManagedParentView]
  split
  · exact fun _ => h
  next e he =>
    have hmark : ∀ k ∈ insert parentId b.managedParentIds, b.IsLive k := by
      intro k hk
      rcases Finset.mem_insert.1 hk with rfl | hold
      · exact isLive_of_findOrder he
      · exact h.managed k hold
    simp only
    split
    · exact fun hsame => ⟨fun k hk => hsame.isLive.2 (hmark k hk),
        fun k hk => hsame.isLive.2 (h.latched k hk), h.listed⟩
    · exact fun hsame => ⟨fun k hk => hsame.isLive.2 (hmark k hk),
        fun k hk => hsame.isLive.2 (h.latched k hk), h.listed⟩

theorem addOrder (h : b.Tidy) (entry : OrderEntry) (now : TimestampNs) :
    (b.addOrder entry now).book.Tidy := by
  cases hok : (b.addOrder entry now).ok with
  | false => rwa [addOrder_of_not_ok hok]
  | true =>
      have hlive : ∀ k, b.IsLive k → (b.addOrder entry now).book.IsLive k := by
        intro k hk
        obtain ⟨t, ht⟩ := Option.ne_none_iff_exists'.1 hk
        rw [IsLive, terms_addOrder_of_live ht]
        exact Option.some_ne_none _
      by_cases hchild : entry.isSplitChild = true ∧ entry.parentOrderId ≠ 0
      · have hlinks := links_addOrder_child hok hchild.1 hchild.2
        have hmarks := sets_of_marks (marks_addOrder b entry now)
        rw [links, Prod.mk.injEq] at hlinks
        refine ⟨fun k hk => hlive k (h.managed k (hmarks.1 ▸ hk)),
          fun k hk => hlive k (h.latched k (hmarks.2 ▸ hk)), fun c p hc => ?_⟩
        rw [hlinks.1, Map.lookup_insert_eq] at hc
        rw [getChildren, hlinks.2, Map.lookup_insert_eq]
        split at hc
        next heq =>
          obtain rfl := Option.some.inj hc
          rw [if_pos rfl, heq]
          exact List.mem_append_right _ List.mem_cons_self
        next =>
          have hmem := h.listed c p hc
          split
          next heq => exact List.mem_append_left _ (heq ▸ hmem)
          next => exact hmem
      · exact h.of_marks hlive (marks_addOrder b entry now) (links_addOrder_orphan b now hchild)

theorem archiveOrder (h : b.Tidy) (orderId : InternalOrderId) :
    (b.archiveOrder orderId).book.Tidy := by
  have hlive : ∀ k, k ≠ orderId → b.IsLive k → (b.archiveOrder orderId).book.IsLive k := by
    intro k hne hk
    rw [IsLive, terms_archiveOrder, if_neg hne]
    exact hk
  cases he : b.findOrder orderId with
  | none => rwa [archiveOrder_of_none he]
  | some e =>
      revert hlive
      rw [OrderBook.archiveOrder]
      rw [he]
      intro hlive
      refine ⟨fun k hk => ?_, fun k hk => ?_, h.listed⟩
      · obtain ⟨hne, hold⟩ := Finset.mem_erase.1 hk
        exact hlive k hne (h.managed k hold)
      · obtain ⟨hne, hold⟩ := Finset.mem_erase.1 hk
        exact hlive k hne (h.latched k hold)

end Tidy

/-! ## The aggregation over a list of children -/

/-- A live new order in the list has this state. -/
def HasNewChild (b : OrderBook) (children : List InternalOrderId) (state : OrderState) : Prop :=
  ∃ c ∈ children, ∃ e, b.findOrder c = some e ∧ e.request.orderType = .new ∧
    e.request.orderState = state

/-- What the accumulators say of the states that were added. -/
structure ChildFold.Describes (acc : ChildFold) (states : OrderState → Prop) : Prop where
  terminal : acc.allTerminal = true ↔ ∀ s, states s → s.isTerminal = true
  none : acc.newChildCount = 0 → (∀ s, ¬ states s) ∧ acc.bestProgressRank = -1
  best : acc.newChildCount ≠ 0 → states acc.bestProgressStatus ∧
    acc.bestProgressStatus.progressRank = acc.bestProgressRank ∧
    ∀ s, states s → s.progressRank ≤ acc.bestProgressRank

theorem progressRank_nonneg (s : OrderState) : 0 ≤ s.progressRank := by
  cases s <;> decide

theorem ChildFold.describes_add {acc : ChildFold} {states : OrderState → Prop}
    (h : acc.Describes states) {e : OrderEntry} (hnew : e.request.orderType = .new) :
    (acc.add (some e)).Describes fun s => states s ∨ s = e.request.orderState := by
  rw [ChildFold.add]
  simp only [if_pos hnew]
  have hpos := progressRank_nonneg e.request.orderState
  refine ⟨?_, ?_, ?_⟩
  -- All are terminal if the ones so far are and the new one is.
  · simp only [Bool.and_eq_true, h.terminal]
    constructor
    · rintro ⟨hold, hterm⟩ s (hs | rfl)
      · exact hold s hs
      · exact hterm
    · intro hall
      exact ⟨fun s hs => hall s (Or.inl hs), hall _ (Or.inr rfl)⟩
  · intro hzero
    exact absurd hzero (Nat.succ_ne_zero _)
  · intro _
    simp only
    -- The first new child has the best rank, which starts at -1.
    by_cases hcount : acc.newChildCount = 0
    · obtain ⟨hnone, hrank⟩ := h.none hcount
      rw [hrank, if_pos (by omega), max_eq_right (by omega)]
      refine ⟨Or.inr rfl, rfl, ?_⟩
      rintro s (hs | rfl)
      · exact absurd hs (hnone s)
      · exact le_rfl
    -- A later one takes over only if it is strictly better.
    · obtain ⟨hmem, hrank, hle⟩ := h.best hcount
      by_cases hbetter : e.request.orderState.progressRank > acc.bestProgressRank
      · rw [if_pos hbetter, max_eq_right (by omega)]
        refine ⟨Or.inr rfl, rfl, ?_⟩
        rintro s (hs | rfl)
        · exact (hle s hs).trans (by omega)
        · exact le_rfl
      · rw [if_neg hbetter, max_eq_left (by omega)]
        refine ⟨Or.inl hmem, hrank, ?_⟩
        rintro s (hs | rfl)
        · exact hle s hs
        · omega

theorem ChildFold.Describes.congr {acc : ChildFold} {states states' : OrderState → Prop}
    (h : acc.Describes states) (heq : ∀ s, states s ↔ states' s) : acc.Describes states' := by
  have : states = states' := funext fun s => propext (heq s)
  exact this ▸ h

/-- The fold over the children describes the states of the live new orders among them. -/
theorem describes_foldChildren (b : OrderBook) (parent : OrderEntry)
    (children : List InternalOrderId) :
    (b.foldChildren parent children).Describes (b.HasNewChild children) := by
  -- The accumulator describes the states that it has seen and those to come.
  have hfold : ∀ (rest : List InternalOrderId) (acc : ChildFold) (states : OrderState → Prop),
      acc.Describes states →
      (rest.foldl (fun acc childId => acc.add (b.findOrder childId)) acc).Describes
        fun s => states s ∨ b.HasNewChild rest s := by
    intro rest
    induction rest with
    | nil => exact fun acc states h => h.congr fun s => by simp [HasNewChild]
    | cons c rest ih =>
        intro acc states h
        rw [List.foldl_cons]
        -- A child that is not live, or not a new order, is passed over.
        have hskip : (∀ e, b.findOrder c = some e → e.request.orderType ≠ .new) →
            ∀ s, b.HasNewChild (c :: rest) s ↔ b.HasNewChild rest s := by
          intro hnot s
          constructor
          · rintro ⟨d, hd, e, he, hnew, hstate⟩
            rcases List.mem_cons.1 hd with rfl | hd
            · exact absurd hnew (hnot e he)
            · exact ⟨d, hd, e, he, hnew, hstate⟩
          · rintro ⟨d, hd, e, he, hnew, hstate⟩
            exact ⟨d, List.mem_cons_of_mem _ hd, e, he, hnew, hstate⟩
        cases he : b.findOrder c with
        | none =>
            refine (ih acc states h).congr fun s => ?_
            rw [hskip (by simp [he]) s]
        | some e =>
            by_cases hnew : e.request.orderType = .new
            · refine (ih _ _ (ChildFold.describes_add h hnew)).congr fun s => ?_
              constructor
              · rintro ((hs | rfl) | ⟨d, hd, e', he', hnew', hstate⟩)
                · exact Or.inl hs
                · exact Or.inr ⟨c, List.mem_cons_self, e, he, hnew, rfl⟩
                · exact Or.inr ⟨d, List.mem_cons_of_mem _ hd, e', he', hnew', hstate⟩
              · rintro (hs | ⟨d, hd, e', he', hnew', hstate⟩)
                · exact Or.inl (Or.inl hs)
                · rcases List.mem_cons.1 hd with rfl | hd
                  · rw [he, Option.some.injEq] at he'
                    exact Or.inl (Or.inr (he' ▸ hstate.symm))
                  · exact Or.inr ⟨d, hd, e', he', hnew', hstate⟩
            · have hadd : acc.add (some e) = acc := by
                simp only [ChildFold.add, if_neg hnew]
              rw [hadd]
              refine (ih acc states h).congr fun s => ?_
              rw [hskip (by simp [he, hnew]) s]
  have hstart : ({ latestUpdateNs := parent.lastUpdateNs } : ChildFold).Describes fun _ => False :=
    ⟨by simp, fun _ => ⟨fun _ h => h, rfl⟩, fun h => absurd rfl h⟩
  exact (hfold children _ _ hstart).congr fun s => by simp

/-! ## An order that is registered as its own child -/

/-- A live new order that is registered beside `k` has this state. -/
def HasSibling (b : OrderBook) (k : InternalOrderId) (state : OrderState) : Prop :=
  ∃ c ∈ b.getChildren k, c ≠ k ∧ ∃ e, b.findOrder c = some e ∧ e.request.orderType = .new ∧
    e.request.orderState = state

/-- The order is registered as its own child and carries no mark. -/
structure SelfRegistered (b : OrderBook) (k : InternalOrderId) : Prop where
  parent : b.childToParent.lookup k = some k
  mem : k ∈ b.getChildren k
  unmanaged : k ∉ b.managedParentIds

theorem SelfRegistered.children (h : b.SelfRegistered k) :
    b.parentToChildren.lookup k = some (b.getChildren k) := by
  have hmem := h.mem
  rw [getChildren] at hmem ⊢
  cases hlookup : b.parentToChildren.lookup k with
  | none => simp [hlookup] at hmem
  | some children => rfl

theorem SelfRegistered.not_managed (h : b.SelfRegistered k) : ¬ b.isManagedParent k = true := by
  simpa [isManagedParent] using h.unmanaged

/-- A new state of such an order is replaced by that of the aggregation. -/
theorem SelfRegistered.updateState (h : b.SelfRegistered k) {e : OrderEntry}
    (he : b.findOrder k = some e) (hnew : e.request.orderType = .new) (state : OrderState)
    (now : TimestampNs) :
    ∃ acc : ChildFold, acc.Describes (fun s => s = state ∨ b.HasSibling k s) ∧
      acc.newChildCount ≠ 0 ∧
      (b.updateState k state now).book.findOrder k = some (refreshParent (withState e state now)
        (decide (k ∈ b.splitParentErrorLatched ∨ state = .traderError)) acc) := by
  have hlatch : (b.modifyOrder k fun _ => withState e state now).latchSplitError k state =
      { b.modifyOrder k (fun _ => withState e state now) with
        splitParentErrorLatched :=
          if state = .traderError then insert k b.splitParentErrorLatched
          else b.splitParentErrorLatched } := by
    rw [latchSplitError]
    have hisSome :
        ((b.modifyOrder k fun _ => withState e state now).parentToChildren.lookup k).isSome := by
      rw [show (b.modifyOrder k fun _ => withState e state now).parentToChildren =
        b.parentToChildren from rfl, h.children]
      rfl
    have hmanaged : ¬ (b.modifyOrder k fun _ => withState e state now).isManagedParent k = true :=
      h.not_managed
    by_cases herror : state = .traderError
    · rw [if_pos ⟨herror, hisSome, hmanaged⟩, if_pos herror]
      rfl
    · rw [if_neg fun hall => herror hall.1, if_neg herror]
      rfl
  -- the book in which the aggregation runs
  generalize hb₁ : ({ b.modifyOrder k (fun _ => withState e state now) with
      splitParentErrorLatched :=
        if state = .traderError then insert k b.splitParentErrorLatched
        else b.splitParentErrorLatched } : OrderBook) = b₁ at hlatch
  have hfind : ∀ c, b₁.findOrder c = if c = k then some (withState e state now) else
      b.findOrder c := by
    intro c
    rw [← hb₁]
    refine (findOrder_modifyOrder b k _ c).trans ?_
    rw [he, Option.map_some]
  have hstates : ∀ s, b₁.HasNewChild (b.getChildren k) s ↔ s = state ∨ b.HasSibling k s := by
    intro s
    constructor
    · rintro ⟨c, hc, e', he', hnew', hstate⟩
      rw [hfind] at he'
      split at he'
      · obtain rfl := Option.some.inj he'
        exact Or.inl hstate.symm
      next hne => exact Or.inr ⟨c, hc, hne, e', he', hnew', hstate⟩
    · rintro (rfl | ⟨c, hc, hne, e', he', hnew', hstate⟩)
      · exact ⟨k, h.mem, withState e s now, by rw [hfind, if_pos rfl], hnew, rfl⟩
      · exact ⟨c, hc, e', by rw [hfind, if_neg hne, he'], hnew', hstate⟩
  have hdescribes :=
    (describes_foldChildren b₁ (withState e state now) (b.getChildren k)).congr hstates
  have hcount : (b₁.foldChildren (withState e state now) (b.getChildren k)).newChildCount ≠ 0 := by
    intro hzero
    exact (hdescribes.none hzero).1 state (Or.inl rfl)
  refine ⟨_, hdescribes, hcount, ?_⟩
  have hparent : b₁.childToParent.lookup k = some k := by
    rw [← hb₁]
    exact h.parent
  have hmanaged : ¬ b₁.isManagedParent k = true := by
    rw [← hb₁]
    exact h.not_managed
  have hchildren : b₁.parentToChildren.lookup k = some (b.getChildren k) := by
    rw [← hb₁]
    exact h.children
  have hlatched : k ∈ b₁.splitParentErrorLatched ↔
      (k ∈ b.splitParentErrorLatched ∨ state = .traderError) := by
    rw [← hb₁]
    by_cases herror : state = .traderError
    · simp [herror]
    · simp [herror]
  rw [OrderBook.updateState]
  rw [he]
  simp only
  rw [hlatch]
  simp only [refreshParentOf, hparent, if_neg hmanaged, refreshParentFromChildren, hfind k, if_true,
    hchildren, if_neg hcount]
  refine (findOrder_modifyOrder b₁ k _ k).trans ?_
  rw [if_pos rfl, hfind k, if_pos rfl, Option.map_some]
  congr 2
  simp only [hlatched]

/-- An error sticks. -/
theorem SelfRegistered.updateState_error (h : b.SelfRegistered k) {e : OrderEntry}
    (he : b.findOrder k = some e) (hnew : e.request.orderType = .new) (now : TimestampNs) :
    (b.updateState k .traderError now).book.stateOf k = some .traderError := by
  obtain ⟨acc, -, -, hfind⟩ := h.updateState he hnew .traderError now
  rw [stateOf, hfind, Option.map_some]
  simp only [refreshParent, refreshedState, or_true, decide_true, if_true]

/-- A terminal state without progress holds exactly when no sibling makes progress. -/
theorem SelfRegistered.isTerminal_updateState_iff (h : b.SelfRegistered k)
    (hunlatched : k ∉ b.splitParentErrorLatched) {e : OrderEntry} (he : b.findOrder k = some e)
    (hnew : e.request.orderType = .new) {state : OrderState} (hterminal : state.isTerminal = true)
    (hstate : state ≠ .traderError) (now : TimestampNs) :
    (∃ s, (b.updateState k state now).book.stateOf k = some s ∧ s.isTerminal = true) ↔
      ∀ s, b.HasSibling k s → s.progressRank = 0 := by
  obtain ⟨acc, hdescribes, hcount, hfind⟩ := h.updateState he hnew state now
  obtain ⟨hmem, hrank, hbest⟩ := hdescribes.best hcount
  have hlatched : ¬ (k ∈ b.splitParentErrorLatched ∨ state = .traderError) :=
    not_or.2 ⟨hunlatched, hstate⟩
  have hself : state.progressRank = 0 :=
    (OrderState.progressRank_eq_zero_iff state).2 (Or.inr hterminal)
  rw [stateOf, hfind, Option.map_some]
  simp only [Option.some.injEq, exists_eq_left', refreshParent, hlatched, decide_false]
  constructor
  · intro hres s hs
    -- a sibling with progress would be the best one, and the parent would follow it
    have hle := hbest s (Or.inr hs)
    have hpos := progressRank_nonneg s
    simp only [refreshedState, Bool.false_eq_true, if_false] at hres
    split at hres
    next hall =>
      exact (OrderState.progressRank_eq_zero_iff s).2
        (Or.inr (hdescribes.terminal.1 hall s (Or.inr hs)))
    next hnot =>
      split at hres
      next hset =>
        have := (OrderState.progressRank_eq_zero_iff _).2 (Or.inr hres)
        omega
      next hset =>
        have hzero : acc.bestProgressStatus.progressRank = 0 := by
          rw [not_not.1 hset]
          rfl
        omega
  · intro hidle
    refine isTerminal_refreshedState (Or.inl ?_) hterminal
    rcases hmem with heq | hs
    · rw [heq, hself]
    · exact hidle _ hs

/-- The submitted state holds exactly when no sibling has got further. -/
theorem SelfRegistered.submitted_updateState_iff (h : b.SelfRegistered k)
    (hunlatched : k ∉ b.splitParentErrorLatched) {e : OrderEntry} (he : b.findOrder k = some e)
    (hnew : e.request.orderType = .new) (now : TimestampNs) :
    (b.updateState k .traderSubmitted now).book.stateOf k = some .traderSubmitted ↔
      ∀ s, b.HasSibling k s → s.progressRank ≤ OrderState.progressRank .traderSubmitted := by
  obtain ⟨acc, hdescribes, hcount, hfind⟩ := h.updateState he hnew .traderSubmitted now
  obtain ⟨hmem, hrank, hbest⟩ := hdescribes.best hcount
  have hlatched : ¬ (k ∈ b.splitParentErrorLatched ∨ OrderState.traderSubmitted = .traderError) :=
    not_or.2 ⟨hunlatched, by simp⟩
  -- the order itself is open and makes progress
  have hopen : ¬ acc.allTerminal = true := by
    intro hall
    exact absurd (hdescribes.terminal.1 hall .traderSubmitted (Or.inl rfl)) (by decide)
  have hself := hbest .traderSubmitted (Or.inl rfl)
  have hset : acc.bestProgressStatus ≠ .notSet := by
    intro heq
    rw [← hrank, heq] at hself
    exact absurd hself (by decide)
  rw [stateOf, hfind, Option.map_some]
  simp only [Option.some.injEq, refreshParent, hlatched, decide_false, refreshedState, hopen,
    Bool.false_eq_true, if_false, if_pos hset]
  constructor
  · intro heq s hs
    rw [← hrank, heq] at hbest
    exact hbest s (Or.inr hs)
  · intro hle
    rcases hmem with heq | hs
    · exact heq
    · have hbound := hle _ hs
      have hrank5 : acc.bestProgressStatus.progressRank = OrderState.progressRank
          .traderSubmitted := by
        omega
      revert hrank5
      cases acc.bestProgressStatus <;> decide

end OrderBook

end AccountServices
