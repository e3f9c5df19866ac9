import AccountServices.Order.BookTerms

/-!
# What the operations of the book do to the states of orders

`update_state` stores the state it is given, `update_trade` finishes an order that has nothing left
to trade, and either may be followed by the aggregation of the parent of the order. No other order
changes its state.
-/

set_option autoImplicit false

namespace AccountServices

open Foundation

/-- Without progress an order is terminal, or its state was never set. -/
theorem OrderState.progressRank_eq_zero_iff (s : OrderState) :
    s.progressRank = 0 ↔ s = .notSet ∨ s.isTerminal = true := by
  cases s <;> decide

namespace OrderBook

variable {b : OrderBook} {orderId id : InternalOrderId}

/-- The state of the order under an id, if it is live. -/
def stateOf (b : OrderBook) (orderId : InternalOrderId) : Option OrderState :=
  (b.findOrder orderId).map fun e => e.request.orderState

/-- The order is not live, or it is terminal. -/
def SettledAt (b : OrderBook) (orderId : InternalOrderId) : Prop :=
  ∀ s, b.stateOf orderId = some s → s.isTerminal = true

/-! ## The aggregation -/

/-- No new order among the children makes progress. -/
def IdleChildren (b : OrderBook) (children : List InternalOrderId) : Prop :=
  ∀ childId ∈ children, ∀ e, b.findOrder childId = some e → e.request.orderType = .new →
    e.request.orderState.progressRank = 0

theorem ChildFold.rank_add {acc : ChildFold} (hacc : acc.bestProgressStatus.progressRank = 0)
    {child : Option OrderEntry} (hchild : ∀ e, child = some e → e.request.orderType = .new →
      e.request.orderState.progressRank = 0) :
    (acc.add child).bestProgressStatus.progressRank = 0 := by
  cases child with
  | none => exact hacc
  | some e =>
      rw [ChildFold.add]
      by_cases hnew : e.request.orderType = .new
      · simp only [if_pos hnew]
        split
        · exact hchild e rfl hnew
        · exact hacc
      · simp only [if_neg hnew]
        exact hacc

theorem foldChildren_idle {children : List InternalOrderId} (h : b.IdleChildren children)
    (parent : OrderEntry) :
    (b.foldChildren parent children).bestProgressStatus.progressRank = 0 := by
  have hfold : ∀ (ids : List InternalOrderId) (acc : ChildFold),
      (∀ childId ∈ ids, childId ∈ children) → acc.bestProgressStatus.progressRank = 0 →
      (ids.foldl (fun acc childId => acc.add (b.findOrder childId))
        acc).bestProgressStatus.progressRank = 0 := by
    intro ids
    induction ids with
    | nil => exact fun _ _ hacc => hacc
    | cons childId rest ih =>
        intro acc hsub hacc
        refine ih _ (fun c hc => hsub c (List.mem_cons_of_mem _ hc)) (ChildFold.rank_add hacc ?_)
        exact h childId (hsub childId List.mem_cons_self)
  exact hfold children _ (fun _ hc => hc) rfl

/-- A terminal parent stays terminal when none of its children makes progress. -/
theorem isTerminal_refreshedState {acc : ChildFold} {latched : Bool} {current : OrderState}
    (hrank : acc.bestProgressStatus.progressRank = 0 ∨ latched = true)
    (hcurrent : current.isTerminal = true) :
    (refreshedState latched acc current).isTerminal = true := by
  rw [refreshedState]
  split
  · rfl
  next hlatched =>
    split
    · rfl
    split
    next hbest =>
      have hzero := hrank.resolve_right hlatched
      exact ((OrderState.progressRank_eq_zero_iff _).1 hzero).resolve_left hbest
    next => exact hcurrent

/-- The aggregation after a change of `orderId` would not stop at a terminal parent `id`: the parent
is not managed, carries no error latch, and a new order among its children makes progress. -/
def ReopensParent (b : OrderBook) (orderId id : InternalOrderId) : Prop :=
  b.childToParent.lookup orderId = some id ∧ b.isManagedParent id = false ∧
    id ∉ b.splitParentErrorLatched ∧ ¬ b.IdleChildren (b.getChildren id)

/-- The order `id` is settled and changes of `orderId` keep it so. -/
structure StaysSettled (b : OrderBook) (orderId id : InternalOrderId) : Prop where
  settled : b.SettledAt id
  shut : ¬ b.ReopensParent orderId id

/-- A write that keeps the type of an order and its state, or makes it terminal. -/
theorem StaysSettled.modifyOrder (h : b.StaysSettled orderId id) {target : InternalOrderId}
    {e : OrderEntry} (he : b.findOrder target = some e) {f : OrderEntry → OrderEntry}
    (htype : (f e).request.orderType = e.request.orderType)
    (hstate : (f e).request.orderState.isTerminal = true ∨
      (f e).request.orderState = e.request.orderState) :
    (b.modifyOrder target f).StaysSettled orderId id where
  -- the order itself, if it is the one that is written
  settled := by
    intro s hs
    rw [stateOf] at hs
    rw [findOrder_modifyOrder] at hs
    by_cases heq : id = target
    · rw [if_pos heq, he, Option.map_some, Option.map_some, Option.some.injEq] at hs
      rcases hstate with hterm | hsame
      · exact hs ▸ hterm
      · refine h.settled s ?_
        rw [stateOf]
        rw [heq, he, Option.map_some, ← hs, hsame]
    · rw [if_neg heq] at hs
      exact h.settled s hs
  -- a child that is written keeps its rank, or loses it
  shut := by
    rintro ⟨hlookup, hmanaged, hlatched, hbusy⟩
    refine h.shut
      ⟨hlookup, hmanaged, hlatched, fun hidle => hbusy fun childId hchild c hc hnew => ?_⟩
    rw [findOrder_modifyOrder] at hc
    by_cases heq : childId = target
    · rw [if_pos heq, he, Option.map_some, Option.some.injEq] at hc
      subst hc
      rcases hstate with hterm | hsame
      · exact (OrderState.progressRank_eq_zero_iff _).2 (Or.inr hterm)
      · rw [hsame]
        exact hidle childId hchild e (heq ▸ he) (htype.symm.trans hnew)
    · rw [if_neg heq] at hc
      exact hidle childId hchild c hc hnew

theorem StaysSettled.refreshParentFromChildren (h : b.StaysSettled orderId id)
    {parentId : InternalOrderId} (hparentId : b.childToParent.lookup orderId = some parentId) :
    (b.refreshParentFromChildren parentId).1.StaysSettled orderId id := by
  rw [OrderBook.refreshParentFromChildren]
  split
  · exact h
  next hmanaged =>
    split
    · exact h
    next parent hparent =>
      split
      · exact h
      next children hchildren =>
        simp only
        split
        · exact h
        next =>
          -- The order is the parent that is refreshed: its state stays terminal, since its children
          -- are idle or an error is latched.
          by_cases heq : id = parentId
          · subst heq
            have hcurrent : parent.request.orderState.isTerminal = true := by
              refine h.settled _ ?_
              rw [stateOf, hparent, Option.map_some]
            have hchild : b.getChildren id = children := by
              rw [getChildren, hchildren, Option.getD_some]
            refine h.modifyOrder hparent rfl (Or.inl (isTerminal_refreshedState ?_ hcurrent))
            by_cases hlatched : id ∈ b.splitParentErrorLatched
            · exact Or.inr (decide_eq_true hlatched)
            · refine Or.inl (foldChildren_idle ?_ parent)
              have hunmanaged := Bool.eq_false_iff.2 hmanaged
              exact Classical.byContradiction fun hbusy =>
                h.shut ⟨hparentId, hunmanaged, hlatched, hchild ▸ hbusy⟩
          -- The refresh writes another order, so this one keeps its state and cannot be reopened.
          · refine ⟨?_, fun hopen => heq (Option.some.inj (hopen.1.symm.trans hparentId))⟩
            intro s hs
            rw [stateOf, findOrder_modifyOrder, if_neg heq] at hs
            exact h.settled s hs

theorem StaysSettled.refreshParentOf (h : b.StaysSettled orderId id) :
    (b.refreshParentOf orderId).1.StaysSettled orderId id := by
  rw [OrderBook.refreshParentOf]
  split
  next parentId hparent =>
    split
    · exact h
    · exact h.refreshParentFromChildren hparent
  next => exact h

/-! ## The operations -/

/-- A new state of `orderId` reopens the settled order `id`: it is the order itself and the state is
not terminal, or it is the parent, and the aggregation reopens it. -/
def Reopens (b : OrderBook) (orderId : InternalOrderId) (newState : OrderState)
    (id : InternalOrderId) : Prop :=
  (id = orderId ∧ newState.isTerminal = false) ∨
    (b.childToParent.lookup orderId = some id ∧ b.isManagedParent id = false ∧
      id ∉ b.splitParentErrorLatched ∧
      ∃ childId ∈ b.getChildren id, ∃ e, b.findOrder childId = some e ∧ e.request.orderType = .new ∧
        (if childId = orderId then newState else e.request.orderState).progressRank ≠ 0)

theorem latchSplitError_eq (b : OrderBook) (orderId : InternalOrderId) (state : OrderState) :
    ∃ latched, b.latchSplitError orderId state = { b with splitParentErrorLatched := latched } ∧
      b.splitParentErrorLatched ⊆ latched := by
  rw [latchSplitError]
  split
  · exact ⟨_, rfl, Finset.subset_insert _ _⟩
  · exact ⟨_, rfl, Finset.Subset.refl _⟩

/-- A state that does not reopen a settled order leaves it settled, and so do the changes that
follow. A terminal state settles its own order. -/
theorem staysSettled_updateState (h : id = orderId ∨ b.SettledAt id) {e : OrderEntry}
    (he : b.findOrder orderId = some e) {newState : OrderState}
    (hkeep : ¬ b.Reopens orderId newState id)
    (now : TimestampNs) : (b.updateState orderId newState now).book.StaysSettled orderId id := by
  rw [updateState]
  rw [he]
  simp only
  obtain ⟨latched, hlatch, hsub⟩ :=
    latchSplitError_eq (b.modifyOrder orderId fun _ => withState e newState now) orderId newState
  rw [hlatch]
  refine StaysSettled.refreshParentOf ⟨?_, ?_⟩
  · intro s hs
    change ((b.modifyOrder orderId _).findOrder id).map _ = some s at hs
    rw [findOrder_modifyOrder] at hs
    by_cases heq : id = orderId
    · rw [if_pos heq, he, Option.map_some, Option.map_some, Option.some.injEq] at hs
      rw [← hs]
      exact Classical.byContradiction fun hopen => hkeep (Or.inl ⟨heq, Bool.eq_false_iff.2 hopen⟩)
    · rw [if_neg heq] at hs
      exact h.resolve_left heq s hs
  · rintro ⟨hlookup, hmanaged, hlatched, hbusy⟩
    refine hbusy fun childId hchild c hc hnew => Classical.byContradiction fun hrank =>
      hkeep (Or.inr ⟨hlookup, hmanaged, fun hmem => hlatched (hsub hmem), childId, hchild, ?_⟩)
    change (b.modifyOrder orderId _).findOrder childId = some c at hc
    rw [findOrder_modifyOrder] at hc
    by_cases heq : childId = orderId
    · rw [if_pos heq, he, Option.map_some, Option.some.injEq] at hc
      subst hc
      exact ⟨e, heq ▸ he, hnew, by rw [if_pos heq]; exact hrank⟩
    · rw [if_neg heq] at hc
      exact ⟨c, hc, hnew, by rw [if_neg heq]; exact hrank⟩

/-! ## The order itself -/

/-- The aggregation writes to the parent only. -/
theorem findOrder_refreshParentFromChildren {parentId : InternalOrderId} (hne : id ≠ parentId) :
    (b.refreshParentFromChildren parentId).1.findOrder id = b.findOrder id := by
  rw [OrderBook.refreshParentFromChildren]
  split
  · rfl
  split
  · rfl
  split
  · rfl
  simp only
  split
  · rfl
  · exact (findOrder_modifyOrder _ _ _ _).trans (if_neg hne)

theorem findOrder_refreshParentOf
    (h : b.childToParent.lookup orderId = some id → b.isManagedParent id = true) :
    (b.refreshParentOf orderId).1.findOrder id = b.findOrder id := by
  rw [OrderBook.refreshParentOf]
  split
  next parentId hparent =>
    split
    · rfl
    next hunmanaged =>
      refine findOrder_refreshParentFromChildren fun heq => hunmanaged ?_
      subst heq
      exact h hparent
  next => rfl

/-- A new state changes the order and its parent only, and no managed parent. -/
theorem findOrder_updateState_of_ne (hne : id ≠ orderId)
    (hparent : b.childToParent.lookup orderId = some id → b.isManagedParent id = true)
    (newState : OrderState) (now : TimestampNs) :
    (b.updateState orderId newState now).book.findOrder id = b.findOrder id := by
  rw [updateState]
  split
  · rfl
  next e he =>
    simp only
    obtain ⟨latched, hlatch, -⟩ :=
      latchSplitError_eq (b.modifyOrder orderId fun _ => withState e newState now) orderId newState
    rw [hlatch]
    refine (findOrder_refreshParentOf (by exact hparent)).trans ?_
    exact (findOrder_modifyOrder b orderId _ id).trans (if_neg hne)

theorem isManagedParent_registerOrder (b : OrderBook) (orderId : InternalOrderId)
    (stored : OrderEntry) (parentId : InternalOrderId) :
    (b.registerOrder orderId stored).isManagedParent parentId = b.isManagedParent parentId := by
  simp only [isManagedParent, registerOrder, ensureNextOrderIdAtLeast]
  split <;> split <;> split <;> rfl

/-- A new order changes its own id and its parent only, and no managed parent. -/
theorem findOrder_addOrder_of_ne {entry : OrderEntry} (hne : id ≠ entry.request.internalOrderId)
    (hparent : entry.isSplitChild = true → id = entry.parentOrderId → b.isManagedParent id = true)
    (now : TimestampNs) :
    (b.addOrder entry now).book.findOrder id = b.findOrder id := by
  cases hok : (b.addOrder entry now).ok with
  | false => rw [addOrder_of_not_ok hok]
  | true =>
      obtain ⟨h₁, h₂, h₃⟩ := (addOrder_ok_iff b entry now).1 hok
      have hstored : (b.stored entry now).findOrder id = b.findOrder id := by
        unfold findOrder stored
        rw [table_registerOrder, SlotTable.find?_insert h₂ h₃, if_neg hne]
      rw [← hstored]
      unfold addOrder
      simp only
      rw [if_neg h₁, if_neg (by simp [h₂]), if_neg (by simpa using h₃)]
      simp only
      split
      next hchild =>
        split
        · rfl
        next hunmanaged =>
          have hchild' : entry.isSplitChild = true := hchild.1
          refine findOrder_refreshParentFromChildren fun heq => hunmanaged ?_
          have hmanaged := hparent hchild' heq
          rw [heq] at hmanaged
          exact (isManagedParent_registerOrder _ _ _ _).trans hmanaged
      next => rfl

/-- An order without a parent is all that is added. -/
theorem findOrder_addOrder_orphan {entry : OrderEntry} {now : TimestampNs}
    (hok : (b.addOrder entry now).ok = true)
    (horphan : ¬ (entry.isSplitChild = true ∧ entry.parentOrderId ≠ 0)) (id : InternalOrderId) :
    (b.addOrder entry now).book.findOrder id =
      if id = entry.request.internalOrderId then some (storedEntry entry now) else
        b.findOrder id := by
  obtain ⟨h₁, h₂, h₃⟩ := (addOrder_ok_iff b entry now).1 hok
  have hstored : ¬ ((storedEntry entry now).isSplitChild = true ∧
      (storedEntry entry now).parentOrderId ≠ 0) := horphan
  rw [addOrder]
  simp only
  rw [if_neg h₁, if_neg (by simp [h₂]), if_neg (by simpa using h₃), if_neg hstored]
  rw [findOrder]
  simp only
  rw [table_registerOrder]
  exact SlotTable.find?_insert h₂ h₃ id

/-- An order that is not its own parent takes the new state. -/
theorem findOrder_updateState_self (hself : b.childToParent.lookup orderId ≠ some orderId)
    {e : OrderEntry} (he : b.findOrder orderId = some e) (newState : OrderState)
    (now : TimestampNs) :
    (b.updateState orderId newState now).book.findOrder orderId =
      some (withState e newState now) := by
  rw [updateState]
  rw [he]
  simp only
  obtain ⟨latched, hlatch, -⟩ :=
    latchSplitError_eq (b.modifyOrder orderId fun _ => withState e newState now) orderId newState
  rw [hlatch]
  refine (findOrder_refreshParentOf (by exact fun heq => absurd heq hself)).trans ?_
  exact (findOrder_modifyOrder b orderId _ orderId).trans (by rw [if_pos rfl, he, Option.map_some])

theorem findOrder_updateTrade_self (hself : b.childToParent.lookup orderId ≠ some orderId)
    {e : OrderEntry} (he : b.findOrder orderId = some e) (vol : Volume)
    (px : DPrice) (val fee : DValue)
    (now : TimestampNs) : (b.updateTrade orderId vol px val fee now).book.findOrder orderId =
      some (withTrade e vol px val fee now) := by
  rw [OrderBook.updateTrade]
  rw [he]
  simp only
  have hlookup :
      (b.modifyOrder orderId fun _ => withTrade e vol px val fee now).childToParent.lookup
      orderId ≠ some orderId := hself
  rw [findOrder_refreshParentOf fun heq => absurd heq hlookup]
  exact (findOrder_modifyOrder b orderId _ orderId).trans (by rw [if_pos rfl, he, Option.map_some])

/-- A fill finishes an order when it leaves nothing open. -/
theorem isTerminal_tradedRequest {request : OrderRequest}
    (hopen : request.orderState.isTerminal = false)
    {vol : Volume} (hremain : ¬ request.volumeRemain ≤ vol) (px : DPrice) (val fee : DValue) :
    (tradedRequest request vol px val fee).orderState.isTerminal = false := by
  have hleft : request.volumeRemain - vol ≠ 0 := by
    rw [Word.le_iff] at hremain
    rw [Ne, Word.eq_iff, UInt64.toNat_sub_of_le _ _ (by rw [Word.le_iff]; omega), UInt64.toNat_zero]
    omega
  rw [tradedRequest]
  simp only [if_neg (show ¬ vol ≥ request.volumeRemain from hremain)]
  rw [if_neg fun h => hleft h.1]
  exact hopen

theorem orderState_tradedRequest (request : OrderRequest) (vol : Volume) (px : DPrice)
    (val fee : DValue) : (tradedRequest request vol px val fee).orderState = .finished ∨
      (tradedRequest request vol px val fee).orderState = request.orderState := by
  rw [tradedRequest]
  exact ite_eq_or_eq _ _ _

theorem StaysSettled.updateTrade (h : b.StaysSettled orderId id) (vol : Volume) (px : DPrice)
    (val fee : DValue) (now : TimestampNs) :
    (b.updateTrade orderId vol px val fee now).book.StaysSettled orderId id := by
  rw [OrderBook.updateTrade]
  split
  · exact h
  next entry hentry =>
    refine StaysSettled.refreshParentOf (h.modifyOrder hentry rfl ?_)
    rcases orderState_tradedRequest entry.request vol px val fee with hdone | hsame
    · exact Or.inl (congrArg OrderState.isTerminal hdone)
    · exact Or.inr hsame

end OrderBook

end AccountServices
