import AccountServices.Order.BookInvariant
import AccountServices.Order.Registration

/-!
# Changes of a child

`add_order`, `update_state` and `update_trade` write the entry of an order and then refresh its
parent. The two halves are taken apart here: `written` is the book between them, in which the child
has its new entry and the parent its old one, and `agrees_refreshed` says that the call ends with
one aggregation over that book when the order is a child of a parent that no session manages.
-/

set_option autoImplicit false

namespace AccountServices

open Foundation

namespace OrderBook

variable {b b' : OrderBook} {orderId parentId k : InternalOrderId} {call : Call}

/-- The call changes a child of the parent: it registers one, or it changes the state or the fills
of one. -/
def ChangesChild (b : OrderBook) (parentId : InternalOrderId) : Call → Prop
  | .addOrder entry now =>
      (b.addOrder entry now).ok = true ∧ entry.isSplitChild = true ∧ parentId ≠ 0 ∧
        entry.parentOrderId = parentId
  | .updateState orderId _ _ | .updateTrade orderId _ _ _ _ _ =>
      (b.findOrder orderId).isSome = true ∧ b.childToParent.lookup orderId = some parentId
  | .markManagedParent _ | .syncManagedParentView _ _ _ _ | .archiveOrder _ | .clear => False

/-- The book in which the order has its new entry and its parent is not refreshed yet. -/
def written (b : OrderBook) : Call → OrderBook
  | .addOrder entry now =>
      (b.stored entry now).linkChild entry.request.internalOrderId entry.parentOrderId
  | .updateState orderId state now =>
      ((b.findOrder orderId).elim b fun e => b.modifyOrder orderId fun _ =>
        withState e state now).latchSplitError orderId state
  | .updateTrade orderId vol px val fee now =>
      (b.findOrder orderId).elim b fun e => b.modifyOrder orderId fun _ =>
        withTrade e vol px val fee now
  | .markManagedParent _ | .syncManagedParentView _ _ _ _ | .archiveOrder _ | .clear => b

/-- The two books differ in their counters and indexes at most. -/
structure Agrees (b b' : OrderBook) : Prop where
  findOrder : ∀ id, b'.findOrder id = b.findOrder id
  links : b'.links = b.links
  marks : b'.marks = b.marks

theorem Agrees.refl (b : OrderBook) : Agrees b b := ⟨fun _ => rfl, rfl, rfl⟩

theorem isManagedParent_eq (hmarks : b'.marks = b.marks) (parentId : InternalOrderId) :
    b'.isManagedParent parentId = b.isManagedParent parentId := by
  rw [isManagedParent, isManagedParent, (sets_of_marks hmarks).1]

theorem getChildren_eq (hlinks : b'.links = b.links) (parentId : InternalOrderId) :
    b'.getChildren parentId = b.getChildren parentId := by
  rw [links, links, Prod.mk.injEq] at hlinks
  rw [getChildren, getChildren, hlinks.2]

/-! ## The two halves of a call -/

theorem agrees_added {entry : OrderEntry} {now : TimestampNs}
    (h : b.ChangesChild parentId (.addOrder entry now))
    (hunmanaged : b.isManagedParent parentId = false) :
    Agrees ((b.written (.addOrder entry now)).refreshParentFromChildren parentId).1
      (b.addOrder entry now).book := by
  obtain ⟨hok, hchild, hne, rfl⟩ := h
  obtain ⟨h₁, h₂, h₃⟩ := (addOrder_ok_iff b entry now).1 hok
  have hstored : (storedEntry entry now).isSplitChild = true ∧
      (storedEntry entry now).parentOrderId ≠ 0 :=
    ⟨hchild, hne⟩
  have hmarks :
      ((b.stored entry now).linkChild entry.request.internalOrderId entry.parentOrderId).marks =
      b.marks := marks_registerOrder _ _ _
  have hopen : ¬ ((b.stored entry now).linkChild entry.request.internalOrderId
      (storedEntry entry now).parentOrderId).isManagedParent
        (storedEntry entry now).parentOrderId = true := by
    have heq := isManagedParent_eq hmarks entry.parentOrderId
    intro hmanaged
    exact absurd (hmanaged.symm.trans (heq.trans hunmanaged)) (by decide)
  rw [addOrder]
  simp only
  rw [if_neg h₁, if_neg (by simp [h₂]), if_neg (by simpa using h₃), if_pos hstored]
  rw [← stored, if_neg hopen]
  exact ⟨fun _ => rfl, rfl, rfl⟩

/-- The refresh of an order with an unmanaged parent is one aggregation. -/
theorem refreshParentOf_eq (hlink : b.childToParent.lookup orderId = some parentId)
    (hunmanaged : b.isManagedParent parentId = false) :
    b.refreshParentOf orderId = b.refreshParentFromChildren parentId := by
  have hopen : ¬ b.isManagedParent parentId = true := by
    rw [hunmanaged]
    decide
  rw [refreshParentOf]
  simp only [hlink]
  rw [if_neg hopen]

theorem agrees_moved {state : OrderState} {now : TimestampNs}
    (h : b.ChangesChild parentId (.updateState orderId state now))
    (hunmanaged : b.isManagedParent parentId = false) :
    Agrees ((b.written (.updateState orderId state now)).refreshParentFromChildren parentId).1
      (b.updateState orderId state now).book := by
  obtain ⟨hlive, hlink⟩ := h
  obtain ⟨e, he⟩ := Option.isSome_iff_exists.1 hlive
  rw [updateState, written]
  rw [he]
  simp only [Option.elim_some]
  obtain ⟨latched, hlatch, -⟩ :=
    latchSplitError_eq (b.modifyOrder orderId fun _ => withState e state now) orderId state
  rw [hlatch, refreshParentOf_eq (by exact hlink) (by exact hunmanaged)]
  exact Agrees.refl _

theorem agrees_filled {vol : Volume} {px : DPrice} {val fee : DValue} {now : TimestampNs}
    (h : b.ChangesChild parentId (.updateTrade orderId vol px val fee now))
    (hunmanaged : b.isManagedParent parentId = false) :
    Agrees ((b.written (.updateTrade orderId vol px val fee now)).refreshParentFromChildren
      parentId).1 (b.updateTrade orderId vol px val fee now).book := by
  obtain ⟨hlive, hlink⟩ := h
  obtain ⟨e, he⟩ := Option.isSome_iff_exists.1 hlive
  rw [updateTrade, written]
  rw [he]
  simp only [Option.elim_some]
  rw [refreshParentOf_eq (by exact hlink) (by exact hunmanaged)]
  exact Agrees.refl _

/-- A call that changes a child ends with one aggregation of its parent. -/
theorem agrees_refreshed (h : b.ChangesChild parentId call)
    (hunmanaged : b.isManagedParent parentId = false) :
    Agrees ((b.written call).refreshParentFromChildren parentId).1 (b.after call) := by
  cases call with
  | addOrder entry now => exact agrees_added h hunmanaged
  | updateState orderId state now => exact agrees_moved h hunmanaged
  | updateTrade orderId vol px val fee now => exact agrees_filled h hunmanaged
  | markManagedParent parentId => exact h.elim
  | syncManagedParentView parentId view state now => exact h.elim
  | archiveOrder orderId => exact h.elim
  | clear => exact h.elim

/-- The first half of a change of state is the new entry, and a latch. -/
theorem written_updateState (b : OrderBook) (orderId : InternalOrderId) (state : OrderState)
    (now : TimestampNs) :
    ∃ latched, b.written (.updateState orderId state now) =
      { (b.findOrder orderId).elim b fun e => b.modifyOrder orderId fun _ =>
        withState e state now with
        splitParentErrorLatched := latched } := by
  obtain ⟨latched, hlatch, -⟩ := latchSplitError_eq
    ((b.findOrder orderId).elim b fun e => b.modifyOrder orderId fun _ => withState e state now)
      orderId state
  exact ⟨latched, hlatch⟩

/-- The first half of the call leaves the managed parents alone. -/
theorem isManagedParent_written (b : OrderBook) (call : Call) (parentId : InternalOrderId) :
    (b.written call).isManagedParent parentId = b.isManagedParent parentId := by
  cases call with
  | addOrder entry now => exact isManagedParent_eq (marks_registerOrder _ _ _) parentId
  | updateState orderId state now =>
      obtain ⟨latched, hwritten⟩ := written_updateState b orderId state now
      rw [hwritten]
      cases b.findOrder orderId <;> rfl
  | updateTrade orderId vol px val fee now =>
      rw [written]
      cases b.findOrder orderId <;> rfl
  | markManagedParent parentId => rfl
  | syncManagedParentView parentId view state now => rfl
  | archiveOrder orderId => rfl
  | clear => rfl

/-! ## The parent after the call -/

/-- The live new orders among the registered children, in the order of registration. -/
def newChildren (b : OrderBook) (parentId : InternalOrderId) : List OrderEntry :=
  ((b.getChildren parentId).filterMap b.findOrder).filter fun e => e.request.orderType = .new

theorem orderType_of_mem_newChildren {e : OrderEntry} (he : e ∈ b.newChildren parentId) :
    e.request.orderType = .new :=
  of_decide_eq_true (List.mem_filter.1 he).2

theorem hasNewChild_iff (b : OrderBook) (parentId : InternalOrderId) (state : OrderState) :
    b.HasNewChild (b.getChildren parentId) state ↔
      ∃ e ∈ b.newChildren parentId, e.request.orderState = state := by
  constructor
  · rintro ⟨c, hc, e, he, hnew, hstate⟩
    exact ⟨e, List.mem_filter.2 ⟨List.mem_filterMap.2 ⟨c, hc, he⟩, decide_eq_true hnew⟩, hstate⟩
  · rintro ⟨e, he, hstate⟩
    obtain ⟨c, hc, hfound⟩ := List.mem_filterMap.1 (List.mem_of_mem_filter he)
    exact ⟨c, hc, e, hfound, orderType_of_mem_newChildren he, hstate⟩

/-- The fold visits the live new orders and skips the rest. -/
theorem foldChildren_eq (b : OrderBook) (parent : OrderEntry) (parentId : InternalOrderId) :
    b.foldChildren parent (b.getChildren parentId) =
      (b.newChildren parentId).foldl (fun acc e => acc.add (some e))
      { latestUpdateNs := parent.lastUpdateNs } := by
  rw [foldChildren, newChildren]
  generalize ({ latestUpdateNs := parent.lastUpdateNs } : ChildFold) = acc
  induction b.getChildren parentId generalizing acc with
  | nil => rfl
  | cons c rest ih =>
      rw [List.foldl_cons, ih]
      cases he : b.findOrder c with
      | none =>
          rw [List.filterMap_cons_none he]
          rfl
      | some e =>
          rw [List.filterMap_cons_some he, List.filter_cons]
          by_cases hnew : e.request.orderType = .new
          · rw [if_pos (decide_eq_true hnew), List.foldl_cons]
          · rw [if_neg fun h => hnew (of_decide_eq_true h)]
            have hskip : acc.add (some e) = acc := by
              simp only [ChildFold.add, if_neg hnew]
            rw [hskip]

theorem newChildCount_foldl (entries : List OrderEntry)
    (hnew : ∀ e ∈ entries, e.request.orderType = .new) (acc : ChildFold) :
    (entries.foldl (fun acc e => acc.add (some e)) acc).newChildCount = acc.newChildCount +
      entries.length := by
  induction entries generalizing acc with
  | nil => rfl
  | cons e rest ih =>
      rw [List.foldl_cons, ih (fun x hx => hnew x (List.mem_cons_of_mem _ hx)), List.length_cons]
      simp only [ChildFold.add, if_pos (hnew e List.mem_cons_self)]
      omega

/-- The aggregation stores one entry in the parent, as soon as one new child is live. -/
theorem refreshParentFromChildren_eq {parent : OrderEntry}
    (hunmanaged : b.isManagedParent parentId = false)
    (hparent : b.findOrder parentId = some parent) (hsome : b.newChildren parentId ≠ []) :
    (b.refreshParentFromChildren parentId).1 =
      b.modifyOrder parentId fun _ =>
        refreshParent parent (decide (parentId ∈ b.splitParentErrorLatched))
        (b.foldChildren parent (b.getChildren parentId)) := by
  have hlookup : b.parentToChildren.lookup parentId = some (b.getChildren parentId) := by
    cases hlookup : b.parentToChildren.lookup parentId with
    | none =>
        rw [newChildren, getChildren, hlookup] at hsome
        exact absurd rfl hsome
    | some children =>
        rw [getChildren, hlookup]
        rfl
  have hcount : (b.foldChildren parent (b.getChildren parentId)).newChildCount ≠ 0 := by
    rw [foldChildren_eq, newChildCount_foldl _ fun e he => orderType_of_mem_newChildren he]
    have hlength := List.length_pos_iff.2 hsome
    omega
  rw [refreshParentFromChildren, if_neg (by rw [hunmanaged]; decide)]
  simp only [hparent, hlookup]
  rw [if_neg hcount]

/-- Without a live new child the aggregation does nothing. -/
theorem refreshParentFromChildren_childless (hnone : b.newChildren parentId = []) :
    (b.refreshParentFromChildren parentId).1 = b := by
  rw [refreshParentFromChildren]
  split
  · rfl
  split
  · rfl
  next parent hparent =>
    split
    · rfl
    next children hlookup =>
      have hchildren : children = b.getChildren parentId := by
        rw [getChildren, hlookup]
        rfl
      have hcount : (b.foldChildren parent children).newChildCount = 0 := by
        rw [hchildren, foldChildren_eq, hnone]
        rfl
      simp only
      rw [if_pos hcount]

/-- A parent that is not its own child keeps its entry until the aggregation. -/
theorem findOrder_written (h : b.ChangesChild parentId call) (htidy : b.Tidy)
    (hother : parentId ∉ (b.written call).getChildren parentId) :
    (b.written call).findOrder parentId = b.findOrder parentId := by
  cases call with
  | addOrder entry now =>
      obtain ⟨hok, -, -, rfl⟩ := h
      -- The parent is not the order that the call writes, or it would be listed as its own child.
      have hne : entry.parentOrderId ≠ entry.request.internalOrderId := by
        intro heq
        refine hother ?_
        rw [written, getChildren, linkChild, Map.lookup_insert_eq, if_pos rfl]
        exact List.mem_append_right _ (List.mem_singleton.2 heq)
      obtain ⟨-, h₂, h₃⟩ := (addOrder_ok_iff b entry now).1 hok
      rw [written, findOrder, linkChild, stored]
      simp only
      rw [table_registerOrder, SlotTable.find?_insert h₂ h₃, if_neg hne]
      rfl
  | updateState orderId state now =>
      obtain ⟨latched, hwritten⟩ := written_updateState b orderId state now
      have hne : parentId ≠ orderId := by
        rintro rfl
        refine hother ?_
        rw [hwritten]
        cases b.findOrder parentId with
        | none => exact htidy.listed _ _ h.2
        | some e => exact htidy.listed _ _ h.2
      rw [hwritten]
      cases b.findOrder orderId with
      | none => rfl
      | some e => exact (findOrder_modifyOrder b orderId _ parentId).trans (if_neg hne)
  | updateTrade orderId vol px val fee now =>
      have hne : parentId ≠ orderId := by
        rintro rfl
        refine hother ?_
        rw [written]
        cases b.findOrder parentId with
        | none => exact htidy.listed _ _ h.2
        | some e => exact htidy.listed _ _ h.2
      rw [written]
      cases b.findOrder orderId with
      | none => rfl
      | some e => exact (findOrder_modifyOrder b orderId _ parentId).trans (if_neg hne)
  | markManagedParent parentId => rfl
  | syncManagedParentView parentId view state now => rfl
  | archiveOrder orderId => rfl
  | clear => rfl

/-- The parent after a change of one of its children, and the orders beside it. -/
theorem findOrder_after (h : b.ChangesChild parentId call)
    (hunmanaged : b.isManagedParent parentId = false)
    {parent : OrderEntry} (hparent : (b.written call).findOrder parentId = some parent)
    (hsome : (b.written call).newChildren parentId ≠ []) (id : InternalOrderId) :
    (b.after call).findOrder id =
      if id = parentId then
        some (refreshParent parent (decide (parentId ∈ (b.written call).splitParentErrorLatched))
          ((b.written call).foldChildren parent ((b.written call).getChildren parentId)))
      else (b.written call).findOrder id := by
  rw [(agrees_refreshed h hunmanaged).findOrder,
    refreshParentFromChildren_eq ((isManagedParent_written b call parentId).trans hunmanaged)
      hparent hsome,
    findOrder_modifyOrder, hparent, Option.map_some]

theorem links_after (h : b.ChangesChild parentId call)
    (hunmanaged : b.isManagedParent parentId = false) :
    (b.after call).links = (b.written call).links :=
  (agrees_refreshed h hunmanaged).links.trans (links_refreshParentFromChildren _ _)

theorem marks_after (h : b.ChangesChild parentId call)
    (hunmanaged : b.isManagedParent parentId = false) :
    (b.after call).marks = (b.written call).marks :=
  (agrees_refreshed h hunmanaged).marks.trans (marks_refreshParentFromChildren _ _)

end OrderBook

end AccountServices
