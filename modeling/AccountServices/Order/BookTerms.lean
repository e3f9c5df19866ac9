import Mathlib.Logic.Relation
import AccountServices.Order.OrderBook

/-!
# What the operations of the book change

An order has terms that no operation of the book changes while the order is live: its ids, type,
side, security, slot and reservation. State changes, fills, the aggregation of children and the
mirror of a session leave the terms of every order alone, so that only `add_order` and
`archive_order` change the map from ids to terms.
-/

set_option autoImplicit false

namespace AccountServices

open Foundation

/-- The terms of an order. -/
structure OrderTerms where
  internalOrderId : InternalOrderId
  passiveExecutionAlgo : PassiveExecutionAlgo
  orderType : OrderType
  tradeSide : TradeSide
  market : Market
  origInternalOrderId : InternalOrderId
  securityId : SecurityId
  internalSecurityId : InternalSecurityId
  shmOrderIndex : OrderIndex
  fundFrozen : DValue
  deriving DecidableEq

def OrderEntry.terms (e : OrderEntry) : OrderTerms where
  internalOrderId := e.request.internalOrderId
  passiveExecutionAlgo := e.request.passiveExecutionAlgo
  orderType := e.request.orderType
  tradeSide := e.request.tradeSide
  market := e.request.market
  origInternalOrderId := e.request.origInternalOrderId
  securityId := e.request.securityId
  internalSecurityId := e.request.internalSecurityId
  shmOrderIndex := e.shmOrderIndex
  fundFrozen := e.fundFrozen

namespace OrderBook

variable {b b' b'' : OrderBook} {orderId : InternalOrderId}

/-- The terms of the order under an id, if it is live. -/
def terms (b : OrderBook) (orderId : InternalOrderId) : Option OrderTerms :=
  (b.findOrder orderId).map OrderEntry.terms

/-- The sum of a quantity over the terms of all live orders. -/
def totalTerms (b : OrderBook) (g : OrderTerms → Nat) : Nat := b.table.total fun e => g e.terms

/-- The reservations of all live orders. -/
def reserved (b : OrderBook) : Nat := b.totalTerms fun t => t.fundFrozen.toNat

theorem le_reserved {e : OrderEntry} (h : b.findOrder orderId = some e) :
    e.fundFrozen.toNat ≤ b.reserved :=
  SlotTable.le_total (f := fun e => e.terms.fundFrozen.toNat) h

theorem findOrder_modifyOrder (b : OrderBook) (orderId : InternalOrderId)
    (f : OrderEntry → OrderEntry) (id : InternalOrderId) :
    (b.modifyOrder orderId f).findOrder id =
      if id = orderId then (b.findOrder orderId).map f else b.findOrder id :=
  SlotTable.find?_modify b.table orderId f id

/-! ## Operations that add and remove no order -/

/-- One write of such an operation: an entry is replaced by one with the same terms and broker id,
or the sets of managed and of latched parents change. -/
inductive Edit : OrderBook → OrderBook → Prop
  | entry {b : OrderBook} {orderId : InternalOrderId} {e : OrderEntry} (e' : OrderEntry)
      (he : b.findOrder orderId = some e) (hterms : e'.terms = e.terms)
      (hbroker : e'.request.brokerOrderId = e.request.brokerOrderId) :
      Edit b (b.modifyOrder orderId fun _ => e')
  | marks (b : OrderBook) (managed latched : Finset InternalOrderId) :
      Edit b { b with managedParentIds := managed, splitParentErrorLatched := latched }

/-- Any number of such writes. -/
def Edits : OrderBook → OrderBook → Prop := Relation.ReflTransGen Edit

theorem Edits.refl (b : OrderBook) : Edits b b := Relation.ReflTransGen.refl

theorem Edits.trans (h : Edits b b') (h' : Edits b' b'') : Edits b b'' :=
  Relation.ReflTransGen.trans h h'

theorem Edit.edits (h : Edit b b') : Edits b b' := Relation.ReflTransGen.single h

theorem edits_refreshParentFromChildren (b : OrderBook) (parentId : InternalOrderId) :
    Edits b (b.refreshParentFromChildren parentId).1 := by
  rw [refreshParentFromChildren]
  split
  · exact Edits.refl b
  split
  · exact Edits.refl b
  next parent hparent =>
    split
    · exact Edits.refl b
    next children hchildren =>
      simp only
      split
      · exact Edits.refl b
      · exact (Edit.entry (refreshParent parent _ _) hparent rfl rfl).edits

theorem edits_refreshParentOf (b : OrderBook) (orderId : InternalOrderId) :
    Edits b (b.refreshParentOf orderId).1 := by
  rw [refreshParentOf]
  split
  · split
    · exact Edits.refl b
    · exact edits_refreshParentFromChildren b _
  · exact Edits.refl b

theorem edits_latchSplitError (b : OrderBook) (orderId : InternalOrderId) (state : OrderState) :
    Edits b (b.latchSplitError orderId state) := by
  rw [latchSplitError]
  split
  · exact (Edit.marks b b.managedParentIds _).edits
  · exact Edits.refl b

theorem edits_updateState (b : OrderBook) (orderId : InternalOrderId) (state : OrderState)
    (now : TimestampNs) : Edits b (b.updateState orderId state now).book := by
  rw [updateState]
  split
  · exact Edits.refl b
  next entry hentry =>
    have hstate : Edits b (b.modifyOrder orderId fun _ => withState entry state now) :=
      (Edit.entry (withState entry state now) hentry rfl rfl).edits
    exact hstate.trans ((edits_latchSplitError _ _ _).trans (edits_refreshParentOf _ orderId))

theorem edits_updateTrade (b : OrderBook) (orderId : InternalOrderId) (vol : Volume) (px : DPrice)
    (val fee : DValue) (now : TimestampNs) :
    Edits b (b.updateTrade orderId vol px val fee now).book := by
  rw [updateTrade]
  split
  · exact Edits.refl b
  next entry hentry =>
    have htrade : Edits b (b.modifyOrder orderId fun _ => withTrade entry vol px val fee now) :=
      (Edit.entry (withTrade entry vol px val fee now) hentry rfl rfl).edits
    exact htrade.trans (edits_refreshParentOf _ orderId)

theorem edits_markManagedParent (b : OrderBook) (parentId : InternalOrderId) :
    Edits b (b.markManagedParent parentId).book := by
  rw [markManagedParent]
  split
  · exact Edits.refl b
  · exact (Edit.marks b _ b.splitParentErrorLatched).edits

theorem edits_syncManagedParentView (b : OrderBook) (parentId : InternalOrderId)
    (view : ManagedParentView) (state : OrderState) (now : TimestampNs) :
    Edits b (b.syncManagedParentView parentId view state now).book := by
  rw [syncManagedParentView]
  split
  · exact Edits.refl b
  next parent hparent =>
    have hmark : ∀ b : OrderBook,
        Edits b { b with managedParentIds := insert parentId b.managedParentIds } :=
      fun b => (Edit.marks b _ b.splitParentErrorLatched).edits
    simp only
    split
    · exact hmark b
    · have hmirror : Edits b (b.modifyOrder parentId fun _ =>
          { parent with
            request := mirroredRequest parent.request view state, lastUpdateNs := now }) :=
        (Edit.entry { parent with
          request := mirroredRequest parent.request view state, lastUpdateNs := now }
          hparent rfl rfl).edits
      exact hmirror.trans (hmark _)

/-! ## They keep the terms -/

/-- The two books hold the same ids with the same terms. -/
structure SameTerms (b b' : OrderBook) : Prop where
  terms : ∀ id, b'.terms id = b.terms id
  total : ∀ g, b'.totalTerms g = b.totalTerms g

theorem SameTerms.refl (b : OrderBook) : SameTerms b b := ⟨fun _ => rfl, fun _ => rfl⟩

theorem SameTerms.trans (h : SameTerms b b') (h' : SameTerms b' b'') : SameTerms b b'' :=
  ⟨fun id => (h'.terms id).trans (h.terms id), fun g => (h'.total g).trans (h.total g)⟩

theorem SameTerms.reserved (h : SameTerms b b') : b'.reserved = b.reserved := h.total _

/-- The table decides the terms. -/
theorem sameTerms_of_table (h : b'.table = b.table) : SameTerms b b' where
  terms id := by
    simp only [OrderBook.terms, findOrder]
    rw [h]
  total g := by
    simp only [totalTerms]
    rw [h]

theorem sameTerms_modifyOrder {e : OrderEntry} (he : b.findOrder orderId = some e)
    {f : OrderEntry → OrderEntry} (hf : (f e).terms = e.terms) :
    SameTerms b (b.modifyOrder orderId f) where
  terms id := by
    simp only [terms]
    rw [findOrder_modifyOrder]
    split
    next heq =>
      subst heq
      rw [he, Option.map_some, Option.map_some, Option.map_some, hf]
    next => rfl
  total g := by
    have := SlotTable.total_modify f (fun e => g e.terms) he
    rw [hf] at this
    exact Nat.add_right_cancel this

theorem Edits.sameTerms (h : Edits b b') : SameTerms b b' := by
  induction h with
  | refl => exact SameTerms.refl b
  | tail _ hedit ih =>
      refine ih.trans ?_
      cases hedit with
      | entry e' he hterms _ => exact sameTerms_modifyOrder he hterms
      | marks => exact sameTerms_of_table rfl

theorem sameTerms_refreshParentFromChildren (b : OrderBook) (parentId : InternalOrderId) :
    SameTerms b (b.refreshParentFromChildren parentId).1 :=
  (edits_refreshParentFromChildren b parentId).sameTerms

theorem sameTerms_updateState (b : OrderBook) (orderId : InternalOrderId) (state : OrderState)
    (now : TimestampNs) : SameTerms b (b.updateState orderId state now).book :=
  (edits_updateState b orderId state now).sameTerms

theorem sameTerms_updateTrade (b : OrderBook) (orderId : InternalOrderId)
    (vol : Volume) (px : DPrice) (val fee : DValue) (now : TimestampNs) :
    SameTerms b (b.updateTrade orderId vol px val fee now).book :=
  (edits_updateTrade b orderId vol px val fee now).sameTerms

theorem sameTerms_markManagedParent (b : OrderBook) (parentId : InternalOrderId) :
    SameTerms b (b.markManagedParent parentId).book :=
  (edits_markManagedParent b parentId).sameTerms

theorem sameTerms_syncManagedParentView (b : OrderBook) (parentId : InternalOrderId)
    (view : ManagedParentView) (state : OrderState) (now : TimestampNs) :
    SameTerms b (b.syncManagedParentView parentId view state now).book :=
  (edits_syncManagedParentView b parentId view state now).sameTerms

/-! ## `add_order` -/

theorem table_registerOrder (b : OrderBook) (orderId : InternalOrderId) (stored : OrderEntry) :
    (b.registerOrder orderId stored).table = b.table := by
  unfold registerOrder ensureNextOrderIdAtLeast
  simp only
  split <;> split <;> split <;> rfl

theorem addOrder_ok_iff (b : OrderBook) (entry : OrderEntry) (now : TimestampNs) :
    (b.addOrder entry now).ok = true ↔
      entry.request.internalOrderId ≠ 0 ∧ b.findOrder entry.request.internalOrderId = none ∧
        b.table.free ≠ [] := by
  rw [addOrder]
  simp only
  split
  next h => simp [h]
  split
  next h =>
    rw [Option.isSome_iff_ne_none] at h
    simp [h]
  split
  next h => simp_all
  next h₁ h₂ h₃ => simp_all

theorem addOrder_of_not_ok {entry : OrderEntry} {now : TimestampNs}
    (h : (b.addOrder entry now).ok = false) : (b.addOrder entry now).book = b := by
  rw [addOrder] at h ⊢
  simp only at h ⊢
  split at h
  next h₁ => rw [if_pos h₁]
  next h₁ =>
    rw [if_neg h₁]
    split at h
    next h₂ => rw [if_pos h₂]
    next h₂ =>
      rw [if_neg h₂]
      split at h
      next h₃ => rw [if_pos h₃]
      next h₃ => exact absurd h (by simp)

theorem terms_storedEntry (entry : OrderEntry) (now : TimestampNs) :
    (storedEntry entry now).terms = entry.terms := by
  rw [storedEntry]
  simp only
  split <;> rfl

/-- The stored request differs in the remaining volume at most. -/
theorem request_storedEntry (entry : OrderEntry) (now : TimestampNs) :
    ∃ remain, (storedEntry entry now).request = { entry.request with volumeRemain := remain } := by
  rw [storedEntry]
  simp only
  split
  · exact ⟨_, rfl⟩
  · exact ⟨entry.request.volumeRemain, rfl⟩

/-- The book in which `add_order` has stored the entry and not yet linked it. -/
def stored (b : OrderBook) (entry : OrderEntry) (now : TimestampNs) : OrderBook :=
  registerOrder
    { b with table := b.table.insert entry.request.internalOrderId (storedEntry entry now) }
    entry.request.internalOrderId (storedEntry entry now)

/-- What follows the storing keeps the terms. -/
theorem sameTerms_addOrder_stored {entry : OrderEntry} {now : TimestampNs}
    (h : (b.addOrder entry now).ok = true) :
    SameTerms (b.stored entry now) (b.addOrder entry now).book := by
  obtain ⟨h₁, h₂, h₃⟩ := (addOrder_ok_iff b entry now).1 h
  rw [addOrder]
  simp only
  rw [if_neg h₁, if_neg (by simp [h₂]), if_neg (by simpa using h₃)]
  simp only
  split
  next =>
    split
    · exact sameTerms_of_table rfl
    · have hlink : SameTerms (b.stored entry now) ((b.stored entry now).linkChild
          entry.request.internalOrderId (storedEntry entry now).parentOrderId) :=
        sameTerms_of_table rfl
      exact (hlink.trans (sameTerms_refreshParentFromChildren _ _)).trans (sameTerms_of_table rfl)
  next => exact sameTerms_of_table rfl

/-- An order that is added comes with its terms, and no other order changes its own. -/
theorem terms_addOrder {entry : OrderEntry} {now : TimestampNs}
    (h : (b.addOrder entry now).ok = true) (id : InternalOrderId) :
    (b.addOrder entry now).book.terms id =
      if id = entry.request.internalOrderId then some entry.terms else b.terms id := by
  obtain ⟨-, h₂, h₃⟩ := (addOrder_ok_iff b entry now).1 h
  rw [(sameTerms_addOrder_stored h).terms]
  have hfind : (b.stored entry now).findOrder id =
      (b.table.insert entry.request.internalOrderId (storedEntry entry now)).find? id := by
    rw [findOrder, stored]
    rw [table_registerOrder]
  rw [terms]
  rw [hfind, SlotTable.find?_insert h₂ h₃]
  split
  · rw [Option.map_some, terms_storedEntry]
  · rfl

theorem totalTerms_addOrder {entry : OrderEntry} {now : TimestampNs}
    (h : (b.addOrder entry now).ok = true) (g : OrderTerms → Nat) :
    (b.addOrder entry now).book.totalTerms g = b.totalTerms g + g entry.terms := by
  obtain ⟨-, h₂, h₃⟩ := (addOrder_ok_iff b entry now).1 h
  rw [(sameTerms_addOrder_stored h).total]
  simp only [totalTerms, stored]
  rw [table_registerOrder, SlotTable.total_insert _ h₂ h₃, terms_storedEntry]

/-- A live order keeps its terms when another order is added, or is refused. -/
theorem terms_addOrder_of_live {t : OrderTerms} (h : b.terms orderId = some t) (entry : OrderEntry)
    (now : TimestampNs) : (b.addOrder entry now).book.terms orderId = some t := by
  cases hok : (b.addOrder entry now).ok with
  | false => rw [addOrder_of_not_ok hok, h]
  | true =>
      rw [terms_addOrder hok, if_neg, h]
      intro heq
      have hnone := ((addOrder_ok_iff b entry now).1 hok).2.1
      rw [terms, heq, hnone] at h
      exact absurd h (by simp)

/-- An order without a reservation adds nothing to the reservations. -/
theorem reserved_addOrder {entry : OrderEntry} (now : TimestampNs) (hzero : entry.fundFrozen = 0) :
    (b.addOrder entry now).book.reserved = b.reserved := by
  cases hok : (b.addOrder entry now).ok with
  | false => rw [addOrder_of_not_ok hok]
  | true =>
      rw [reserved, totalTerms_addOrder hok]
      simp [OrderEntry.terms, hzero, reserved]

/-! ## `archive_order` -/

theorem findOrder_archiveOrder (b : OrderBook) (orderId id : InternalOrderId) :
    (b.archiveOrder orderId).book.findOrder id = if id = orderId then none else b.findOrder id := by
  rw [archiveOrder]
  split
  next hnone =>
    split
    next heq => rw [heq, hnone]
    next => rfl
  next entry hentry => exact SlotTable.find?_erase b.table orderId {} id

theorem terms_archiveOrder (b : OrderBook) (orderId id : InternalOrderId) :
    (b.archiveOrder orderId).book.terms id = if id = orderId then none else b.terms id := by
  rw [terms]
  rw [findOrder_archiveOrder]
  split <;> rfl

theorem totalTerms_archiveOrder {e : OrderEntry} (h : b.findOrder orderId = some e)
    (g : OrderTerms → Nat) :
    (b.archiveOrder orderId).book.totalTerms g + g e.terms = b.totalTerms g := by
  rw [archiveOrder]
  rw [h]
  exact SlotTable.total_erase {} (fun e => g e.terms) h

theorem archiveOrder_of_none (h : b.findOrder orderId = none) :
    (b.archiveOrder orderId).book = b := by
  rw [archiveOrder]
  rw [h]

/-! ## The links between parents and children -/

/-- The two maps that link children and parents. -/
def links (b : OrderBook) :
    Map InternalOrderId InternalOrderId × Map InternalOrderId (List InternalOrderId) :=
  (b.childToParent, b.parentToChildren)

theorem Edits.links (h : Edits b b') : b'.links = b.links := by
  induction h with
  | refl => rfl
  | tail _ hedit ih =>
      refine Eq.trans ?_ ih
      cases hedit with
      | entry => rfl
      | marks => rfl

theorem links_refreshParentFromChildren (b : OrderBook) (parentId : InternalOrderId) :
    (b.refreshParentFromChildren parentId).1.links = b.links :=
  (edits_refreshParentFromChildren b parentId).links

theorem links_updateState (b : OrderBook) (orderId : InternalOrderId) (state : OrderState)
    (now : TimestampNs) : (b.updateState orderId state now).book.links = b.links :=
  (edits_updateState b orderId state now).links

theorem links_updateTrade (b : OrderBook) (orderId : InternalOrderId) (vol : Volume) (px : DPrice)
    (val fee : DValue) (now : TimestampNs) :
    (b.updateTrade orderId vol px val fee now).book.links = b.links :=
  (edits_updateTrade b orderId vol px val fee now).links

theorem links_markManagedParent (b : OrderBook) (parentId : InternalOrderId) :
    (b.markManagedParent parentId).book.links = b.links :=
  (edits_markManagedParent b parentId).links

theorem links_syncManagedParentView (b : OrderBook) (parentId : InternalOrderId)
    (view : ManagedParentView) (state : OrderState) (now : TimestampNs) :
    (b.syncManagedParentView parentId view state now).book.links = b.links :=
  (edits_syncManagedParentView b parentId view state now).links

theorem links_registerOrder (b : OrderBook) (orderId : InternalOrderId) (stored : OrderEntry) :
    (b.registerOrder orderId stored).links = b.links := by
  unfold registerOrder ensureNextOrderIdAtLeast
  simp only
  split <;> split <;> split <;> rfl

/-- An order without a parent adds no link. -/
theorem links_addOrder_orphan (b : OrderBook) {entry : OrderEntry} (now : TimestampNs)
    (horphan : ¬ (entry.isSplitChild = true ∧ entry.parentOrderId ≠ 0)) :
    (b.addOrder entry now).book.links = b.links := by
  cases hok : (b.addOrder entry now).ok with
  | false => rw [addOrder_of_not_ok hok]
  | true =>
      obtain ⟨h₁, h₂, h₃⟩ := (addOrder_ok_iff b entry now).1 hok
      have hstored : ¬ ((storedEntry entry now).isSplitChild = true ∧
          (storedEntry entry now).parentOrderId ≠ 0) := horphan
      rw [addOrder]
      simp only
      rw [if_neg h₁, if_neg (by simp [h₂]), if_neg (by simpa using h₃), if_neg hstored]
      exact (links_registerOrder _ _ _).trans rfl

theorem links_addOrder_plain (b : OrderBook) {entry : OrderEntry} (now : TimestampNs)
    (hplain : entry.isSplitChild = false) : (b.addOrder entry now).book.links = b.links :=
  links_addOrder_orphan b now (by simp [hplain])

/-- A split child is linked to its parent. -/
theorem links_addOrder_child {entry : OrderEntry} {now : TimestampNs}
    (hok : (b.addOrder entry now).ok = true) (hchild : entry.isSplitChild = true)
    (hparent : entry.parentOrderId ≠ 0) :
    (b.addOrder entry now).book.links =
      (b.childToParent.insert entry.request.internalOrderId entry.parentOrderId,
        b.parentToChildren.insert entry.parentOrderId
          (b.getChildren entry.parentOrderId ++ [entry.request.internalOrderId])) := by
  obtain ⟨h₁, h₂, h₃⟩ := (addOrder_ok_iff b entry now).1 hok
  have hstored : (storedEntry entry now).isSplitChild = true ∧
      (storedEntry entry now).parentOrderId ≠ 0 :=
    ⟨hchild, hparent⟩
  have hlinks : (b.stored entry now).links = b.links := links_registerOrder _ _ _
  have hlinked :
      ((b.stored entry now).linkChild entry.request.internalOrderId entry.parentOrderId).links =
      (b.childToParent.insert entry.request.internalOrderId entry.parentOrderId,
        b.parentToChildren.insert entry.parentOrderId
          (b.getChildren entry.parentOrderId ++ [entry.request.internalOrderId])) := by
    simp only [linkChild, links, getChildren, Prod.mk.injEq] at hlinks ⊢
    rw [hlinks.1, hlinks.2]
    exact ⟨rfl, rfl⟩
  rw [addOrder]
  simp only
  rw [if_neg h₁, if_neg (by simp [h₂]), if_neg (by simpa using h₃), if_pos hstored]
  split
  · exact hlinked
  · exact (links_refreshParentFromChildren _ _).trans hlinked

theorem links_archiveOrder (b : OrderBook) (orderId : InternalOrderId) :
    (b.archiveOrder orderId).book.links = b.links := by
  rw [archiveOrder]
  split <;> rfl

/-- No order is linked to another. -/
def Unlinked (b : OrderBook) : Prop := b.links = (∅, ∅)

end OrderBook

end AccountServices
