import AccountServices.Common.CanonicalKeys
import AccountServices.Order.BookTerms

/-!
# Books that differ in the form of keys

Two books are alike when they hold the same orders up to the form in which the security keys of the
requests are written. The book compares keys in their normal form only, so its operations take alike
books to alike books, with the same answers and the same errors, and their notes carry alike
entries.
-/

set_option autoImplicit false

namespace AccountServices

open Foundation

/-! ## Requests and entries -/

/-- A request with another key. -/
def OrderRequest.withKey (request : OrderRequest) (key : InternalSecurityId) : OrderRequest :=
  { request with internalSecurityId := key }

/-- An entry with another key. -/
def OrderEntry.withKey (e : OrderEntry) (key : InternalSecurityId) : OrderEntry :=
  { e with request := e.request.withKey key }

/-- The requests differ at most in the form of the key. -/
def OrderRequest.Alike (request request' : OrderRequest) : Prop :=
  ∃ key, SameKey request.internalSecurityId key ∧ request' = request.withKey key

/-- The entries differ at most in the form of the key. -/
def OrderEntry.Alike (e e' : OrderEntry) : Prop :=
  ∃ key, SameKey e.request.internalSecurityId key ∧ e' = e.withKey key

theorem OrderEntry.Alike.refl (e : OrderEntry) : e.Alike e :=
  ⟨e.request.internalSecurityId, SameKey.refl _, rfl⟩

/-- The same order is found, or none. -/
def FoundAlike (found found' : Option OrderEntry) : Prop :=
  (found = none ∧ found' = none) ∨
    ∃ e key, SameKey e.request.internalSecurityId key ∧ found = some e ∧
      found' = some (e.withKey key)

theorem FoundAlike.some {e e' : OrderEntry} (h : e.Alike e') : FoundAlike (some e) (some e') := by
  obtain ⟨key, hkey, rfl⟩ := h
  exact Or.inr ⟨e, key, hkey, rfl, rfl⟩

theorem FoundAlike.isSome {found found' : Option OrderEntry} (h : FoundAlike found found') :
    found'.isSome = found.isSome := by
  rcases h with ⟨rfl, rfl⟩ | ⟨e, key, -, rfl, rfl⟩
  · rfl
  · rfl

theorem FoundAlike.getD {found found' : Option OrderEntry} (h : FoundAlike found found')
    {e e' : OrderEntry} (he : e.Alike e') : (found.getD e).Alike (found'.getD e') := by
  rcases h with ⟨rfl, rfl⟩ | ⟨e, key, hkey, rfl, rfl⟩
  · exact he
  · exact ⟨key, hkey, rfl⟩

/-! ## Books -/

/-- The tables use the same slots for the same ids, and hold alike entries. -/
structure TableAlike {n : Nat} (t u : SlotTable InternalOrderId OrderEntry n) : Prop where
  index : u.index = t.index
  free : u.free = t.free
  found : ∀ k, FoundAlike (t.find? k) (u.find? k)

namespace OrderBook

/-- The books differ at most in the form of the keys in their entries. -/
def Alike (b c : OrderBook) : Prop := ∃ t, c = { b with table := t } ∧ TableAlike b.table t

/-- The notes carry alike entries. -/
def NotesAlike (notes notes' : List (OrderEntry × BookEvent)) : Prop :=
  List.Forall₂ (fun note note' => note.1.Alike note'.1 ∧ note'.2 = note.2) notes notes'

/-- The outcomes of an operation on alike books. -/
structure OutcomesAlike (out out' : BookOutcome) : Prop where
  book : out.book.Alike out'.book
  ok : out'.ok = out.ok
  errors : out'.errors = out.errors
  notes : NotesAlike out.notes out'.notes

variable {b c : OrderBook}

theorem Alike.refl (b : OrderBook) : b.Alike b := by
  refine ⟨b.table, rfl, rfl, rfl, fun k => ?_⟩
  cases b.table.find? k with
  | none => exact Or.inl ⟨rfl, rfl⟩
  | some e => exact FoundAlike.some (OrderEntry.Alike.refl e)

theorem Alike.findOrder (h : b.Alike c) (k : InternalOrderId) :
    FoundAlike (b.findOrder k) (c.findOrder k) := by
  obtain ⟨t, rfl, ht⟩ := h
  exact ht.found k

/-- A write to the same order. -/
theorem Alike.modifyOrder (h : b.Alike c) (k : InternalOrderId) {f g : OrderEntry → OrderEntry}
    (hfg : ∀ e e', b.findOrder k = some e → e.Alike e' → (f e).Alike (g e')) :
    (b.modifyOrder k f).Alike (c.modifyOrder k g) := by
  obtain ⟨t, rfl, ht⟩ := h
  have hindex : ∀ (u : SlotTable InternalOrderId OrderEntry kMaxActiveOrders) f,
      (u.modify k f).index = u.index ∧ (u.modify k f).free = u.free := by
    intro u f
    simp only [SlotTable.modify]
    split
    · exact ⟨rfl, rfl⟩
    · exact ⟨rfl, rfl⟩
  refine ⟨t.modify k g, rfl, ?_, ?_, fun k' => ?_⟩
  · exact (hindex t g).1.trans (ht.index.trans (hindex b.table f).1.symm)
  · exact (hindex t g).2.trans (ht.free.trans (hindex b.table f).2.symm)
  · show FoundAlike ((b.table.modify k f).find? k') ((t.modify k g).find? k')
    rw [SlotTable.find?_modify, SlotTable.find?_modify]
    by_cases hk : k' = k
    · rw [if_pos hk, if_pos hk]
      rcases ht.found k with ⟨hnone, hnone'⟩ | ⟨e, key, hkey, he, he'⟩
      · rw [hnone, hnone']
        exact Or.inl ⟨rfl, rfl⟩
      · rw [he, he']
        exact FoundAlike.some (hfg e _ he ⟨key, hkey, rfl⟩)
    · rw [if_neg hk, if_neg hk]
      exact ht.found k'

/-- The aggregation does not look at keys. -/
theorem Alike.foldChildren (h : b.Alike c) {parent parent' : OrderEntry}
    (hparent : parent.Alike parent') (children : List InternalOrderId) :
    c.foldChildren parent' children = b.foldChildren parent children := by
  obtain ⟨key, -, rfl⟩ := hparent
  have hadd : ∀ (acc : ChildFold) childId, acc.add (c.findOrder childId) = acc.add
      (b.findOrder childId) := by
    intro acc childId
    rcases h.findOrder childId with ⟨hnone, hnone'⟩ | ⟨e, key, -, he, he'⟩
    · rw [hnone, hnone']
    · rw [he, he']
      rfl
  simp only [OrderBook.foldChildren, hadd]
  rfl

theorem Alike.refreshParentFromChildren (h : b.Alike c) (parentId : InternalOrderId) :
    (b.refreshParentFromChildren parentId).1.Alike (c.refreshParentFromChildren parentId).1 ∧
      (c.refreshParentFromChildren parentId).2.1 = (b.refreshParentFromChildren parentId).2.1 ∧
      NotesAlike (b.refreshParentFromChildren parentId).2.2
        (c.refreshParentFromChildren parentId).2.2 := by
  have hnil : NotesAlike [] [] := List.Forall₂.nil
  have hmanaged : c.isManagedParent parentId = b.isManagedParent parentId := by
    obtain ⟨t, rfl, -⟩ := h
    rfl
  have hchildren : c.parentToChildren = b.parentToChildren := by
    obtain ⟨t, rfl, -⟩ := h
    rfl
  have hlatched : c.splitParentErrorLatched = b.splitParentErrorLatched := by
    obtain ⟨t, rfl, -⟩ := h
    rfl
  simp only [OrderBook.refreshParentFromChildren, hmanaged, hchildren, hlatched]
  cases b.isManagedParent parentId with
  | true => exact ⟨h, rfl, hnil⟩
  | false =>
      simp only [Bool.false_eq_true, if_false]
      rcases h.findOrder parentId with ⟨hnone, hnone'⟩ | ⟨parent, key, hkey, he, he'⟩
      · rw [hnone, hnone']
        exact ⟨h, rfl, hnil⟩
      · rw [he, he']
        simp only
        cases b.parentToChildren.lookup parentId with
        | none => exact ⟨h, rfl, hnil⟩
        | some children =>
            simp only
            rw [h.foldChildren ⟨key, hkey, rfl⟩ children]
            by_cases hcount : (b.foldChildren parent children).newChildCount = 0
            · rw [if_pos hcount, if_pos hcount]
              exact ⟨h, rfl, hnil⟩
            · rw [if_neg hcount, if_neg hcount]
              -- The refreshed parents differ as the parents did.
              have hrefreshed :
                  (refreshParent parent (decide (parentId ∈ b.splitParentErrorLatched))
                  (b.foldChildren parent children)).Alike
                    (refreshParent (parent.withKey key)
                      (decide (parentId ∈ b.splitParentErrorLatched))
                      (b.foldChildren parent children)) := ⟨key, hkey, rfl⟩
              exact ⟨h.modifyOrder parentId fun _ _ _ _ => hrefreshed, rfl,
                List.Forall₂.cons ⟨hrefreshed, rfl⟩ hnil⟩

theorem Alike.refreshParentOf (h : b.Alike c) (orderId : InternalOrderId) :
    (b.refreshParentOf orderId).1.Alike (c.refreshParentOf orderId).1 ∧
      (c.refreshParentOf orderId).2.1 = (b.refreshParentOf orderId).2.1 ∧
      NotesAlike (b.refreshParentOf orderId).2.2 (c.refreshParentOf orderId).2.2 := by
  have hparents : c.childToParent = b.childToParent := by
    obtain ⟨t, rfl, -⟩ := h
    rfl
  have hmanaged : ∀ k, c.isManagedParent k = b.isManagedParent k := by
    obtain ⟨t, rfl, -⟩ := h
    exact fun _ => rfl
  simp only [OrderBook.refreshParentOf, hparents, hmanaged]
  cases b.childToParent.lookup orderId with
  | none => exact ⟨h, rfl, List.Forall₂.nil⟩
  | some parentId =>
      simp only
      cases b.isManagedParent parentId with
      | true => exact ⟨h, rfl, List.Forall₂.nil⟩
      | false => exact h.refreshParentFromChildren parentId

/-- What an operation that rewrites an order, refreshes its parent and announces the order
returns. -/
theorem Alike.announce (h : b.Alike c) (orderId : InternalOrderId) {entry entry' : OrderEntry}
    (hentry : entry.Alike entry') (event : BookEvent) :
    OutcomesAlike
      { book := (b.refreshParentOf orderId).1, ok := true, errors := (b.refreshParentOf orderId).2.1
        notes := (b.refreshParentOf orderId).2.2 ++
          [(((b.refreshParentOf orderId).1.findOrder orderId).getD entry, event)] }
      { book := (c.refreshParentOf orderId).1, ok := true, errors := (c.refreshParentOf orderId).2.1
        notes := (c.refreshParentOf orderId).2.2 ++
          [(((c.refreshParentOf orderId).1.findOrder orderId).getD entry', event)] } := by
  obtain ⟨hbook, herrors, hnotes⟩ := h.refreshParentOf orderId
  refine ⟨hbook, rfl, herrors, List.rel_append hnotes
    (List.Forall₂.cons ⟨?_, rfl⟩ List.Forall₂.nil)⟩
  exact (hbook.findOrder orderId).getD hentry

/-! ## The operations -/

theorem Alike.updateState (h : b.Alike c) (orderId : InternalOrderId) (newState : OrderState)
    (now : TimestampNs) :
    OutcomesAlike (b.updateState orderId newState now) (c.updateState orderId newState now) := by
  simp only [OrderBook.updateState]
  rcases h.findOrder orderId with ⟨hnone, hnone'⟩ | ⟨e, key, hkey, he, he'⟩
  · rw [hnone, hnone']
    exact ⟨h, rfl, rfl, List.Forall₂.nil⟩
  · rw [he, he']
    have hentry : (withState e newState now).Alike (withState (e.withKey key) newState now) :=
      ⟨key, hkey, rfl⟩
    have hlatch : ∀ {b c : OrderBook}, b.Alike c →
        (b.latchSplitError orderId newState).Alike (c.latchSplitError orderId newState) := by
      rintro b _ ⟨t, rfl, ht⟩
      by_cases hlatches : newState = .traderError ∧
          (b.parentToChildren.lookup orderId).isSome = true ∧ ¬ b.isManagedParent orderId = true
      · have hset : ∀ u, ({ b with table := u } : OrderBook).latchSplitError orderId newState =
            { b with
              table := u
              splitParentErrorLatched := insert orderId b.splitParentErrorLatched } :=
          fun _ => if_pos hlatches
        rw [hset t, show b.latchSplitError orderId newState = _ from hset b.table]
        exact ⟨t, rfl, ht⟩
      · have hkeep : ∀ u, ({ b with table := u } : OrderBook).latchSplitError orderId newState =
            { b with table := u } := fun _ => if_neg hlatches
        rw [hkeep t, show b.latchSplitError orderId newState = _ from hkeep b.table]
        exact ⟨t, rfl, ht⟩
    exact (hlatch (h.modifyOrder orderId fun _ _ _ _ => hentry)).announce orderId
      hentry .statusUpdated

theorem Alike.updateTrade (h : b.Alike c) (orderId : InternalOrderId) (vol : Volume) (px : DPrice)
    (val fee : DValue) (now : TimestampNs) :
    OutcomesAlike (b.updateTrade orderId vol px val fee now)
      (c.updateTrade orderId vol px val fee now) := by
  simp only [OrderBook.updateTrade]
  rcases h.findOrder orderId with ⟨hnone, hnone'⟩ | ⟨e, key, hkey, he, he'⟩
  · rw [hnone, hnone']
    exact ⟨h, rfl, rfl, List.Forall₂.nil⟩
  · rw [he, he']
    have hentry : (withTrade e vol px val fee now).Alike
        (withTrade (e.withKey key) vol px val fee now) :=
      ⟨key, hkey, rfl⟩
    exact (h.modifyOrder orderId fun _ _ _ _ => hentry).announce orderId hentry .tradeUpdated

theorem Alike.markManagedParent (h : b.Alike c) (parentId : InternalOrderId) :
    OutcomesAlike (b.markManagedParent parentId) (c.markManagedParent parentId) := by
  simp only [OrderBook.markManagedParent]
  rcases h.findOrder parentId with ⟨hnone, hnone'⟩ | ⟨e, key, hkey, he, he'⟩
  · rw [hnone, hnone']
    exact ⟨h, rfl, rfl, List.Forall₂.nil⟩
  · rw [he, he']
    obtain ⟨t, rfl, ht⟩ := h
    exact ⟨⟨t, rfl, ht⟩, rfl, rfl, List.Forall₂.nil⟩

theorem Alike.syncManagedParentView (h : b.Alike c) (parentId : InternalOrderId)
    (view : ManagedParentView) (parentState : OrderState) (now : TimestampNs) :
    OutcomesAlike (b.syncManagedParentView parentId view parentState now)
      (c.syncManagedParentView parentId view parentState now) := by
  simp only [OrderBook.syncManagedParentView]
  rcases h.findOrder parentId with ⟨hnone, hnone'⟩ | ⟨parent, key, hkey, he, he'⟩
  · rw [hnone, hnone']
    exact ⟨h, rfl, rfl, List.Forall₂.nil⟩
  · rw [he, he']
    have hmarked :
        ({ b with managedParentIds := insert parentId b.managedParentIds } : OrderBook).Alike
        { c with managedParentIds := insert parentId c.managedParentIds } := by
      obtain ⟨t, rfl, ht⟩ := h
      exact ⟨t, rfl, ht⟩
    -- The mirror changes something in both parents or in neither.
    have hsame : mirroredRequest (parent.withKey key).request view parentState =
        (parent.withKey key).request ↔
        mirroredRequest parent.request view parentState = parent.request := by
      constructor
      · intro heq
        have hback :=
          congrArg (fun r => OrderRequest.withKey r parent.request.internalSecurityId) heq
        exact hback
      · intro heq
        exact congrArg (fun r => OrderRequest.withKey r key) heq
    simp only
    by_cases heq : mirroredRequest parent.request view parentState = parent.request
    · rw [if_pos heq, if_pos (hsame.2 heq)]
      exact ⟨hmarked, rfl, rfl, List.Forall₂.nil⟩
    · rw [if_neg heq, if_neg fun h => heq (hsame.1 h)]
      have hentry : ({ parent with
          request := mirroredRequest parent.request view parentState, lastUpdateNs := now } :
            OrderEntry).Alike { parent.withKey key with
              request := mirroredRequest (parent.withKey key).request view parentState
              lastUpdateNs := now } := ⟨key, hkey, rfl⟩
      exact ⟨hmarked.modifyOrder parentId fun _ _ _ _ => hentry, rfl, rfl,
        List.Forall₂.cons ⟨hentry, rfl⟩ List.Forall₂.nil⟩

/-- A new order. The two tables store it in the same slot. -/
theorem Alike.store (h : b.Alike c) {entry entry' : OrderEntry} (hentry : entry.Alike entry')
    {k : InternalOrderId} (hnew : b.findOrder k = none) (hroom : b.table.free ≠ []) :
    ({ b with table := b.table.insert k entry } : OrderBook).Alike
      { c with table := c.table.insert k entry' } := by
  obtain ⟨t, rfl, ht⟩ := h
  have hnew' : t.find? k = none := by
    rcases ht.found k with ⟨-, hnone⟩ | ⟨e, key, -, he, -⟩
    · exact hnone
    · exact absurd (he.symm.trans hnew) (by simp)
  have hroom' : t.free ≠ [] := ht.free ▸ hroom
  have hshape : ((t.insert k entry').index, (t.insert k entry').free) =
      ((b.table.insert k entry).index, (b.table.insert k entry).free) := by
    rw [SlotTable.shape_insert, SlotTable.shape_insert, ht.index, ht.free]
  refine ⟨t.insert k entry', rfl, congrArg Prod.fst hshape, congrArg Prod.snd hshape, fun k' => ?_⟩
  show FoundAlike ((b.table.insert k entry).find? k') ((t.insert k entry').find? k')
  rw [SlotTable.find?_insert hnew hroom, SlotTable.find?_insert hnew' hroom']
  by_cases hk : k' = k
  · rw [if_pos hk, if_pos hk]
    exact FoundAlike.some hentry
  · rw [if_neg hk, if_neg hk]
    exact ht.found k'

/-- The registration does not look at the table, and at the normal form of the key only. -/
theorem Alike.registerOrder (h : b.Alike c) (orderId : InternalOrderId) {entry entry' : OrderEntry}
    (hentry : entry.Alike entry') :
    (b.registerOrder orderId entry).Alike (c.registerOrder orderId entry') := by
  obtain ⟨key, hkey, rfl⟩ := hentry
  obtain ⟨t, rfl, ht⟩ := h
  have hnormal : normalizeSecurityKey (entry.withKey key).request.internalSecurityId.view =
      normalizeSecurityKey entry.request.internalSecurityId.view := hkey.normalizeSecurityKey.symm
  have htable : ∀ u, ({ b with table := u } : OrderBook).registerOrder orderId entry =
      { b.registerOrder orderId entry with table := u } := by
    intro u
    simp only [OrderBook.registerOrder, ensureNextOrderIdAtLeast]
    split <;> split <;> split <;> rfl
  have hsame : ({ b with table := t } : OrderBook).registerOrder orderId (entry.withKey key) =
      { b.registerOrder orderId entry with table := t } := by
    rw [← htable t]
    simp only [OrderBook.registerOrder, hnormal]
    rfl
  refine ⟨t, hsame, ?_⟩
  rw [table_registerOrder]
  exact ht

theorem Alike.linkChild (h : b.Alike c) (orderId parentId : InternalOrderId) :
    (b.linkChild orderId parentId).Alike (c.linkChild orderId parentId) := by
  obtain ⟨t, rfl, ht⟩ := h
  exact ⟨t, rfl, ht⟩

theorem Alike.addOrder (h : b.Alike c) {entry entry' : OrderEntry} (hentry : entry.Alike entry')
    (now : TimestampNs) : OutcomesAlike (b.addOrder entry now) (c.addOrder entry' now) := by
  have hfree : c.table.free = b.table.free := by
    obtain ⟨t, rfl, ht⟩ := h
    exact ht.free
  obtain ⟨key, hkey, rfl⟩ := hentry
  have hfound := (h.findOrder entry.request.internalOrderId).isSome
  simp only [OrderBook.addOrder]
  rw [show (entry.withKey key).request.internalOrderId = entry.request.internalOrderId from rfl,
    hfree, hfound]
  split
  · exact ⟨h, rfl, rfl, List.Forall₂.nil⟩
  split
  · exact ⟨h, rfl, rfl, List.Forall₂.nil⟩
  split
  · exact ⟨h, rfl, rfl, List.Forall₂.nil⟩
  next hzero hlive hfull =>
    have hnew : b.findOrder entry.request.internalOrderId = none := by
      cases he : b.findOrder entry.request.internalOrderId with
      | none => rfl
      | some e => exact absurd (by rw [he]; rfl) hlive
    have hroom : b.table.free ≠ [] := fun heq => hfull (by rw [heq]; rfl)
    -- The two forms of the key are stored side by side, with the same remaining volume.
    have hstored : (storedEntry entry now).Alike (storedEntry (entry.withKey key) now) := by
      refine ⟨key, ?_, ?_⟩
      · have hsame : (storedEntry entry now).request.internalSecurityId =
            entry.request.internalSecurityId := by
          simp only [storedEntry]
          split <;> rfl
        rw [hsame]
        exact hkey
      · have hrequest : (storedEntry (entry.withKey key) now).request =
            (storedEntry entry now).request.withKey key := by
          by_cases hfill : entry.request.orderType = .new ∧ entry.request.volumeRemain = 0 ∧
              entry.request.volumeTraded ≤ entry.request.volumeEntrust
          · have hplain : (storedEntry entry now).request = { entry.request with
                volumeRemain := entry.request.volumeEntrust - entry.request.volumeTraded } :=
                  if_pos hfill
            rw [hplain]
            exact if_pos hfill
          · have hplain : (storedEntry entry now).request = entry.request := if_neg hfill
            rw [hplain]
            exact if_neg hfill
        exact congrArg (fun r => { storedEntry entry now with request := r }) hrequest
    have hregistered :=
      (h.store hstored hnew hroom).registerOrder entry.request.internalOrderId hstored
    set b₁ := ({ b with table := b.table.insert entry.request.internalOrderId (storedEntry
      entry now) } : OrderBook).registerOrder entry.request.internalOrderId (storedEntry entry now)
    set c₁ := ({ c with
      table := c.table.insert entry.request.internalOrderId
        (storedEntry (entry.withKey key) now) } :
      OrderBook).registerOrder entry.request.internalOrderId (storedEntry (entry.withKey key) now)
    -- Whatever comes behind the registration, the count and the last note are the same in both
    -- books.
    have hfinish : ∀ {b₂ c₂ : OrderBook} {errors : List ErrorStatus}
        {notes notes' : List (OrderEntry × BookEvent)}, b₂.Alike c₂ → NotesAlike notes notes' →
          OutcomesAlike
            { book := { b₂ with activeCount := b₂.activeCount + 1 }, ok := true, errors := errors
              notes := notes ++
                [(({ b₂ with activeCount := b₂.activeCount + 1 } : OrderBook).findOrder
                entry.request.internalOrderId |>.getD (storedEntry entry now), .added)] }
            { book := { c₂ with activeCount := c₂.activeCount + 1 }, ok := true, errors := errors
              notes := notes' ++
                [(({ c₂ with activeCount := c₂.activeCount + 1 } : OrderBook).findOrder
                entry.request.internalOrderId |>.getD (storedEntry (entry.withKey key) now),
                  .added)] } := by
      intro b₂ c₂ errors notes notes' hbook hnotes
      have hcounted : ({ b₂ with activeCount := b₂.activeCount + 1 } : OrderBook).Alike
          { c₂ with activeCount := c₂.activeCount + 1 } := by
        obtain ⟨t, rfl, ht⟩ := hbook
        exact ⟨t, rfl, ht⟩
      refine ⟨hcounted, rfl, rfl, List.rel_append hnotes
        (List.Forall₂.cons ⟨?_, rfl⟩ List.Forall₂.nil)⟩
      exact (hcounted.findOrder _).getD hstored
    have hparent : ∀ stored : OrderEntry, stored = storedEntry entry now →
        (storedEntry (entry.withKey key) now).isSplitChild = stored.isSplitChild ∧
          (storedEntry (entry.withKey key) now).parentOrderId = stored.parentOrderId := by
      rintro _ rfl
      exact ⟨rfl, rfl⟩
    obtain ⟨hsplit, hid⟩ := hparent _ rfl
    rw [hsplit, hid]
    -- A child is linked, and its parent refreshed, in both books or in neither.
    by_cases hchild : (storedEntry entry now).isSplitChild = true ∧
      (storedEntry entry now).parentOrderId ≠ 0
    · rw [if_pos hchild, if_pos hchild]
      have hlinked := hregistered.linkChild entry.request.internalOrderId
        (storedEntry entry now).parentOrderId
      have hmanaged : (c₁.linkChild entry.request.internalOrderId
          (storedEntry entry now).parentOrderId).isManagedParent
            (storedEntry entry now).parentOrderId = (b₁.linkChild entry.request.internalOrderId
              (storedEntry entry now).parentOrderId).isManagedParent
                (storedEntry entry now).parentOrderId := by
        obtain ⟨t, heq, -⟩ := hlinked
        rw [heq]
        rfl
      rw [hmanaged]
      split
      · exact hfinish hlinked List.Forall₂.nil
      · obtain ⟨hbook, herrors, hnotes⟩ :=
          hlinked.refreshParentFromChildren (storedEntry entry now).parentOrderId
        rw [herrors]
        exact hfinish hbook hnotes
    · rw [if_neg hchild, if_neg hchild]
      exact hfinish hregistered List.Forall₂.nil

theorem Alike.archiveOrder (h : b.Alike c) (orderId : InternalOrderId) :
    OutcomesAlike (b.archiveOrder orderId) (c.archiveOrder orderId) := by
  simp only [OrderBook.archiveOrder]
  rcases h.findOrder orderId with ⟨hnone, hnone'⟩ | ⟨e, key, hkey, he, he'⟩
  · rw [hnone, hnone']
    exact ⟨h, rfl, rfl, List.Forall₂.nil⟩
  · rw [he, he']
    obtain ⟨t, rfl, ht⟩ := h
    have hnormal : normalizeSecurityKey (e.withKey key).request.internalSecurityId.view =
        normalizeSecurityKey e.request.internalSecurityId.view := hkey.normalizeSecurityKey.symm
    have hindexed : ({ b with table := t } : OrderBook).unindexSecurity orderId
        (e.withKey key).request = b.unindexSecurity orderId e.request := by
      simp only [unindexSecurity, hnormal]
    have hshape : ((t.erase orderId {}).index, (t.erase orderId {}).free) =
        ((b.table.erase orderId {}).index, (b.table.erase orderId {}).free) := by
      rw [SlotTable.shape_erase, SlotTable.shape_erase, ht.index, ht.free]
    refine ⟨⟨t.erase orderId {}, ?_, congrArg Prod.fst hshape, congrArg Prod.snd hshape, fun k =>
      ?_⟩, rfl, rfl, List.Forall₂.cons ⟨⟨key, hkey, rfl⟩, rfl⟩ List.Forall₂.nil⟩
    · simp only [hindexed]
      rfl
    · show FoundAlike ((b.table.erase orderId {}).find? k) ((t.erase orderId {}).find? k)
      rw [SlotTable.find?_erase, SlotTable.find?_erase]
      by_cases hk : k = orderId
      · rw [if_pos hk, if_pos hk]
        exact Or.inl ⟨rfl, rfl⟩
      · rw [if_neg hk, if_neg hk]
        exact ht.found k

end OrderBook

end AccountServices
