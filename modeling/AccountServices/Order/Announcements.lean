import Mathlib.Data.Set.Insert
import AccountServices.Order.BookStates

/-!
# What the book announces

The change callback receives copies of entries. An operation of the book announces every order that
it changed, with the entry as it stands when the operation is over, so that whoever keeps the last
copy of each order keeps the book. The order that an operation is about is announced even when
nothing in it has changed; `Announces` names such orders.
-/

set_option autoImplicit false

namespace AccountServices

open Foundation

namespace OrderBook

/-- The notes of an operation that starts from `b`: each carries an entry of the new book, and an
order without a note is as it was, which the orders in `told` never rely on. Slots do not change
hands. -/
structure Announces (b : OrderBook) (told : Set InternalOrderId) (out : BookOutcome) : Prop where
  current : ∀ note ∈ out.notes, ∃ k, out.book.findOrder k = some note.1
  slot : ∀ k e, out.book.findOrder k = some e →
    ∃ e₀, b.findOrder k = some e₀ ∧ e₀.shmOrderIndex = e.shmOrderIndex
  heard : ∀ k e, out.book.findOrder k = some e →
    (∃ event, (e, event) ∈ out.notes) ∨ (k ∉ told ∧ b.findOrder k = some e)

/-- The book `b'` is `b` with at most one entry replaced, which the notes carry. -/
def Refreshes (b b' : OrderBook) (notes : List (OrderEntry × BookEvent)) : Prop :=
  ((∀ k, b'.findOrder k = b.findOrder k) ∧ notes = []) ∨
    ∃ parentId parent parent' event, b.findOrder parentId = some parent ∧
      parent'.shmOrderIndex = parent.shmOrderIndex ∧
      (∀ k, b'.findOrder k = if k = parentId then some parent' else b.findOrder k) ∧
      notes = [(parent', event)]

variable {b b₁ b₂ : OrderBook} {orderId : InternalOrderId}

/-- The aggregation announces the parent that it rewrites. -/
theorem refreshes_refreshParentFromChildren (b : OrderBook) (parentId : InternalOrderId) :
    b.Refreshes (b.refreshParentFromChildren parentId).1
      (b.refreshParentFromChildren parentId).2.2 := by
  simp only [refreshParentFromChildren]
  split
  · exact Or.inl ⟨fun _ => rfl, rfl⟩
  split
  · exact Or.inl ⟨fun _ => rfl, rfl⟩
  next parent hparent =>
    split
    · exact Or.inl ⟨fun _ => rfl, rfl⟩
    split
    · exact Or.inl ⟨fun _ => rfl, rfl⟩
    · refine Or.inr ⟨parentId, parent, _, _, hparent, ?_, ?_, rfl⟩
      · rfl
      · intro k
        rw [findOrder_modifyOrder, hparent, Option.map_some]

theorem refreshes_refreshParentOf (b : OrderBook) (orderId : InternalOrderId) :
    b.Refreshes (b.refreshParentOf orderId).1 (b.refreshParentOf orderId).2.2 := by
  simp only [refreshParentOf]
  split
  · split
    · exact Or.inl ⟨fun _ => rfl, rfl⟩
    · exact refreshes_refreshParentFromChildren b _
  · exact Or.inl ⟨fun _ => rfl, rfl⟩

/-- A refresh removes no order. -/
theorem Refreshes.isSome {notes : List (OrderEntry × BookEvent)} (h : b₁.Refreshes b₂ notes)
    {e : OrderEntry} (he : b₁.findOrder orderId = some e) :
    ∃ e', b₂.findOrder orderId = some e' ∧ e'.shmOrderIndex = e.shmOrderIndex := by
  rcases h with ⟨hsame, -⟩ | ⟨parentId, parent, parent', -, hparent, hindex, hfind, -⟩
  · exact ⟨e, (hsame orderId).trans he, rfl⟩
  · rw [hfind]
    by_cases heq : orderId = parentId
    · subst heq
      rw [if_pos rfl]
      rw [he, Option.some.injEq] at hparent
      exact ⟨parent', rfl, hindex.trans (congrArg OrderEntry.shmOrderIndex hparent.symm)⟩
    · rw [if_neg heq]
      exact ⟨e, he, rfl⟩

/-- An operation that rewrites one order, refreshes its parent and then announces the order. The
note of the order comes last, since the order may be its own parent. -/
theorem Refreshes.announces {notes : List (OrderEntry × BookEvent)} (h : b₁.Refreshes b₂ notes)
    {out : BookOutcome} {e entry : OrderEntry} {event : BookEvent}
    (hbook : ∀ k, out.book.findOrder k = b₂.findOrder k)
    (hnotes : out.notes = notes ++ [((b₂.findOrder orderId).getD entry, event)])
    (hbefore : b.findOrder orderId = some e) (hindex : e.shmOrderIndex = entry.shmOrderIndex)
    (hafter : b₁.findOrder orderId = some entry)
    (hothers : ∀ k, k ≠ orderId → b₁.findOrder k = b.findOrder k) : b.Announces {orderId} out := by
  obtain ⟨final, hfinal, hslot⟩ := h.isSome hafter
  rw [hfinal, Option.getD_some] at hnotes
  have hlast : (final, event) ∈ out.notes := by
    rw [hnotes]
    exact List.mem_append_right _ List.mem_cons_self
  have hself : ∀ k e', k = orderId → out.book.findOrder k = some e' → e' = final := by
    rintro k e' rfl he'
    rw [hbook, hfinal, Option.some.injEq] at he'
    exact he'.symm
  rcases h with
    ⟨hsame, rfl⟩ | ⟨parentId, parent, parent', event', hparent, hparentIndex, hfind, rfl⟩
  · -- No parent was rewritten: the order itself is the only change.
    refine ⟨fun note hmem => ?_, fun k e' he' => ?_, fun k e' he' => ?_⟩
    · rw [hnotes, List.nil_append, List.mem_singleton] at hmem
      exact ⟨orderId, by rw [hbook, hfinal, hmem]⟩
    · by_cases hk : k = orderId
      · rw [hself k e' hk he', hk]
        exact ⟨e, hbefore, hindex.trans hslot.symm⟩
      · rw [hbook, hsame, hothers k hk] at he'
        exact ⟨e', he', rfl⟩
    · by_cases hk : k = orderId
      · exact Or.inl ⟨event, hself k e' hk he' ▸ hlast⟩
      · rw [hbook, hsame, hothers k hk] at he'
        exact Or.inr ⟨fun hmem => hk (Set.mem_singleton_iff.1 hmem), he'⟩
  -- The refresh rewrote the parent as well, and announced it before the order.
  · have hfirst : (parent', event') ∈ out.notes := by
      rw [hnotes]
      exact List.mem_append_left _ List.mem_cons_self
    refine ⟨fun note hmem => ?_, fun k e' he' => ?_, fun k e' he' => ?_⟩
    · rw [hnotes, List.mem_append, List.mem_singleton, List.mem_singleton] at hmem
      rcases hmem with rfl | rfl
      · exact ⟨parentId, by rw [hbook, hfind, if_pos rfl]⟩
      · exact ⟨orderId, by rw [hbook, hfinal]⟩
    · by_cases hk : k = orderId
      · rw [hself k e' hk he', hk]
        exact ⟨e, hbefore, hindex.trans hslot.symm⟩
      · rw [hbook, hfind] at he'
        split at he'
        -- the parent itself
        next heq =>
          rw [← hothers k hk, heq]
          exact ⟨parent, hparent, (Option.some.inj he') ▸ hparentIndex.symm⟩
        next =>
          rw [hothers k hk] at he'
          exact ⟨e', he', rfl⟩
    · by_cases hk : k = orderId
      · exact Or.inl ⟨event, hself k e' hk he' ▸ hlast⟩
      · rw [hbook, hfind] at he'
        split at he'
        · exact Or.inl ⟨event', Option.some.inj he' ▸ hfirst⟩
        · rw [hothers k hk] at he'
          exact Or.inr ⟨fun hmem => hk (Set.mem_singleton_iff.1 hmem), he'⟩

/-- An operation that changes no order has nothing to announce. -/
theorem announces_of_same {out : BookOutcome} (hsame : ∀ k, out.book.findOrder k = b.findOrder k)
    (hnotes : out.notes = []) {told : Set InternalOrderId}
    (htold : ∀ k ∈ told, b.findOrder k = none) :
    b.Announces told out := by
  refine ⟨fun note hmem => ?_, fun k e he => ?_, fun k e he => ?_⟩
  · rw [hnotes] at hmem
    exact absurd hmem List.not_mem_nil
  · exact ⟨e, hsame k ▸ he, rfl⟩
  · rw [hsame] at he
    refine Or.inr ⟨fun hmem => ?_, he⟩
    rw [htold k hmem] at he
    exact Option.some_ne_none e he.symm

theorem announces_silently {out : BookOutcome} (hsame : ∀ k, out.book.findOrder k = b.findOrder k)
    (hnotes : out.notes = []) : b.Announces ∅ out :=
  announces_of_same hsame hnotes fun _ hmem => absurd hmem (Set.notMem_empty _)

/-- What announces an order also announces fewer. -/
theorem Announces.mono {told told' : Set InternalOrderId} {out : BookOutcome}
    (h : b.Announces told out) (hsub : told' ⊆ told) : b.Announces told' out where
  current := h.current
  slot := h.slot
  heard k e he := (h.heard k e he).imp_right fun hkept => ⟨fun hmem => hkept.1 (hsub hmem), hkept.2⟩

/-! ## The operations -/

theorem announces_updateState (b : OrderBook) (orderId : InternalOrderId) (newState : OrderState)
    (now : TimestampNs) : b.Announces {orderId} (b.updateState orderId newState now) := by
  simp only [updateState]
  split
  next hnone =>
    refine announces_of_same ?_ ?_ ?_
    · exact fun _ => rfl
    · rfl
    · rintro k rfl
      exact hnone
  next e he =>
    obtain ⟨latched, hlatch, -⟩ :=
      latchSplitError_eq (b.modifyOrder orderId fun _ => withState e newState now) orderId newState
    have hfind : ∀ k,
        ((b.modifyOrder orderId fun _ => withState e newState now).latchSplitError orderId
          newState).findOrder k =
          if k = orderId then some (withState e newState now) else b.findOrder k := by
      intro k
      rw [hlatch]
      refine (findOrder_modifyOrder b orderId (fun _ => withState e newState now) k).trans ?_
      rw [he, Option.map_some]
    refine (refreshes_refreshParentOf _ orderId).announces (fun _ => rfl) rfl he rfl ?_ ?_
    · rw [hfind, if_pos rfl]
    · intro k hk
      rw [hfind, if_neg hk]

theorem announces_updateTrade (b : OrderBook) (orderId : InternalOrderId)
    (vol : Volume) (px : DPrice) (val fee : DValue) (now : TimestampNs) :
    b.Announces {orderId} (b.updateTrade orderId vol px val fee now) := by
  simp only [updateTrade]
  split
  next hnone =>
    refine announces_of_same ?_ ?_ ?_
    · exact fun _ => rfl
    · rfl
    · rintro k rfl
      exact hnone
  next e he =>
    have hfind : ∀ k, (b.modifyOrder orderId fun _ => withTrade e vol px val fee now).findOrder k =
        if k = orderId then some (withTrade e vol px val fee now) else b.findOrder k := by
      intro k
      rw [findOrder_modifyOrder, he, Option.map_some]
    refine (refreshes_refreshParentOf _ orderId).announces (fun _ => rfl) rfl he rfl ?_ ?_
    · rw [hfind, if_pos rfl]
    · intro k hk
      rw [hfind, if_neg hk]

theorem announces_markManagedParent (b : OrderBook) (parentId : InternalOrderId) :
    b.Announces ∅ (b.markManagedParent parentId) := by
  simp only [markManagedParent]
  split
  · refine announces_silently ?_ ?_
    · exact fun _ => rfl
    · rfl
  · refine announces_silently ?_ ?_
    · exact fun _ => rfl
    · rfl

/-- A mirror that changes nothing is silent, and rightly so. -/
theorem announces_syncManagedParentView (b : OrderBook) (parentId : InternalOrderId)
    (view : ManagedParentView) (parentState : OrderState) (now : TimestampNs) :
    b.Announces ∅ (b.syncManagedParentView parentId view parentState now) := by
  simp only [syncManagedParentView]
  -- Without the parent, or when it shows the view already, nothing is written.
  split
  · refine announces_silently ?_ ?_
    · exact fun _ => rfl
    · rfl
  next parent hparent =>
    split
    · refine announces_silently ?_ ?_
      · exact fun _ => rfl
      · rfl
    -- The parent is written once, as managed, and announced.
    · set mirrored : OrderEntry :=
        { parent with request := mirroredRequest parent.request view parentState, lastUpdateNs :=
          now }
        with hmirrored
      have hfind : ∀ k, (({ b with managedParentIds := insert parentId b.managedParentIds } :
          OrderBook).modifyOrder parentId fun _ => mirrored).findOrder k =
            if k = parentId then some mirrored else b.findOrder k := by
        intro k
        rw [findOrder_modifyOrder]
        refine if_congr Iff.rfl ?_ rfl
        exact (congrArg (Option.map _) hparent)
      refine ⟨fun note hmem => ?_, fun k e he => ?_, fun k e he => ?_⟩
      · rw [List.mem_singleton] at hmem
        exact ⟨parentId, by rw [hfind, if_pos rfl, hmem]⟩
      · rw [hfind] at he
        split at he
        next heq => exact ⟨parent, heq ▸ hparent, Option.some.inj he ▸ rfl⟩
        next => exact ⟨e, he, rfl⟩
      · rw [hfind] at he
        split at he
        · exact Or.inl ⟨.parentRefreshed, Option.some.inj he ▸ List.mem_cons_self⟩
        · exact Or.inr ⟨Set.notMem_empty k, he⟩

/-- The archive announces the order that it removes. -/
theorem findOrder_of_note_archiveOrder {orderId : InternalOrderId}
    {note : OrderEntry × BookEvent} (hmem : note ∈ (b.archiveOrder orderId).notes) :
    b.findOrder orderId = some note.1 := by
  simp only [archiveOrder] at hmem
  split at hmem
  · exact absurd hmem List.not_mem_nil
  next entry hentry =>
    rw [List.mem_singleton] at hmem
    rw [hmem]
    exact hentry

/-- An order that the book refuses is not announced. -/
theorem notes_addOrder_of_not_ok {entry : OrderEntry} {now : TimestampNs}
    (hok : (b.addOrder entry now).ok = false) : (b.addOrder entry now).notes = [] := by
  simp only [addOrder] at hok ⊢
  split at hok
  next h₁ => rw [if_pos h₁]
  next h₁ =>
    split at hok
    next h₂ => rw [if_neg h₁, if_pos h₂]
    next h₂ =>
      split at hok
      next h₃ => rw [if_neg h₁, if_neg h₂, if_pos h₃]
      next h₃ => exact absurd hok (by simp)

/-- The new order is announced, over the book that already holds it. -/
theorem announces_addOrder {entry : OrderEntry} {now : TimestampNs}
    (hok : (b.addOrder entry now).ok = true) :
    (b.stored entry now).Announces {entry.request.internalOrderId} (b.addOrder entry now) := by
  obtain ⟨h₁, h₂, h₃⟩ := (addOrder_ok_iff b entry now).1 hok
  have hself : (b.stored entry now).findOrder entry.request.internalOrderId =
      some (storedEntry entry now) := by
    simp only [findOrder, stored]
    rw [table_registerOrder, SlotTable.find?_insert h₂ h₃, if_pos rfl]
  have hquiet : ∀ b' : OrderBook, b'.Refreshes b' [] := fun _ => Or.inl ⟨fun _ => rfl, rfl⟩
  simp only [addOrder]
  rw [if_neg h₁, if_neg (by simp [h₂]), if_neg (by simpa using h₃)]
  split
  next =>
    split
    · exact (hquiet _).announces (fun _ => rfl) rfl hself rfl hself fun _ _ => rfl
    · exact (refreshes_refreshParentFromChildren _ _).announces (fun _ => rfl) rfl hself rfl hself
        fun _ _ => rfl
  next => exact (hquiet _).announces (fun _ => rfl) rfl hself rfl hself fun _ _ => rfl

end OrderBook

end AccountServices
