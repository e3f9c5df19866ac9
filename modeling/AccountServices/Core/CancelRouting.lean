import AccountServices.Order.BookStates
import AccountServices.Core.Invariant

/-!
# Cancels of clients

`handle_order_request` enters a cancel in the book under its id before it routes it, and
`route_cancel` enters its first cancel under the same id. The second entry is refused as a
duplicate, so the order without children is never cancelled, and of the children of a parent one is
always left out.
-/

set_option autoImplicit false

namespace AccountServices

open Foundation

/-! ## Orders to cancel -/

namespace OrderBook

variable {b : OrderBook} {orderId id : InternalOrderId}

/-- The order is live, new and not terminal. -/
def cancellable (b : OrderBook) (orderId : InternalOrderId) : Bool :=
  (b.findOrder orderId).any fun e => decide (e.request.orderType = .new) && !e.isTerminal

/-- The orders that a cancel of `origId` has to reach: the order itself, or its open children. -/
def cancelTargets (b : OrderBook) (origId : InternalOrderId) : List InternalOrderId :=
  if b.getChildren origId = [] then [origId] else (b.getChildren origId).filter b.cancellable

theorem cancellable_iff : b.cancellable orderId = true ↔
    ∃ e, b.findOrder orderId = some e ∧ e.request.orderType = .new ∧ e.isTerminal = false := by
  simp [cancellable, Option.any_eq_true]

theorem cancellable_congr {b' : OrderBook} (h : b'.findOrder id = b.findOrder id) :
    b'.cancellable id = b.cancellable id := by
  rw [cancellable, cancellable, h]

theorem not_cancellable_of_type {t : OrderTerms} (h : b.terms orderId = some t)
    (ht : t.orderType ≠ .new) : b.cancellable orderId = false := by
  rw [Bool.eq_false_iff, Ne, cancellable_iff]
  rintro ⟨e, he, hnew, -⟩
  rw [terms, he, Option.map_some, Option.some.injEq] at h
  exact ht ((congrArg OrderTerms.orderType h).symm.trans hnew)

/-- A cancel that is added opens no order but its parent. -/
theorem cancellable_addOrder {entry : OrderEntry} (htype : entry.request.orderType ≠ .new)
    (now : TimestampNs) (h : (b.addOrder entry now).book.cancellable id = true) :
    (entry.isSplitChild = true ∧ id = entry.parentOrderId) ∨ b.cancellable id = true := by
  cases hok : (b.addOrder entry now).ok with
  | false =>
      rw [addOrder_of_not_ok hok] at h
      exact Or.inr h
  | true =>
      by_cases hself : id = entry.request.internalOrderId
      · have hterms := terms_addOrder hok id
        rw [if_pos hself] at hterms
        exact absurd h (by rw [not_cancellable_of_type hterms htype]; simp)
      · by_cases hparent : entry.isSplitChild = true ∧ id = entry.parentOrderId
        · exact Or.inl hparent
        · rw [cancellable_congr (findOrder_addOrder_of_ne hself
            (fun hchild heq => absurd ⟨hchild, heq⟩ hparent) now)] at h
          exact Or.inr h

/-- The state of a cancel opens no order but its parent. -/
theorem cancellable_updateState {t : OrderTerms} (ht : b.terms orderId = some t)
    (htype : t.orderType ≠ .new) (state : OrderState) (now : TimestampNs)
    (h : (b.updateState orderId state now).book.cancellable id = true) :
    b.childToParent.lookup orderId = some id ∨ b.cancellable id = true := by
  by_cases hself : id = orderId
  · have hterms := (sameTerms_updateState b orderId state now).terms id
    rw [hself, ht] at hterms
    rw [hself] at h
    exact absurd h (by rw [not_cancellable_of_type hterms htype]; simp)
  · by_cases hparent : b.childToParent.lookup orderId = some id
    · exact Or.inl hparent
    · rw [cancellable_congr
        (findOrder_updateState_of_ne hself (fun heq => absurd heq hparent) state now)] at h
      exact Or.inr h

end OrderBook

/-! ## The queue to the gateway -/

/-- The indices that wait in the downstream queue. -/
def World.queued (w : World) : List OrderIndex := (w.downstream.map SpscQueue.toList).getD []

theorem World.queued_eq {w : World} {q : SpscQueue OrderIndex 18} (h : w.downstream = some q) :
    w.queued = q.toList := by
  rw [World.queued, h, Option.map_some, Option.getD_some]

/-- The world has at most `n` new indices in the queue. -/
def World.PushedAtMost (w : World) (n : Nat) (v : World) : Prop :=
  ∃ indices, v.queued = w.queued ++ indices ∧ indices.length ≤ n

theorem World.PushedAtMost.mono {w v : World} {n k : Nat} (h : w.PushedAtMost n v) (hle : n ≤ k) :
    w.PushedAtMost k v := by
  obtain ⟨indices, hqueue, hlen⟩ := h
  exact ⟨indices, hqueue, hlen.trans hle⟩

/-- A property of the world that does not look at the order pool or at the error log. -/
def PoolBlind (Inv : World → Prop) : Prop :=
  ∀ (w : World) shm errors, Inv w → Inv { w with ordersShm := shm, errors := errors }

namespace Service

open Program

section Preserves

variable {Inv : World → Prop} (hblind : PoolBlind Inv)

include hblind

theorem blind_onOrdersShm {α : Type} (label : Action) (fail : α) (f : OrdersShm → α × OrdersShm) :
    Preserves Inv (onOrdersShm label fail f) := by
  refine Preserves.atomic fun w h => ?_
  split
  next => exact h
  next shm _ => exact hblind w (some (f shm).2) w.errors h

theorem blind_updateStage (index : OrderIndex) (stage : OrderSlotState) (now : TimestampNs) :
    Preserves Inv (updateStage index stage now) :=
  Preserves.bind (blind_onOrdersShm hblind _ _ _) fun _ => Preserves.pure _

theorem blind_recordError (error : ErrorStatus) : Preserves Inv (recordError error) :=
  Preserves.modify fun w h => hblind w w.ordersShm _ h

theorem blind_createInternalOrderSlot (now : TimestampNs) (request : OrderRequest) :
    Preserves Inv (createInternalOrderSlot now request) := by
  refine Preserves.bind (blind_onOrdersShm hblind _ _ _) fun allocated => ?_
  cases allocated with
  | none => exact Preserves.pure _
  | some index => exact Preserves.bind (blind_onOrdersShm hblind _ _ _) fun _ => Preserves.pure _

theorem blind_onBook (now : TimestampNs) {op : OrderBook → BookOutcome} {w : World}
    (hop : Inv { w with book := (op w.book).book }) : Inv ((onBook now op).run w).2 := by
  obtain ⟨shm, errors, heq⟩ := w.applyBook_eq now op
  rw [run_onBook, heq]
  exact hblind { w with book := (op w.book).book } shm errors hop

/-- An order whose id is taken is not placed. -/
theorem blind_enterInternalOrder_taken (now : TimestampNs) (texts : PlaceTexts) {entry : OrderEntry}
    (htaken : ∀ w, Inv w → w.book.findOrder entry.request.internalOrderId ≠ none) :
    Preserves Inv (enterInternalOrder now texts entry) := by
  intro w h
  have hfail : (w.book.addOrder entry now).ok = false := by
    rw [Bool.eq_false_iff, Ne, OrderBook.addOrder_ok_iff]
    exact fun hok => htaken w h hok.2.1
  have hadd : Inv ((addOrder now entry).run w).2 := by
    refine blind_onBook hblind now ?_
    rw [OrderBook.addOrder_of_not_ok hfail]
    exact h
  have hok : ((addOrder now entry).run w).1 = false := by
    rw [addOrder, run_onBook]
    exact hfail
  rw [enterInternalOrder]
  rw [run_bind, hok]
  exact Preserves.bind (blind_updateStage hblind _ _ _) (fun _ =>
    Preserves.bind (blind_recordError hblind _) fun _ => Preserves.pure _) _ hadd

theorem blind_placeInternalOrder_taken (now : TimestampNs) (texts : PlaceTexts) {entry : OrderEntry}
    (htaken : ∀ w, Inv w → w.book.findOrder entry.request.internalOrderId ≠ none) :
    Preserves Inv (placeInternalOrder now texts entry) := by
  refine Preserves.bind
    (Preserves.ite (blind_createInternalOrderSlot hblind _ _) (Preserves.pure _)) fun slot => ?_
  cases slot with
  | none => exact Preserves.bind (blind_recordError hblind _) fun _ => Preserves.pure _
  | some index => exact blind_enterInternalOrder_taken hblind now texts htaken

end Preserves

theorem pushedAtMost_refl (w : World) (n : Nat) : w.PushedAtMost n w :=
  ⟨[], (List.append_nil _).symm, Nat.zero_le n⟩

theorem run_tryPush (index : OrderIndex) (w : World) :
    ((tryPush index).run w).2.book = w.book ∧ w.PushedAtMost 1 ((tryPush index).run w).2 := by
  simp only [tryPush, run_atomic]
  cases hq : w.downstream with
  | none => exact ⟨rfl, pushedAtMost_refl w 1⟩
  | some q =>
      refine ⟨rfl, ?_⟩
      cases hpush : (q.tryPush index).1 with
      | false =>
          refine ⟨[], (World.queued_eq rfl).trans ?_, Nat.zero_le 1⟩
          rw [SpscQueue.tryPush_of_false hpush, World.queued_eq hq, List.append_nil]
      | true =>
          refine ⟨[index], (World.queued_eq rfl).trans ?_, Nat.le_refl 1⟩
          rw [SpscQueue.toList_tryPush hpush, World.queued_eq hq]

/-- `send_to_downstream` adds at most its index to the queue and leaves the book alone. -/
theorem run_sendToDownstream (now : TimestampNs) (index : OrderIndex) (w : World) :
    ((sendToDownstream now index).run w).2.book = w.book ∧
      w.PushedAtMost 1 ((sendToDownstream now index).run w).2 := by
  have hblind : PoolBlind fun v => v.book = w.book ∧ w.PushedAtMost 1 v := fun _ _ _ h => h
  rw [sendToDownstream]
  rw [run_bind, run_read]
  split
  · rw [run_bind]
    exact Preserves.bind (blind_updateStage hblind _ _ _) (fun _ => Preserves.pure _)
      _ (run_tryPush index w)
  · exact Preserves.bind (blind_recordError hblind _) (fun _ => Preserves.pure _) w
      ⟨rfl, pushedAtMost_refl w 1⟩

theorem pushedAtMost_trans {w v u : World} {n k : Nat} (h : w.PushedAtMost n v)
    (h' : v.PushedAtMost k u) : w.PushedAtMost (n + k) u := by
  obtain ⟨indices, hqueue, hlen⟩ := h
  obtain ⟨indices', hqueue', hlen'⟩ := h'
  refine ⟨indices ++ indices', ?_, ?_⟩
  · rw [hqueue', hqueue, List.append_assoc]
  · rw [List.length_append]
    omega

end Service

/-! ## The fan-out of a cancel -/

/-- A fan-out on its way: at most `n` indices were pushed since `w`, no order was opened, and the id
of the cancel is taken. -/
structure World.Fanned (w : World) (cancelId : InternalOrderId) (n : Nat) (v : World) : Prop where
  pushed : w.PushedAtMost n v
  shrinks : ∀ id, v.book.cancellable id = true → w.book.cancellable id = true
  taken : v.book.findOrder cancelId ≠ none

namespace World.Fanned

variable {w v : World} {cancelId origId : InternalOrderId} {n : Nat}

theorem mono (h : w.Fanned cancelId n v) {k : Nat} (hle : n ≤ k) : w.Fanned cancelId k v :=
  ⟨h.pushed.mono hle, h.shrinks, h.taken⟩

theorem blind : PoolBlind (w.Fanned cancelId n) := fun _ _ _ h => ⟨h.pushed, h.shrinks, h.taken⟩

/-- Orders stay in the book. -/
theorem taken_of_sameTerms {b b' : OrderBook} (hterms : OrderBook.SameTerms b b')
    (htaken : b.findOrder cancelId ≠ none) : b'.findOrder cancelId ≠ none := by
  intro hnone
  have := hterms.terms cancelId
  rw [OrderBook.terms, OrderBook.terms, hnone, Option.map_none, eq_comm,
    Option.map_eq_none_iff] at this
  exact htaken this

theorem allocate (h : w.Fanned cancelId n v) :
    w.Fanned cancelId n (Service.allocateInternalOrderId.run v).2 := by
  obtain ⟨_, _, _, heq⟩ := v.allocateOrderId_eq
  rw [Service.allocateInternalOrderId, Program.run_atomic, heq]
  exact ⟨h.pushed, h.shrinks, h.taken⟩

/-- A cancel for a child of an open order. -/
theorem addCancel (h : w.Fanned cancelId n v) (horig : w.book.cancellable origId = true)
    {entry : OrderEntry} (htype : entry.request.orderType ≠ .new)
    (hparent : entry.parentOrderId = origId)
    (now : TimestampNs) : w.Fanned cancelId n ((Service.addOrder now entry).run v).2 := by
  refine Service.blind_onBook blind now ⟨h.pushed, fun id hid => ?_, ?_⟩
  · rcases OrderBook.cancellable_addOrder htype now hid with ⟨-, hself⟩ | hopen
    · rw [hself, hparent]
      exact horig
    · exact h.shrinks id hopen
  · intro hnone
    obtain ⟨e, he⟩ := Option.ne_none_iff_exists'.1 h.taken
    have hterms : v.book.terms cancelId = some e.terms := by
      rw [OrderBook.terms, he, Option.map_some]
    have hlive := OrderBook.terms_addOrder_of_live hterms entry now
    simp only at hnone
    rw [OrderBook.terms, hnone] at hlive
    exact absurd hlive (by simp)

/-- The state of a cancel for a child of an open order. -/
theorem updateCancel (h : w.Fanned cancelId n v) (horig : w.book.cancellable origId = true)
    {orderId : InternalOrderId} {t : OrderTerms} (ht : v.book.terms orderId = some t)
    (htype : t.orderType ≠ .new) (hlink : v.book.childToParent.lookup orderId = some origId)
    (state : OrderState) (now : TimestampNs) :
    w.Fanned cancelId n ((Service.updateState now orderId state).run v).2 := by
  refine Service.blind_onBook blind now ⟨h.pushed, fun id hid => ?_, ?_⟩
  · rcases OrderBook.cancellable_updateState ht htype state now hid with hparent | hopen
    · rw [← Option.some.inj (hlink.symm.trans hparent)]
      exact horig
    · exact h.shrinks id hopen
  · exact taken_of_sameTerms (OrderBook.sameTerms_updateState _ _ _ _) h.taken

/-- A cancel for a child of an open order adds at most one index. -/
theorem enterCancel (h : w.Fanned cancelId n v) (horig : w.book.cancellable origId = true)
    (hzero : origId ≠ 0) {entry : OrderEntry} (htype : entry.request.orderType ≠ .new)
    (hchild : entry.isSplitChild = true) (hparent : entry.parentOrderId = origId)
    (now : TimestampNs)
    (texts : Service.PlaceTexts) :
    w.Fanned cancelId (n + 1) ((Service.enterInternalOrder now texts entry).run v).2 := by
  have hadded := h.addCancel horig htype hparent now
  have hrun : (Service.addOrder now entry).run v =
      ((v.book.addOrder entry now).ok, ((Service.addOrder now entry).run v).2) := by
    rw [Service.addOrder, Service.run_onBook]
  have hbook : ((Service.addOrder now entry).run v).2.book = (v.book.addOrder entry now).book := by
    rw [Service.addOrder, Service.run_onBook, World.book_applyBook]
  rw [Service.enterInternalOrder]
  rw [Program.run_bind, hrun]
  generalize ((Service.addOrder now entry).run v).2 = v₂ at hadded hbook ⊢
  cases hok : (v.book.addOrder entry now).ok with
  | false =>
      exact (Program.Preserves.bind (Service.blind_updateStage blind _ _ _) (fun _ =>
        Program.Preserves.bind (Service.blind_recordError blind _) fun _ =>
          Program.Preserves.pure _) _ hadded).mono (Nat.le_succ n)
  | true =>
      simp only [if_true]
      rw [Program.run_bind]
      obtain ⟨hsame, hpush⟩ := Service.run_sendToDownstream now entry.shmOrderIndex v₂
      generalize (Service.sendToDownstream now entry.shmOrderIndex).run v₂ = sent at hsame hpush ⊢
      obtain ⟨ok, v₃⟩ := sent
      simp only at hsame hpush ⊢
      have hsent : w.Fanned cancelId (n + 1) v₃ := by
        refine ⟨Service.pushedAtMost_trans hadded.pushed hpush, ?_, ?_⟩
        · rw [hsame]
          exact hadded.shrinks
        · rw [hsame]
          exact hadded.taken
      -- The cancel has its terms and is linked, so its state touches the parent only.
      have hterms : v₃.book.terms entry.request.internalOrderId = some entry.terms := by
        rw [hsame, hbook, OrderBook.terms_addOrder hok, if_pos rfl]
      have hlink : v₃.book.childToParent.lookup entry.request.internalOrderId = some origId := by
        have hlinks := OrderBook.links_addOrder_child hok hchild (by rw [hparent]; exact hzero)
        rw [hsame, hbook, show (v.book.addOrder entry now).book.childToParent = _ from
          congrArg Prod.fst hlinks, Map.lookup_insert_eq, if_pos rfl, hparent]
      have hstate := fun state => hsent.updateCancel horig hterms htype hlink state now
      cases ok with
      | true =>
          rw [if_pos rfl, Program.run_bind]
          exact hstate .traderSubmitted
      | false =>
          rw [if_neg Bool.false_ne_true, Program.run_bind]
          exact Program.Preserves.bind (Service.blind_recordError blind _)
            (fun _ => Program.Preserves.pure _) _ (hstate .traderError)

theorem placeCancel (h : w.Fanned cancelId n v) (horig : w.book.cancellable origId = true)
    (hzero : origId ≠ 0) {entry : OrderEntry} (htype : entry.request.orderType ≠ .new)
    (hchild : entry.isSplitChild = true) (hparent : entry.parentOrderId = origId)
    (now : TimestampNs)
    (texts : Service.PlaceTexts) :
    w.Fanned cancelId (n + 1) ((Service.placeInternalOrder now texts entry).run v).2 := by
  have hslot : Program.Preserves (w.Fanned cancelId n)
      (if entry.shmOrderIndex = kInvalidOrderIndex then
        Service.createInternalOrderSlot now entry.request
        else pure (some entry.shmOrderIndex) : Service (Option OrderIndex)) :=
    Program.Preserves.ite (Service.blind_createInternalOrderSlot blind _ _)
      (Program.Preserves.pure _)
  change Program.Ensures (Service.placeInternalOrder now texts entry) v
    fun _ u => w.Fanned cancelId (n + 1) u
  refine Program.Ensures.bind ((hslot.ensures h).mono fun slot v₁ hv₁ => ?_)
  cases slot with
  | none =>
      exact (Program.Preserves.bind (Service.blind_recordError blind _)
        (fun _ => Program.Preserves.pure _) _ hv₁).mono (Nat.le_succ n)
  | some index =>
      have htype' : ({ entry with shmOrderIndex := index } : OrderEntry).request.orderType ≠ .new :=
        htype
      exact hv₁.enterCancel horig hzero htype' hchild hparent now texts

end World.Fanned

namespace Service

open Program

/-- One turn of the loop. The first cancel takes the id that is already in the book and is refused;
every other one adds at most one index. -/
theorem fanned_cancelChild {w v : World} {cancelId origId : InternalOrderId} {n : Nat}
    (h : w.Fanned cancelId n v) (horig : w.book.cancellable origId = true) (hzero : origId ≠ 0)
    (now : TimestampNs) (time : MdTime) (acc : FanOut) (childId : InternalOrderId) :
    (((cancelChild now origId cancelId time acc childId).run v).1.usedCancelId = acc.usedCancelId ∧
        w.Fanned cancelId n ((cancelChild now origId cancelId time acc childId).run v).2) ∨
      (w.book.cancellable childId = true ∧
        ((cancelChild now origId cancelId time acc childId).run v).1.usedCancelId = true ∧
        w.Fanned cancelId (if acc.usedCancelId then n + 1 else n)
          ((cancelChild now origId cancelId time acc childId).run v).2) := by
  rw [cancelChild]
  rw [run_bind, run_findOrder]
  cases hfind : v.book.findOrder childId with
  | none => exact Or.inl ⟨rfl, h⟩
  | some child =>
      simp only
      by_cases hskip : child.request.orderType ≠ .new ∨ child.isTerminal = true
      · rw [if_pos hskip]
        exact Or.inl ⟨rfl, h⟩
      · rw [if_neg hskip]
        -- What is not skipped is a live new order, as it was before the fan-out.
        have hopen : v.book.cancellable childId = true := by
          rw [OrderBook.cancellable_iff]
          refine ⟨child, hfind, ?_, ?_⟩
          · exact Classical.byContradiction fun hne => hskip (Or.inl hne)
          · rw [Bool.eq_false_iff]
            exact fun hterminal => hskip (Or.inr hterminal)
        refine Or.inr ⟨h.shrinks childId hopen, ?_, ?_⟩
        · rw [run_bind, run_bind]
          rfl
        -- The first child gets the id of the client's cancel, which is already in the book; the
        -- others draw theirs.
        · cases hused : acc.usedCancelId with
          | false =>
              simp only [Bool.false_eq_true, if_false, run_bind, run_pure]
              have hblind : PoolBlind (w.Fanned cancelId n) := World.Fanned.blind
              exact blind_placeInternalOrder_taken hblind now _ (fun u hu => hu.taken) v h
          | true =>
              simp only [if_true, run_bind, run_pure]
              exact h.allocate.placeCancel horig hzero
                (by simp [cancelRequest, OrderRequest.initCancel]) rfl rfl now _

/-- The loop: one of the open children is left out. -/
theorem fanned_cancelChildren {w : World} {cancelId origId : InternalOrderId}
    (horig : w.book.cancellable origId = true) (hzero : origId ≠ 0) (now : TimestampNs)
    (time : MdTime) (children : List InternalOrderId) {v : World} {n : Nat} (acc : FanOut)
    (h : w.Fanned cancelId n v) :
    w.Fanned cancelId
      (n + ((children.filter w.book.cancellable).length - if acc.usedCancelId then 0 else 1))
      ((cancelChildren now origId cancelId time acc children).run v).2 := by
  induction children generalizing v n acc with
  | nil => exact h.mono (Nat.le_add_right n _)
  | cons childId rest ih =>
      rw [cancelChildren]
      rw [run_bind]
      rcases fanned_cancelChild h horig hzero now time acc childId with
        ⟨hsame, hnext⟩ | ⟨hopen, hused, hnext⟩
      · refine (ih _ hnext).mono ?_
        have hle : (rest.filter w.book.cancellable).length ≤
            ((childId :: rest).filter w.book.cancellable).length :=
          ((List.sublist_cons_self childId rest).filter _).length_le
        rw [hsame]
        omega
      · refine (ih _ hnext).mono ?_
        rw [hused, List.filter_cons, if_pos hopen, List.length_cons]
        cases acc.usedCancelId with
        | false =>
            simp only [Bool.false_eq_true, if_false, if_true]
            omega
        | true =>
            simp only [if_true]
            omega

end Service

/-! ## The request of a client -/

namespace Service

open Program

variable {w v : World} {n : Nat}

theorem blind_pushedAtMost (w : World) (n : Nat) : PoolBlind (w.PushedAtMost n) := fun _ _ _ h => h

theorem pushedAtMost_onBook (w : World) (n : Nat) (now : TimestampNs)
    (op : OrderBook → BookOutcome) : Preserves (w.PushedAtMost n) (onBook now op) :=
  fun _ h => blind_onBook (blind_pushedAtMost w n) now h

theorem pushedAtMost_release (w : World) (n : Nat) (orderId : InternalOrderId) :
    Preserves (w.PushedAtMost n) (releaseOrderResources orderId) := by
  intro v h
  rw [run_release]
  rw [World.release]
  split
  · exact h
  · exact h

/-- `route_cancel` under an id that is taken leaves one of the orders out. -/
theorem pushedAtMost_routeCancel {origId cancelId : InternalOrderId} (h : w.Fanned cancelId 0 v)
    (horig : w.book.cancellable origId = true) (hzero : origId ≠ 0)
    (hchildren : v.book.getChildren origId = w.book.getChildren origId)
    (now : TimestampNs) (time : MdTime) :
    w.PushedAtMost ((w.book.cancelTargets origId).length - 1)
      ((routeCancel now origId cancelId time).run v).2 := by
  have hblind : PoolBlind (w.Fanned cancelId 0) := World.Fanned.blind
  rw [routeCancel, OrderBook.cancelTargets]
  rw [run_bind, run_read, hchildren]
  cases hlist : w.book.getChildren origId with
  | nil =>
      exact (Preserves.bind (blind_placeInternalOrder_taken hblind now _ fun u hu => hu.taken)
        (fun placed => Preserves.pure _) v h).pushed
  | cons childId rest =>
      simp only [List.isEmpty_cons, Bool.false_eq_true, if_false, reduceCtorEq]
      have hloop := (fanned_cancelChildren horig hzero now time (childId :: rest) {} h).pushed
      rw [Nat.zero_add] at hloop
      rw [run_bind]
      refine Preserves.ite ?_ (Preserves.pure _) _ hloop
      exact Preserves.bind (pushedAtMost_onBook w _ now _) fun _ => Preserves.pure _

/-- The route of a cancel that is in the book. -/
theorem pushedAtMost_routeNewOrder {active : OrderEntry}
    (htype : active.request.orderType = .cancel) (h : w.Fanned active.request.internalOrderId 0 v)
    (horig : w.book.cancellable active.request.origInternalOrderId = true)
    (hzero : active.request.origInternalOrderId ≠ 0)
    (hchildren : v.book.getChildren active.request.origInternalOrderId =
      w.book.getChildren active.request.origInternalOrderId) (env : Env) (index : OrderIndex) :
    w.PushedAtMost ((w.book.cancelTargets active.request.origInternalOrderId).length - 1)
      ((routeNewOrder env index active).run v).2 := by
  have hreserve : (reserveOrderResources active).run v = (true, v) := by
    unfold reserveOrderResources
    rw [if_pos (by simp [OrderRequest.reserves, htype])]
    rfl
  have hroute :=
    pushedAtMost_routeCancel h horig hzero hchildren env.nowNs active.request.mdTimeDriven
  unfold routeNewOrder
  simp only
  rw [run_bind, hreserve]
  simp only [if_true]
  unfold routeOrder
  rw [if_pos htype, run_bind]
  refine Preserves.ite (Preserves.pure _) ?_ _ hroute
  exact Preserves.bind (pushedAtMost_release w _ _) fun _ =>
    Preserves.bind (pushedAtMost_onBook w _ _ _) fun _ =>
      Preserves.bind (blind_updateStage (blind_pushedAtMost w _) _ _ _) fun _ =>
        blind_recordError (blind_pushedAtMost w _) _

end Service

namespace OrderBook

variable {b : OrderBook} {entry : OrderEntry} {now : TimestampNs}

/-- The cancel that a client request enters: it has no parent, and its states touch no other
order. -/
structure EnteredCancel (b : OrderBook) (entry : OrderEntry) (b' : OrderBook) : Prop where
  terms : b'.terms entry.request.internalOrderId = some entry.terms
  links : b'.links = b.links
  shrinks : ∀ id, b'.cancellable id = true → b.cancellable id = true

theorem enteredCancel_addOrder (hok : (b.addOrder entry now).ok = true)
    (htype : entry.request.orderType ≠ .new) (hplain : entry.isSplitChild = false) :
    b.EnteredCancel entry (b.addOrder entry now).book where
  terms := by rw [terms_addOrder hok, if_pos rfl]
  links := links_addOrder_plain b now hplain
  shrinks id hid := by
    rcases cancellable_addOrder htype now hid with ⟨hchild, -⟩ | hopen
    · rw [hplain] at hchild
      exact absurd hchild (by simp)
    · exact hopen

theorem EnteredCancel.updateState {b' : OrderBook} (h : b.EnteredCancel entry b')
    (htype : entry.request.orderType ≠ .new)
    (hfree : b.childToParent.lookup entry.request.internalOrderId = none) (state : OrderState) :
    b.EnteredCancel entry (b'.updateState entry.request.internalOrderId state now).book where
  terms := ((sameTerms_updateState b' _ state now).terms _).trans h.terms
  links := (links_updateState b' _ state now).trans h.links
  shrinks id hid := by
    rcases cancellable_updateState h.terms htype state now hid with hparent | hopen
    · rw [show b'.childToParent = b.childToParent from congrArg Prod.fst h.links, hfree] at hparent
      exact absurd hparent (by simp)
    · exact h.shrinks id hopen

end OrderBook

namespace Service

open Program

variable {w : World} {request : OrderRequest}

/-- A cancel in the book is dispatched to the router. -/
theorem pushedAtMost_dispatchOrder {v : World} (htype : request.orderType = .cancel) {cfg : Config}
    {env : Env} {index : OrderIndex} (hpush : w.PushedAtMost 0 v)
    (hentered : w.book.EnteredCancel (requestEntry env index request) v.book)
    (horig : w.book.cancellable request.origInternalOrderId = true)
    (hzero : request.origInternalOrderId ≠ 0) :
    w.PushedAtMost ((w.book.cancelTargets request.origInternalOrderId).length - 1)
      ((dispatchOrder cfg env index request.internalOrderId).run v).2 := by
  obtain ⟨active, hactive, hterms⟩ := Option.map_eq_some_iff.1 hentered.terms
  have hid : active.request.internalOrderId = request.internalOrderId :=
    congrArg OrderTerms.internalOrderId hterms
  have horigId : active.request.origInternalOrderId = request.origInternalOrderId :=
    congrArg OrderTerms.origInternalOrderId hterms
  have hcancel : active.request.orderType = .cancel :=
    (congrArg OrderTerms.orderType hterms).trans htype
  have hmanage : ¬ (cfg.hasExecutionEngine = true ∧ shouldManage cfg active.request = true) := by
    simp [shouldManage, hcancel]
  have hfanned : w.Fanned active.request.internalOrderId 0 v := by
    refine ⟨hpush, hentered.shrinks, ?_⟩
    rw [hid]
    exact fun hnone => absurd (hactive.symm.trans hnone) (by simp)
  rw [dispatchOrder]
  rw [run_bind, run_findOrder, show v.book.findOrder request.internalOrderId =
    some active from hactive]
  simp only
  rw [if_neg hmanage, ← horigId]
  refine pushedAtMost_routeNewOrder hcancel hfanned ?_ ?_ ?_ env index
  · rw [horigId]
    exact horig
  · rw [horigId]
    exact hzero
  · rw [OrderBook.getChildren, OrderBook.getChildren,
      show v.book.parentToChildren = w.book.parentToChildren from congrArg Prod.snd hentered.links]

/-- A client's cancel of an open order leaves one of the orders out that it has to reach. -/
theorem pushedAtMost_handleOrderRequest (htype : request.orderType = .cancel)
    (hid : request.internalOrderId ≠ 0)
    (hfree : w.book.childToParent.lookup request.internalOrderId = none)
    (horig : w.book.cancellable request.origInternalOrderId = true)
    (hzero : request.origInternalOrderId ≠ 0) (cfg : Config) (env : Env) (index : OrderIndex) :
    w.PushedAtMost ((w.book.cancelTargets request.origInternalOrderId).length - 1)
      ((handleOrderRequest cfg env index request).run w).2 := by
  -- A cancel with an id needs no key, no estimate and no risk check.
  have hnew : request.orderType ≠ .new := by simp [htype]
  have hkey : ¬ request.lacksKey = true := by simp [OrderRequest.lacksKey, htype]
  have hprepare : prepareOrderEstimate cfg request = request := if_pos (Or.inl hnew)
  have hassign : (assignOrderId env index request).run w = (request, w) := by
    rw [assignOrderId]
    rw [if_neg hid]
    rfl
  have hrisk : passesRisk env request = pure true := if_neg hnew
  rw [handleOrderRequest]
  rw [if_neg hkey]
  rw [admitOrder]
  rw [run_bind, hassign]
  simp only [hprepare, hrisk]
  rw [run_bind]
  have hadded :=
    pushedAtMost_onBook w 0 env.nowNs
    (fun b => b.addOrder (requestEntry env index request) env.nowNs)
    w (pushedAtMost_refl w 0)
  -- Only the dispatch pushes, and it finds the cancel in the book.
  cases hok : (w.book.addOrder (requestEntry env index request) env.nowNs).ok with
  | false =>
      rw [addOrder, run_onBook, hok] at *
      exact (Preserves.bind (blind_updateStage (blind_pushedAtMost w 0) _ _ _)
        (fun _ => blind_recordError (blind_pushedAtMost w 0) _) _ hadded).mono (Nat.zero_le _)
  | true =>
      have hentered := OrderBook.enteredCancel_addOrder hok hnew rfl
      rw [addOrder, run_onBook, hok] at *
      simp only [if_true, run_bind, run_pure]
      refine pushedAtMost_dispatchOrder htype ?_ ?_ horig hzero
      · exact pushedAtMost_onBook w 0 _ _ _ (pushedAtMost_onBook w 0 _ _ _ hadded)
      · simp only [updateState, run_onBook, World.book_applyBook]
        exact (hentered.updateState hnew hfree _).updateState hnew hfree _

end Service

/-- The slot holds a cancel of the order. -/
def World.HoldsCancel (w : World) (index : OrderIndex) (orderId : InternalOrderId) : Prop :=
  ∃ shm, w.ordersShm = some shm ∧ (shm.slots index).request.orderType = .cancel ∧
    (shm.slots index).request.origInternalOrderId = orderId

/-- A cancel reaches the gateway: one index was pushed for every order that it has to reach, the
slots hold cancels of these orders, and the cancel of an order without children ends as
submitted. -/
def World.DeliversCancel (w : World) (request : OrderRequest) (v : World) : Prop :=
  (∃ indices targets, v.queued = w.queued ++ indices ∧
      targets.Perm (w.book.cancelTargets request.origInternalOrderId) ∧
      List.Forall₂ v.HoldsCancel indices targets) ∧
    (w.book.getChildren request.origInternalOrderId = [] →
      v.book.stateOf request.internalOrderId = some .traderSubmitted)

/-- A client's cancel of an open order reaches the gateway exactly when nothing is to be sent: the
order has children, and none of them is open. -/
theorem delivers_cancel_iff {cfg : Config} {w : World} (hreach : w.Reachable cfg) (env : Env)
    (index : OrderIndex) {request : OrderRequest} (htype : request.orderType = .cancel)
    (hid : request.internalOrderId ≠ 0) (hfree : w.book.tryGetParent request.internalOrderId = none)
    (horig : w.book.cancellable request.origInternalOrderId = true) :
    w.DeliversCancel request (w.step cfg (env, .orderRequest index request)) ↔
      w.book.getChildren request.origInternalOrderId ≠ [] ∧
        ∀ childId ∈ w.book.getChildren request.origInternalOrderId,
          w.book.cancellable childId = false := by
  have hzero : request.origInternalOrderId ≠ 0 := by
    intro hzero
    obtain ⟨e, he, -⟩ := OrderBook.cancellable_iff.1 horig
    have hfirst := hreach.indexed.zero
    rw [OrderBook.terms, ← hzero, he] at hfirst
    exact absurd hfirst (by simp)
  obtain ⟨pushed, hqueue, hlen⟩ :
      w.PushedAtMost _ (w.step cfg (env, .orderRequest index request)) :=
    Service.pushedAtMost_handleOrderRequest htype hid hfree horig hzero cfg env index
  have htargets : w.book.cancelTargets request.origInternalOrderId = [] ↔
      w.book.getChildren request.origInternalOrderId ≠ [] ∧
        ∀ childId ∈ w.book.getChildren request.origInternalOrderId,
          w.book.cancellable childId = false := by
    rw [OrderBook.cancelTargets]
    split
    next hnil => simp [hnil]
    next hne => simp [hne, List.filter_eq_nil_iff]
  rw [← htargets]
  constructor
  · -- One index for every target is one more than the handler pushes, unless there is no target.
    rintro ⟨⟨indices, targets, happend, hperm, hholds⟩, -⟩
    have hsame : indices = pushed := List.append_cancel_left (happend.symm.trans hqueue)
    have hcount := hholds.length_eq
    rw [hperm.length_eq, hsame] at hcount
    rw [← List.length_eq_zero_iff]
    omega
  · intro hnil
    rw [hnil, List.length_nil, Nat.le_zero, List.length_eq_zero_iff] at hlen
    refine ⟨⟨[], [], ?_, ?_, List.Forall₂.nil⟩, fun hchildless => ?_⟩
    · rw [hqueue, hlen]
    · rw [hnil]
    · exact absurd hchildless (htargets.1 hnil).1

/-- A service that executes orders in clips of 100 shares, at the price of the order when there is
no market data. -/
def clipConfig : Config :=
  { hasExecutionEngine := true
    splitConfig := { strategy := .fixedSize, maxChildVolume := 100 }
    hasMarketDataService := true
    allowOrderPriceFallback := true }

/-- A parent order of 250 shares. -/
def clipParent : OrderRequest :=
  { OrderRequest.ofClient 7 .buy 250 10 with passiveExecutionAlgo := .fixedSize }

/-- The parent order when its first clip is filled and the next one is not yet submitted. -/
def betweenClips : World :=
  (World.start { totalAsset := 10000, available := 10000 } {}
    (OrdersShm.ofClients [clipParent])).run clipConfig
    [({}, .orderRequest 0 clipParent),
      ({}, .tradeResponse
        { internalOrderId := 1, tradeSide := .buy, newState := .finished, volumeTraded := 100
          dpriceTraded := 10, dvalueTraded := 1000 })]

/-- Between two clips there is nothing to send, and nothing is sent. -/
theorem delivers_cancel_between_clips :
    betweenClips.DeliversCancel (.ofCancel 7)
      (betweenClips.step clipConfig ({}, .orderRequest 1 (.ofCancel 7))) := by
  have hreach : betweenClips.Reachable clipConfig := (World.reachable_start _ _ _ _).run _
  have hchildren : betweenClips.book.getChildren
      (OrderRequest.ofCancel 7).origInternalOrderId = [1] := by
    decide
  refine (delivers_cancel_iff hreach {} 1 rfl (by decide) (by decide) (by decide)).2 ?_
  rw [hchildren]
  refine ⟨by simp, fun childId hmem => ?_⟩
  rw [List.mem_singleton.1 hmem]
  decide

/-- The cancel of a working order without children: there are slots in the pool and in the book and
room in the queue, and no index is pushed. -/
theorem cancel_of_working_order_not_delivered :
    workingBuy.Reachable {} ∧ workingBuy.book.findOrder 9 = none ∧
      workingBuy.book.cancellable 7 = true ∧
      workingBuy.book.getChildren 7 = [] ∧ workingBuy.book.activeCount = 1 ∧
        workingBuy.queued = [0] ∧
      (workingBuy.ordersShm.any fun shm => decide (shm.nextIndex = 4 ∧ shm.capacity = 8)) = true ∧
      (workingBuy.step {} ({}, .orderRequest 1 (.ofCancel 7))).queued = [0] ∧
      ¬ workingBuy.DeliversCancel (.ofCancel 7)
        (workingBuy.step {} ({}, .orderRequest 1 (.ofCancel 7))) := by
  refine ⟨workingBuy_reachable, by decide, by decide, by decide, by decide, by decide, by decide,
    by decide, ?_⟩
  rintro ⟨-, hstate⟩
  have hchildless : workingBuy.book.getChildren 7 = [] := by decide
  exact absurd (hstate hchildless) (by decide)

end AccountServices
