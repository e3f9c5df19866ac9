import AccountServices.Core.Admission
import AccountServices.Core.SlotMirror

/-!
# The fan-out of a cancel

`route_cancel` for a parent with registered children: one cancel for every child that is live, new
and not terminal, the first of them under the id of the cancel itself. A turn of the loop that fails
leaves the others alone. While the pool mirrors the book, each index that is pushed is that of a
slot with one of the cancels. The registered children are a list that `archive_order` does not
shorten, so a child whose id was used twice is cancelled twice.
-/

set_option autoImplicit false

namespace AccountServices

open Foundation

/-! ## Placing one order -/

/-- The router can place an order under this id. -/
def World.CanPlace (w : World) (orderId : InternalOrderId) : Prop :=
  HasRoom w.ordersShm w.downstream ∧ orderId ≠ 0 ∧ w.book.findOrder orderId = none ∧
    w.book.table.free ≠ []

/-- The order was placed: it is in the book as submitted, and the index of its slot is in the
queue. -/
structure World.Sent (now : TimestampNs) (w : World) (entry : OrderEntry) (u : World) : Prop where
  hasSlot : entry.HasSlot
  ok : (w.book.addOrder entry now).ok = true
  book : u.book =
    ((w.book.addOrder entry now).book.updateState entry.request.internalOrderId
      .traderSubmitted now).book
  queued : u.queued = w.queued ++ [entry.shmOrderIndex]

/-- The order was not placed: the queue is as it was, and so is the book, unless the order stays in
it in error. -/
structure World.NotSent (now : TimestampNs) (w : World) (entry : OrderEntry) (u : World) :
    Prop where
  queued : u.queued = w.queued
  book : u.book = w.book ∨
    ∃ index, (w.book.addOrder { entry with shmOrderIndex := index } now).ok = true ∧
    u.book = ((w.book.addOrder { entry with shmOrderIndex := index } now).book.updateState
      entry.request.internalOrderId .traderError now).book

namespace Service

open Program

/-- A slot is handed out if and only if the pool has one left. -/
theorem run_createInternalOrderSlot (now : TimestampNs) (request : OrderRequest) (w : World) :
    w.Beside ((createInternalOrderSlot now request).run w).2 ∧
      ((createInternalOrderSlot now request).run w).2.book = w.book ∧
      (((createInternalOrderSlot now request).run w).1.isSome = true ↔
        ∃ shm, w.ordersShm = some shm ∧ shm.nextIndex < shm.capacity) ∧
      ∀ index, ((createInternalOrderSlot now request).run w).1 = some index →
        index ≠ kInvalidOrderIndex := by
  have hblind : PoolBlind fun v => v.book = w.book := fun _ _ _ h => h
  have hbook := blind_createInternalOrderSlot hblind now request w rfl
  cases hshm : w.ordersShm with
  -- Without a pool there is no slot.
  | none =>
      have hrun : (createInternalOrderSlot now request).run w = (none, w) := by
        simp [createInternalOrderSlot, onOrdersShm, run_bind, hshm]
      rw [hrun]
      exact ⟨World.Beside.refl w, rfl, by simp, fun index h => absurd h (by simp)⟩
  | some shm =>
      -- The allocator is the only one that fails: a slot that it has just handed out can be
      -- written.
      by_cases hroom : shm.nextIndex < shm.capacity
      · obtain ⟨hallocate, hexists⟩ := OrdersShm.indexExists_tryAllocate hroom
        have hvalid : shm.nextIndex ≠ kInvalidOrderIndex := (of_decide_eq_true hexists).1
        have hrun : ((createInternalOrderSlot now request).run w).1 = some shm.nextIndex ∧
            w.Beside ((createInternalOrderSlot now request).run w).2 := by
          simp only [createInternalOrderSlot, run_bind]
          have hfirst : (onOrdersShm .allocateSlot none fun shm => shm.tryAllocate).run w =
              (some shm.nextIndex, { w with ordersShm := some shm.tryAllocate.2 }) := by
            simp only [onOrdersShm, run_atomic, hshm, hallocate]
          rw [hfirst]
          simp only [run_bind, run_pure]
          have hbeside : w.Beside { w with ordersShm := some shm.tryAllocate.2 } := by
            refine ⟨rfl, rfl, ?_⟩
            rw [hshm]
            rfl
          refine ⟨?_, hbeside.onOrdersShm _ _ _⟩
          rw [if_pos]
          simp only [writeOrder, onOrdersShm, run_atomic, OrdersShm.writeOrder,
            OrdersShm.mutateSlot]
          rw [if_pos hexists]
        refine ⟨hrun.2, hbook, ?_, ?_⟩
        · rw [hrun.1]
          exact ⟨fun _ => ⟨shm, rfl, hroom⟩, fun _ => rfl⟩
        · intro index hindex
          rw [hrun.1, Option.some.injEq] at hindex
          exact hindex ▸ hvalid
      -- The pool is exhausted.
      · have hallocate : shm.tryAllocate = (none, shm) := dif_neg hroom
        have hrun : (createInternalOrderSlot now request).run w =
            (none, { w with ordersShm := some shm }) := by
          simp only [createInternalOrderSlot, onOrdersShm, run_bind, run_atomic, hshm,
            hallocate, run_pure]
        rw [hrun]
        refine ⟨⟨rfl, rfl, by rw [hshm]⟩, rfl, ?_, fun index h => absurd h (by simp)⟩
        constructor
        · exact fun h => Bool.noConfusion h
        · rintro ⟨shm', heq, hroom'⟩
          rw [Option.some.injEq] at heq
          exact absurd (heq ▸ hroom') hroom

/-- An order of the service is placed if and only if the router can place it. -/
theorem run_placeInternalOrder (now : TimestampNs) (texts : PlaceTexts) {entry : OrderEntry}
    (hslot : entry.shmOrderIndex = kInvalidOrderIndex) (w : World) :
    (w.CanPlace entry.request.internalOrderId →
      ((placeInternalOrder now texts entry).run w).1.1 = true ∧
        ∃ index, w.Sent now { entry with shmOrderIndex := index }
          ((placeInternalOrder now texts entry).run w).2) ∧
      (¬ w.CanPlace entry.request.internalOrderId →
        ((placeInternalOrder now texts entry).run w).1.1 = false ∧
          w.NotSent now entry ((placeInternalOrder now texts entry).run w).2) := by
  obtain ⟨hbeside, hbook, hsome, hvalid⟩ := run_createInternalOrderSlot now entry.request w
  simp only [placeInternalOrder, if_pos hslot, run_bind]
  generalize (createInternalOrderSlot now entry.request).run w = created at *
  obtain ⟨slot, v⟩ := created
  simp only at hbeside hbook hsome hvalid ⊢
  cases slot with
  | none =>
      -- the pool is full
      simp only [run_bind, run_pure]
      refine ⟨fun hcan => ?_, fun _ => ⟨trivial, hbeside.queued, Or.inl hbook⟩⟩
      exact absurd (hsome.2 hcan.1.1) (by simp)
  | some index =>
      have hpool := hsome.1 rfl
      simp only [enterInternalOrder, addOrder, run_bind, run_onBook]
      set placed : OrderEntry := { entry with shmOrderIndex := index } with hplaced
      have hadded : w.Beside (v.applyBook now fun b => b.addOrder placed now) :=
        hbeside.applyBook now _
      have hnext : (v.applyBook now fun b => b.addOrder placed now).book =
          (w.book.addOrder placed now).book := by
        rw [World.book_applyBook, hbook]
      rw [hbook]
      generalize v.applyBook now (fun b => b.addOrder placed now) = v₁ at hadded hnext ⊢
      have hokIff := OrderBook.addOrder_ok_iff w.book placed now
      cases hok : (w.book.addOrder placed now).ok with
      | false =>
          -- the id is taken, or the book is full
          simp only [Bool.false_eq_true, if_false, run_bind, run_pure]
          refine ⟨fun hcan => ?_, fun _ => ⟨trivial, ?_, Or.inl ?_⟩⟩
          · rw [hok] at hokIff
            exact absurd (hokIff.2 ⟨hcan.2.1, hcan.2.2.1, hcan.2.2.2⟩) Bool.false_ne_true
          · exact ((hadded.updateStage index .queuePushFailed now).recordError _).queued
          · have hkept : ((updateStage index .queuePushFailed now).run v₁).2.book = w.book := by
              rw [book_updateStage, hnext, OrderBook.addOrder_of_not_ok hok]
            exact hkept
      | true =>
          obtain ⟨hne, hfree, hroom⟩ := hokIff.1 hok
          obtain ⟨hsends, hbookSent, -, hqueued⟩ := sent_sendToDownstream hadded now index
          simp only [if_true, run_bind]
          generalize (sendToDownstream now index).run v₁ = sentOut at hsends hbookSent hqueued ⊢
          obtain ⟨sent, v₂⟩ := sentOut
          simp only at hsends hbookSent hqueued ⊢
          have hcanIff : sent = true ↔ w.CanPlace entry.request.internalOrderId := by
            rw [hsends (hvalid index rfl)]
            constructor
            · rintro ⟨-, -, q, hq, hpush⟩
              exact ⟨⟨hpool, q, hq, (SpscQueue.tryPush_true_iff q index).1 hpush⟩, hne,
                hfree, hroom⟩
            · rintro ⟨⟨-, q, hq, hcell⟩, -⟩
              obtain ⟨shm, hshm, -⟩ := hpool
              exact ⟨hvalid index rfl, by rw [hshm]; rfl, q, hq,
                (SpscQueue.tryPush_true_iff q index).2 hcell⟩
          have hstate :
              ∀ state, (v₂.applyBook now fun b => b.updateState placed.request.internalOrderId state
              now).book = ((w.book.addOrder placed now).book.updateState
                placed.request.internalOrderId state now).book := by
            intro state
            rw [World.book_applyBook, hbookSent, hnext]
          have hstateQueued :
              ∀ state, (v₂.applyBook now fun b => b.updateState placed.request.internalOrderId
              state now).queued = v₂.queued := by
            intro state
            exact ((World.Beside.refl v₂).applyBook now _).queued
          cases hsent : sent with
          | true =>
              rw [hsent, if_pos rfl] at hqueued
              simp only [if_true, updateState, run_bind, run_onBook, run_pure]
              refine ⟨fun _ => ⟨trivial, index, hvalid index rfl, hok, hstate _, ?_⟩, fun hnot =>
                ?_⟩
              · rw [hstateQueued]
                exact hqueued
              · exact absurd (hcanIff.1 hsent) hnot
          | false =>
              rw [hsent, if_neg Bool.false_ne_true] at hqueued
              simp only [Bool.false_eq_true, if_false, updateState, run_bind, run_onBook, run_pure]
              refine ⟨fun hcan => ?_, fun _ => ⟨trivial, ?_, Or.inr ⟨index, hok, hstate _⟩⟩⟩
              · exact absurd (hsent.symm.trans (hcanIff.2 hcan)) Bool.false_ne_true
              · exact (hstateQueued _).trans hqueued

end Service

/-! ## A cancel in the book -/

namespace OrderBook

variable {b : OrderBook} {entry : OrderEntry} {now : TimestampNs}

/-- An order that is not its own parent is stored as it was given. -/
theorem findOrder_addOrder_self (hok : (b.addOrder entry now).ok = true)
    (hparent : entry.isSplitChild = true → entry.request.internalOrderId ≠ entry.parentOrderId) :
    (b.addOrder entry now).book.findOrder entry.request.internalOrderId =
      some (storedEntry entry now) := by
  obtain ⟨h₁, h₂, h₃⟩ := (addOrder_ok_iff b entry now).1 hok
  have hstored : (b.stored entry now).findOrder entry.request.internalOrderId =
      some (storedEntry entry now) := by
    simp only [findOrder, stored]
    rw [table_registerOrder, SlotTable.find?_insert h₂ h₃, if_pos rfl]
  rw [← hstored]
  simp only [addOrder]
  rw [if_neg h₁, if_neg (by simp [h₂]), if_neg (by simpa using h₃)]
  simp only
  split
  next hchild =>
    split
    · rfl
    · have hsplit : entry.isSplitChild = true := hchild.1
      exact findOrder_refreshParentFromChildren (hparent hsplit)
  next => rfl

/-- The book `b'` is `b` with the child `entry` of a live order in the state `state`; the parent may
have been refreshed. -/
structure Enters (b : OrderBook) (entry : OrderEntry) (state : OrderState) (b' : OrderBook) :
    Prop where
  terms : ∀ k, b'.terms k = if k = entry.request.internalOrderId then
    some entry.terms else b.terms k
  stateOf : b'.stateOf entry.request.internalOrderId = some state
  others : ∀ k, k ≠ entry.request.internalOrderId → k ≠ entry.parentOrderId →
    b'.findOrder k = b.findOrder k
  childToParent :
    b'.childToParent = b.childToParent.insert entry.request.internalOrderId entry.parentOrderId

theorem enters_addOrder (hok : (b.addOrder entry now).ok = true)
    (hsplit : entry.isSplitChild = true)
    (hparent : entry.parentOrderId ≠ 0) (hne : entry.request.internalOrderId ≠ entry.parentOrderId)
    (state : OrderState) :
    b.Enters entry state
      ((b.addOrder entry now).book.updateState entry.request.internalOrderId state now).book := by
  have hlinks := links_addOrder_child hok hsplit hparent
  have hlookup : (b.addOrder entry now).book.childToParent.lookup entry.request.internalOrderId =
      some entry.parentOrderId := by
    have hmap := congrArg Prod.fst hlinks
    simp only [links] at hmap
    rw [hmap]
    simp
  have hself : (b.addOrder entry now).book.childToParent.lookup entry.request.internalOrderId ≠
      some entry.request.internalOrderId := by
    rw [hlookup]
    exact fun heq => hne (Option.some.inj heq).symm
  refine ⟨fun k => ?_, ?_, fun k hk hkp => ?_, ?_⟩
  · rw [(sameTerms_updateState _ _ _ _).terms, terms_addOrder hok]
  · rw [OrderBook.stateOf,
      findOrder_updateState_self hself (findOrder_addOrder_self hok fun _ => hne), Option.map_some]
    rfl
  · rw [findOrder_updateState_of_ne hk, findOrder_addOrder_of_ne hk fun _ heq => absurd heq hkp]
    rw [hlookup]
    exact fun heq => absurd (Option.some.inj heq).symm hkp
  · have hstate :=
      links_updateState (b.addOrder entry now).book entry.request.internalOrderId state now
    exact (congrArg Prod.fst hstate).trans (congrArg Prod.fst hlinks)

/-! ## A book that grows by cancels -/

/-- The book `b'` has the orders of `b` and cancels besides. Only `origId` may have changed. -/
structure Grows (origId : InternalOrderId) (b b' : OrderBook) : Prop where
  terms : ∀ k t, b.terms k = some t → b'.terms k = some t
  others : ∀ k, k ≠ origId → b.IsLive k → b'.findOrder k = b.findOrder k
  added : ∀ k, ¬ b.IsLive k → ¬ b'.IsLive k ∨ ∃ t, b'.terms k = some t ∧ t.orderType = .cancel
  parents : ∀ k, b.IsLive k → b'.tryGetParent k = b.tryGetParent k

variable {b' b'' : OrderBook} {origId k : InternalOrderId}

theorem not_isLive_iff : ¬ b.IsLive k ↔ b.findOrder k = none := by
  rw [IsLive, not_not, terms, Option.map_eq_none_iff]

theorem Grows.refl (origId : InternalOrderId) (b : OrderBook) : Grows origId b b where
  terms _ _ h := h
  others _ _ _ := rfl
  added _ h := Or.inl h
  parents _ _ := rfl

theorem Grows.isLive (h : Grows origId b b') (hk : b.IsLive k) : b'.IsLive k := by
  obtain ⟨t, ht⟩ := Option.ne_none_iff_exists'.1 hk
  rw [IsLive, h.terms k t ht]
  exact Option.some_ne_none t

theorem Grows.trans (h : Grows origId b b') (h' : Grows origId b' b'') : Grows origId b b'' where
  terms k t ht := h'.terms k t (h.terms k t ht)
  others k hk hlive := (h'.others k hk (h.isLive hlive)).trans (h.others k hk hlive)
  added k hk := by
    rcases h.added k hk with hnone | ⟨t, ht, htype⟩
    · exact h'.added k hnone
    · exact Or.inr ⟨t, h'.terms k t ht, htype⟩
  parents k hlive := (h'.parents k (h.isLive hlive)).trans (h.parents k hlive)

/-- A cancel that enters the book lets it grow. -/
theorem Enters.grows {state : OrderState} (h : b.Enters entry state b')
    (hnone : ¬ b.IsLive entry.request.internalOrderId) (htype : entry.request.orderType = .cancel) :
    Grows entry.parentOrderId b b' := by
  have hne : ∀ k, b.IsLive k → k ≠ entry.request.internalOrderId := fun k hk heq => hnone (heq ▸ hk)
  refine ⟨fun k t ht => ?_, fun k hk hlive => h.others k (hne k hlive) hk, fun k hk =>
    ?_, fun k hlive => ?_⟩
  · rw [h.terms, if_neg (hne k fun hempty => Option.some_ne_none t (ht.symm.trans hempty)), ht]
  · rw [IsLive, h.terms]
    split
    · exact Or.inr ⟨_, rfl, htype⟩
    · exact Or.inl hk
  · rw [tryGetParent, h.childToParent, Map.lookup_insert_eq, if_neg (hne k hlive), tryGetParent]

/-- What the turns skip they also skip later. -/
theorem Grows.cancellable (h : Grows origId b b') (hk : k ≠ origId) :
    b'.cancellable k = b.cancellable k := by
  by_cases hlive : b.IsLive k
  · exact cancellable_congr (h.others k hk hlive)
  · have hb : b.cancellable k = false := by
      rw [OrderBook.cancellable, not_isLive_iff.1 hlive, Option.any_none]
    rw [hb]
    rcases h.added k hlive with hnone | ⟨t, ht, htype⟩
    · rw [OrderBook.cancellable, not_isLive_iff.1 hnone, Option.any_none]
    · refine not_cancellable_of_type ht ?_
      rw [htype]
      exact OrderType.noConfusion

/-- A cancel that was sent: its target, its id and its slot. -/
structure SentCancel where
  child : InternalOrderId
  cancelId : InternalOrderId
  index : OrderIndex

/-- The cancel is in the book, linked to the parent, with its slot. -/
def HoldsCancel (b : OrderBook) (origId : InternalOrderId) (s : SentCancel) : Prop :=
  s.index ≠ kInvalidOrderIndex ∧ b.tryGetParent s.cancelId = some origId ∧
    ∃ t, b.terms s.cancelId = some t ∧ t.orderType = .cancel ∧ t.internalOrderId = s.cancelId ∧
      t.origInternalOrderId = s.child ∧ t.shmOrderIndex = s.index

theorem HoldsCancel.isLive {s : SentCancel} (h : b.HoldsCancel origId s) : b.IsLive s.cancelId := by
  obtain ⟨-, -, t, ht, -⟩ := h
  rw [IsLive, ht]
  exact Option.some_ne_none t

theorem Grows.holdsCancel (h : Grows origId b b') {s : SentCancel} (hs : b.HoldsCancel origId s) :
    b'.HoldsCancel origId s := by
  have hlive := hs.isLive
  obtain ⟨hslot, hparent, t, ht, hkind⟩ := hs
  exact ⟨hslot, (h.parents _ hlive).trans hparent, t, h.terms _ t ht, hkind⟩

end OrderBook

/-- The call put these cancels into the queue, each under an id of its own that no order had. -/
structure World.Pushes (w : World) (origId : InternalOrderId) (v : World)
    (sent : List OrderBook.SentCancel) : Prop where
  queued : v.queued = w.queued ++ sent.map fun s => s.index
  distinct : (sent.map fun s => s.cancelId).Nodup
  fresh : ∀ s ∈ sent, ¬ w.book.IsLive s.cancelId
  held : ∀ s ∈ sent, v.book.HoldsCancel origId s

theorem World.Pushes.nil {w v : World} {origId : InternalOrderId} (hqueued : v.queued = w.queued) :
    w.Pushes origId v [] where
  queued := hqueued.trans (List.append_nil _).symm
  distinct := List.nodup_nil
  fresh _ hs := absurd hs List.not_mem_nil
  held _ hs := absurd hs List.not_mem_nil

theorem World.Pushes.append {w v u : World} {origId : InternalOrderId}
    {sent later : List OrderBook.SentCancel}
    (hgrows : OrderBook.Grows origId w.book v.book) (h : w.Pushes origId v sent)
    (hgrows' : OrderBook.Grows origId v.book u.book) (h' : v.Pushes origId u later) :
    w.Pushes origId u (sent ++ later) where
  queued := by rw [h'.queued, h.queued, List.map_append, List.append_assoc]
  distinct := by
    rw [List.map_append, List.nodup_append]
    refine ⟨h.distinct, h'.distinct, fun k hk k' hk' heq => ?_⟩
    -- The earlier cancels are live when the later ones take their ids.
    obtain ⟨s, hs, rfl⟩ := List.mem_map.1 hk
    obtain ⟨s', hs', rfl⟩ := List.mem_map.1 hk'
    exact h'.fresh s' hs' (heq ▸ (h.held s hs).isLive)
  fresh s hs := by
    rcases List.mem_append.1 hs with hs | hs
    · exact h.fresh s hs
    · exact fun hlive => h'.fresh s hs (hgrows.isLive hlive)
  held s hs := by
    rcases List.mem_append.1 hs with hs | hs
    · exact hgrows'.holdsCancel (h.held s hs)
    · exact h'.held s hs

/-- The slot that was pushed for the cancel holds it. -/
def World.InSlot (w : World) (s : OrderBook.SentCancel) : Prop :=
  ∃ shm, w.ordersShm = some shm ∧ (shm.slots s.index).request.orderType = .cancel ∧
    (shm.slots s.index).request.internalOrderId = s.cancelId ∧
    (shm.slots s.index).request.origInternalOrderId = s.child

/-- A cancel in a book that the pool mirrors is in its slot. -/
theorem World.Mirrored.inSlot {w : World} {held : Set OrderIndex} {origId : InternalOrderId}
    (h : w.Mirrored held) {s : OrderBook.SentCancel} (hs : w.book.HoldsCancel origId s) :
    w.InSlot s := by
  obtain ⟨shm, h⟩ := h
  obtain ⟨hslot, -, t, hterms, htype, hid, horig, hindex⟩ := hs
  obtain ⟨e, he, rfl⟩ := Option.map_eq_some_iff.1 hterms
  have hindex' : e.shmOrderIndex = s.index := hindex
  have hhas : e.HasSlot := by
    rw [OrderEntry.HasSlot, hindex']
    exact hslot
  have hrequest := h.request s.cancelId e (Set.notMem_empty _) he hhas
  rw [hindex'] at hrequest
  refine ⟨shm, h.attached, ?_⟩
  rw [hrequest]
  exact ⟨htype, hid, horig⟩

/-- The call put these cancels into the queue, and those that serve the queue find them in the pool,
provided that the pool mirrored the book before the call. -/
structure World.PutsInSlots (w : World) (origId : InternalOrderId) (v : World)
    (sent : List OrderBook.SentCancel) : Prop extends w.Pushes origId v sent where
  slots : ∀ held, w.Mirrored held → ∀ s ∈ sent, v.InSlot s

/-! ## The loop -/

/-- A turn of the loop that makes a cancel: the child, the id of the cancel, and the state it starts
in. -/
structure FanTurn where
  child : InternalOrderId
  cancelId : InternalOrderId
  before : World

/-- The cancel of the turn can be placed. -/
def FanTurn.CanPlace (t : FanTurn) : Prop := t.before.CanPlace t.cancelId

namespace Service

open Program OrderBook

/-- The id of the next cancel. -/
def fanId (acc : FanOut) (cancelId : InternalOrderId) (w : World) : InternalOrderId :=
  if acc.usedCancelId then w.allocateOrderId.1 else cancelId

/-- The turns of `cancelChildren` that make a cancel. -/
def fanTurns (now : TimestampNs) (origId cancelId : InternalOrderId) (time : MdTime) :
    FanOut → World → List InternalOrderId → List FanTurn
  | _, _, [] => []
  | acc, w, childId :: rest =>
      let out := (cancelChild now origId cancelId time acc childId).run w
      let later := fanTurns now origId cancelId time out.1 out.2 rest
      if w.book.cancellable childId then ⟨childId, fanId acc cancelId w, w⟩ :: later else later

variable {now : TimestampNs} {origId cancelId childId : InternalOrderId}
  {time : MdTime} {acc : FanOut}
variable {w : World}

/-- A child that is gone, terminal or no new order is left alone. -/
theorem run_cancelChild_skip (hskip : w.book.cancellable childId = false) :
    (cancelChild now origId cancelId time acc childId).run w = (acc, w) := by
  simp only [cancelChild, findOrder, run_bind, run_read]
  cases hfind : w.book.findOrder childId with
  | none => rfl
  | some child =>
      have hstop : child.request.orderType ≠ .new ∨ child.isTerminal = true := by
        by_contra hopen
        rw [not_or, not_ne_iff, Bool.not_eq_true] at hopen
        rw [Bool.eq_false_iff] at hskip
        exact hskip (cancellable_iff.2 ⟨child, hfind, hopen.1, hopen.2⟩)
      simp only [if_pos hstop, run_pure]

/-- What a turn that makes a cancel does: it sends it, or it leaves the queue alone and keeps it in
the book at most in error. -/
theorem run_cancelChild (hlive : w.book.IsLive origId) (hne : origId ≠ 0)
    (hopen : w.book.cancellable childId = true) {t : FanTurn}
    (ht : t = ⟨childId, fanId acc cancelId w, w⟩)
    {out : FanOut × World} (hout : out = (cancelChild now origId cancelId time acc childId).run w) :
    Grows origId w.book out.2.book ∧ out.1.usedCancelId = true ∧
      (t.CanPlace → out.1.anySent = true ∧ out.1.anyFailed = acc.anyFailed ∧ ∃ index,
        w.Pushes origId out.2 [⟨t.child, t.cancelId, index⟩] ∧
          out.2.book.stateOf t.cancelId = some .traderSubmitted) ∧
      (¬ t.CanPlace → out.1.anySent = acc.anySent ∧ out.1.anyFailed = true ∧
        out.2.queued = w.queued) := by
  obtain ⟨child, hfind, hnew, hterminal⟩ := cancellable_iff.1 hopen
  have hgo : ¬ (child.request.orderType ≠ .new ∨ child.isTerminal = true) := by
    rw [not_or, not_ne_iff, hterminal]
    exact ⟨hnew, Bool.false_ne_true⟩
  -- The state after the id is drawn differs from `w` in the counters only.
  obtain ⟨u, hu, hbook, hqueue⟩ : ∃ u : World,
      ((if acc.usedCancelId then allocateInternalOrderId else
        pure cancelId : Service InternalOrderId)).run w =
        (fanId acc cancelId w, u) ∧ (∃ next, u.book = { w.book with nextOrderId := next }) ∧
          u.ordersShm = w.ordersShm ∧ u.downstream = w.downstream := by
    by_cases hused : acc.usedCancelId = true
    · obtain ⟨upstream, next, allocated, heq⟩ := w.allocateOrderId_eq
      refine ⟨w.allocateOrderId.2, ?_, ⟨next, by rw [heq]⟩, by rw [heq], by rw [heq]⟩
      simp only [fanId, if_pos hused, allocateInternalOrderId, run_atomic]
    · refine ⟨w, ?_, ⟨w.book.nextOrderId, rfl⟩, rfl, rfl⟩
      simp only [fanId, if_neg hused, run_pure]
  obtain ⟨next, hnext⟩ := hbook
  set texts : PlaceTexts := ⟨"failed to allocate child cancel order slot",
    "failed to add child cancel order", "failed to send child cancel to downstream"⟩ with htexts
  set entry : OrderEntry :=
    { request := cancelRequest (fanId acc cancelId w) time childId
      submitTimeNs := now
      lastUpdateNs := now
      strategyId := child.strategyId
      isSplitChild := true
      parentOrderId := origId } with hentry
  have hrun : out = ({ anySent := acc.anySent || ((placeInternalOrder now texts entry).run u).1.1
                       anyFailed :=
                         acc.anyFailed || !((placeInternalOrder now texts entry).run u).1.1
                       usedCancelId := true }, ((placeInternalOrder now texts entry).run u).2) := by
    rw [hout]
    simp only [cancelChild, findOrder, run_bind, run_read, hfind, if_neg hgo, hu]
    rfl
  obtain ⟨hsent, hnot⟩ :=
    run_placeInternalOrder now texts (rfl : entry.shmOrderIndex = kInvalidOrderIndex) u
  have hqueued : u.queued = w.queued := by rw [World.queued, World.queued, hqueue.2]
  have hcan : t.CanPlace ↔ u.CanPlace entry.request.internalOrderId := by
    rw [ht, FanTurn.CanPlace, World.CanPlace, World.CanPlace, hqueue.1, hqueue.2, hnext]
    rfl
  -- An entry that is added is a cancel under an id that no order has.
  have henters : ∀ index state,
      (u.book.addOrder { entry with shmOrderIndex := index } now).ok = true →
      w.book.Enters { entry with shmOrderIndex := index } state
        ((u.book.addOrder { entry with shmOrderIndex := index } now).book.updateState
          entry.request.internalOrderId state now).book ∧
            ¬ w.book.IsLive entry.request.internalOrderId := by
    intro index state hok
    have hfree := ((addOrder_ok_iff _ _ now).1 hok).2.1
    rw [hnext] at hfree
    have hidle : ¬ w.book.IsLive entry.request.internalOrderId := not_isLive_iff.2 hfree
    have hother : entry.request.internalOrderId ≠ origId := fun heq => hidle (heq ▸ hlive)
    have hstep := enters_addOrder hok rfl hne hother state
    rw [hnext] at hstep ⊢
    exact ⟨⟨hstep.terms, hstep.stateOf, hstep.others, hstep.childToParent⟩, hidle⟩
  refine ⟨?_, by rw [hrun], fun hplace => ?_, fun hplace => ?_⟩
  · by_cases hplace : u.CanPlace entry.request.internalOrderId
    · obtain ⟨-, index, hsends⟩ := hsent hplace
      obtain ⟨hstep, hidle⟩ := henters index .traderSubmitted hsends.ok
      rw [hrun, hsends.book]
      exact hstep.grows hidle rfl
    · rcases (hnot hplace).2.book with hsame | ⟨index, hok, hbook⟩
      · rw [hrun, hsame, hnext]
        exact ⟨fun _ _ h => h, fun _ _ _ => rfl, fun _ h => Or.inl h, fun _ _ => rfl⟩
      · obtain ⟨hstep, hidle⟩ := henters index .traderError hok
        rw [hrun, hbook]
        exact hstep.grows hidle rfl
  · obtain ⟨hplaced, index, hsends⟩ := hsent (hcan.1 hplace)
    obtain ⟨hstep, hidle⟩ := henters index .traderSubmitted hsends.ok
    rw [hrun, hplaced]
    refine ⟨Bool.or_true _, Bool.or_false _, index, ⟨?_, List.nodup_singleton _, ?_, ?_⟩, ?_⟩
    · rw [hsends.queued, hqueued]
      rfl
    · intro s hs
      rw [List.mem_singleton.1 hs, ht]
      exact hidle
    · intro s hs
      rw [List.mem_singleton.1 hs, ht]
      simp only
      rw [hsends.book]
      refine ⟨hsends.hasSlot, ?_, { entry with shmOrderIndex := index }.terms,
        ?_, rfl, rfl, rfl, rfl⟩
      · rw [tryGetParent, hstep.childToParent, Map.lookup_insert_eq]
        exact if_pos rfl
      · rw [hstep.terms]
        exact if_pos rfl
    · simp only
      rw [hsends.book, ht]
      exact hstep.stateOf
  · obtain ⟨hplaced, hkept⟩ := hnot fun h => hplace (hcan.2 h)
    rw [hrun, hplaced]
    exact ⟨Bool.or_false _, Bool.or_true _, hkept.queued.trans hqueued⟩

theorem fanTurns_child (hlive : w.book.IsLive origId) (hne : origId ≠ 0)
    (children : List InternalOrderId) (hself : origId ∉ children) :
    (fanTurns now origId cancelId time acc w children).map (fun t => t.child) =
      children.filter w.book.cancellable := by
  induction children generalizing acc w with
  | nil => rfl
  | cons childId rest ih =>
      have hrest : origId ∉ rest := fun h => hself (List.mem_cons_of_mem _ h)
      simp only [fanTurns]
      cases hopen : w.book.cancellable childId with
      | false =>
          rw [run_cancelChild_skip hopen, if_neg Bool.false_ne_true, ih hlive hrest,
            List.filter_cons_of_neg (by rw [hopen]; exact Bool.false_ne_true)]
      | true =>
          obtain ⟨hgrows, -⟩ := run_cancelChild hlive hne hopen rfl
            (Eq.refl ((cancelChild now origId cancelId time acc childId).run w))
          rw [if_pos rfl, List.map_cons, ih (hgrows.isLive hlive) hrest,
            List.filter_cons_of_pos hopen]
          congr 1
          -- The rest of the children are as open as before the turn.
          refine List.filter_congr fun k hk => hgrows.cancellable ?_
          exact fun heq => hrest (heq ▸ hk)

open Classical in
/-- The turns that can place their cancel are the turns whose cancel is sent. -/
theorem run_cancelChildren (hlive : w.book.IsLive origId) (hne : origId ≠ 0)
    (children : List InternalOrderId) {turns : List FanTurn}
    (hturns : turns = fanTurns now origId cancelId time acc w children) {out : FanOut × World}
    (hout : out = (cancelChildren now origId cancelId time acc children).run w) :
    Grows origId w.book out.2.book ∧ ∃ sent, w.Pushes origId out.2 sent ∧
      (∀ s ∈ sent, out.2.book.stateOf s.cancelId = some .traderSubmitted) ∧
      sent.map (fun s => (s.child, s.cancelId)) =
        (turns.filter fun t => t.CanPlace).map (fun t => (t.child, t.cancelId)) ∧
      (out.1.anySent = true ↔ acc.anySent = true ∨ sent ≠ []) ∧
      (out.1.anyFailed = true ↔ acc.anyFailed = true ∨ ∃ t ∈ turns, ¬ t.CanPlace) := by
  induction children generalizing acc w turns out with
  | nil =>
      rw [hturns, hout]
      refine ⟨Grows.refl _ _, [], World.Pushes.nil rfl, fun s hs =>
        absurd hs List.not_mem_nil, rfl, ?_, ?_⟩
      · simp [cancelChildren]
      · simp [cancelChildren, fanTurns]
  | cons childId rest ih =>
      simp only [cancelChildren, run_bind] at hout
      simp only [fanTurns] at hturns
      -- A child that is terminal, unknown or a cancel itself is skipped.
      cases hopen : w.book.cancellable childId with
      | false =>
          rw [run_cancelChild_skip hopen] at hout hturns
          rw [hopen, if_neg Bool.false_ne_true] at hturns
          exact ih hlive hturns hout
      | true =>
          rw [hopen, if_pos rfl] at hturns
          obtain ⟨hgrows, -, hplaced, hleft⟩ := run_cancelChild hlive hne hopen rfl
            (Eq.refl ((cancelChild now origId cancelId time acc childId).run w))
          generalize (cancelChild now origId cancelId time acc childId).run w = next at *
          obtain ⟨hgrows', sent, hpushes, hstates, hsent, hany, hfailed⟩ :=
            ih (hgrows.isLive hlive) rfl hout
          refine ⟨hgrows.trans hgrows', ?_⟩
          -- The turn places a cancel if its id is new and there is room everywhere.
          by_cases hplace : FanTurn.CanPlace ⟨childId, fanId acc cancelId w, w⟩
          · obtain ⟨hnextSent, hnextFailed, index, hpushed, hsubmitted⟩ := hplaced hplace
            refine ⟨_, World.Pushes.append hgrows hpushed hgrows' hpushes, ?_, ?_, ?_, ?_⟩
            · intro s hs
              rcases List.mem_append.1 hs with hs | hs
              · -- The cancel of this turn is not touched by the later ones.
                have hheld := (hpushed.held s hs).isLive
                have hother : s.cancelId ≠ origId := by
                  intro heq
                  exact hpushed.fresh s hs (heq ▸ hlive)
                rw [stateOf, hgrows'.others _ hother hheld]
                rw [List.mem_singleton.1 hs]
                exact hsubmitted
              · exact hstates s hs
            · rw [hturns, List.filter_cons_of_pos (by simpa using hplace), List.map_append,
                List.map_cons, hsent]
              rfl
            · simp [hany, hnextSent]
            · rw [hfailed, hnextFailed, hturns]
              simp [hplace]
          -- Otherwise its cancel is lost, and the loop goes on with the next child.
          · obtain ⟨hnextSent, hnextFailed, hqueued⟩ := hleft hplace
            refine ⟨sent, ?_, hstates, ?_, ?_, ?_⟩
            · exact World.Pushes.append hgrows (World.Pushes.nil hqueued) hgrows' hpushes
            · rw [hturns, List.filter_cons_of_neg (by simpa using hplace), hsent]
            · rw [hany, hnextSent]
            · rw [hfailed, hnextFailed, hturns]
              simp [hplace]

/-- The first cancel that is made takes the id of the cancel itself. -/
theorem exists_fanTurns_cancelId (hfirst : acc.usedCancelId = false)
    (children : List InternalOrderId)
    (hsome : fanTurns now origId cancelId time acc w children ≠ []) :
    ∃ t ∈ fanTurns now origId cancelId time acc w children, t.cancelId = cancelId := by
  induction children with
  | nil => exact absurd rfl hsome
  | cons childId rest ih =>
      simp only [fanTurns] at hsome ⊢
      cases hopen : w.book.cancellable childId with
      | false =>
          rw [run_cancelChild_skip hopen, hopen, if_neg Bool.false_ne_true] at hsome
          rw [run_cancelChild_skip hopen, if_neg Bool.false_ne_true]
          exact ih hsome
      | true =>
          rw [if_pos rfl]
          refine ⟨_, List.mem_cons_self, ?_⟩
          simp only [fanId, hfirst, Bool.false_eq_true, if_false]

end Service

/-! ## The fan-out -/

open OrderBook in
/-- What a cancel of a parent with registered children has to do, after a call that returned
`result` in the state `v`. With room for every cancel there is exactly one for every open child.
Without it the parent is in error, and the rest is sent all the same. -/
structure World.FansOut (w : World) (origId cancelId : InternalOrderId)
    (turns : List FanTurn) (result : Bool) (v : World) : Prop where
  withRoom : (∀ t ∈ turns, t.CanPlace) → ∃ sent, w.PutsInSlots origId v sent ∧
    (∀ s ∈ sent, v.book.stateOf s.cancelId = some .traderSubmitted) ∧
    (sent.map fun s => s.child).Nodup ∧
    (∀ c, c ∈ sent.map (fun s => s.child) ↔ c ∈ w.book.getChildren origId ∧
      w.book.cancellable c = true) ∧
    (sent ≠ [] → cancelId ∈ sent.map fun s => s.cancelId) ∧
    (result = true ↔ sent ≠ [])
  withFailure : (∃ t ∈ turns, ¬ t.CanPlace) → v.book.stateOf origId = some .traderError ∧
    (∀ c ∈ w.book.getChildren origId, w.book.IsLive c → v.book.findOrder c = w.book.findOrder c) ∧
    ∃ sent, w.PutsInSlots origId v sent ∧ ∀ t ∈ turns, t.CanPlace →
      ∃ s ∈ sent, s.child = t.child ∧ s.cancelId = t.cancelId

/-- The order is not registered as its own child, nor as the child of one of its children. -/
def OrderBook.Heads (b : OrderBook) (origId : InternalOrderId) : Prop :=
  origId ∉ b.getChildren origId ∧ ∀ c ∈ b.getChildren origId, b.tryGetParent origId ≠ some c

/-- An order without a parent is the child of none. -/
theorem OrderBook.heads_of_root {b : OrderBook} {origId : InternalOrderId}
    (hself : origId ∉ b.getChildren origId) (hroot : b.tryGetParent origId = none) :
    b.Heads origId := by
  refine ⟨hself, fun c _ => ?_⟩
  rw [hroot]
  exact nofun

/-- The turns of `route_cancel`. -/
def World.fanTurns (w : World) (now : TimestampNs) (origId cancelId : InternalOrderId)
    (time : MdTime) : List FanTurn :=
  Service.fanTurns now origId cancelId time {} w (w.book.getChildren origId)

namespace Service

open Program OrderBook

variable {now : TimestampNs} {origId cancelId : InternalOrderId} {time : MdTime} {w : World}

/-- The error that the parent takes after a failure leaves the cancels and the children as they
are. -/
theorem grows_updateState (now : TimestampNs) (hheads : w.book.Heads origId) {v : World}
    (hgrows : Grows origId w.book v.book)
    (hlisted : w.book.Tidy) (hlive : w.book.IsLive origId) (state : OrderState) :
    (v.book.updateState origId state now).book.stateOf origId = some state ∧
      (∀ c ∈ w.book.getChildren origId, w.book.IsLive c →
        (v.book.updateState origId state now).book.findOrder c = w.book.findOrder c) ∧
      ∀ s, v.book.HoldsCancel origId s →
        (v.book.updateState origId state now).book.HoldsCancel origId s := by
  have hparent : v.book.tryGetParent origId = w.book.tryGetParent origId :=
    hgrows.parents origId hlive
  have hself : v.book.childToParent.lookup origId ≠ some origId := by
    intro heq
    exact hheads.1 (hlisted.listed origId origId (hparent.symm.trans heq))
  obtain ⟨e, he⟩ : ∃ e, v.book.findOrder origId = some e := by
    refine Option.ne_none_iff_exists'.1 fun hnone => ?_
    exact not_isLive_iff.2 hnone (hgrows.isLive hlive)
  refine ⟨?_, fun c hc hclive => ?_, fun s hs => ?_⟩
  · rw [stateOf, findOrder_updateState_self hself he, Option.map_some]
    rfl
  · have hne : c ≠ origId := fun heq => hheads.1 (heq ▸ hc)
    rw [findOrder_updateState_of_ne hne, hgrows.others c hne hclive]
    exact fun heq => absurd (hparent.symm.trans heq) (hheads.2 c hc)
  · obtain ⟨hslot, hlink, t, ht, hkind⟩ := hs
    refine ⟨hslot, ?_, t, ?_, hkind⟩
    · have hmap := congrArg Prod.fst (links_updateState v.book origId state now)
      exact (congrArg (fun m => m.lookup s.cancelId) hmap).trans hlink
    · exact ((sameTerms_updateState v.book origId state now).terms _).trans ht

/-- The result of `route_cancel` for a parent with registered children. -/
theorem run_routeCancel_children (now : TimestampNs) (cancelId : InternalOrderId) (time : MdTime)
    (hchildren : w.book.getChildren origId ≠ []) :
    ∃ out, out = (cancelChildren now origId cancelId time {} (w.book.getChildren origId)).run w ∧
      ((routeCancel now origId cancelId time).run w).1 = out.1.anySent ∧
      ((routeCancel now origId cancelId time).run w).2.queued = out.2.queued ∧
      ((routeCancel now origId cancelId time).run w).2.book =
        if out.1.anyFailed then (out.2.book.updateState origId .traderError now).book else
          out.2.book := by
  refine ⟨_, rfl, ?_⟩
  have hsome : (w.book.getChildren origId).isEmpty = false := by
    rw [List.isEmpty_eq_false_iff]
    exact hchildren
  simp only [routeCancel, run_bind, run_read, hsome, Bool.false_eq_true, if_false]
  generalize (cancelChildren now origId cancelId time {} (w.book.getChildren origId)).run w = out
  by_cases hfailed : out.1.anyFailed = true
  · simp only [if_pos hfailed, run_bind, run_pure, updateState, run_onBook]
    exact ⟨trivial, ((World.Beside.refl out.2).applyBook now _).queued, World.book_applyBook _ _ _⟩
  · simp only [if_neg hfailed, run_pure]
    exact ⟨trivial, trivial, trivial⟩

end Service

open Service OrderBook in
/-- A cancel of a parent fans out if and only if no open child of the parent is registered twice,
unless there is no room for its cancels. -/
theorem cancel_fans_out_iff {cfg : Config} {w : World} (hw : w.Reachable cfg)
    {origId cancelId : InternalOrderId}
    (hlive : w.book.IsLive origId) (hchildren : w.book.getChildren origId ≠ [])
    (hheads : w.book.Heads origId) (now : TimestampNs) (time : MdTime) :
    w.FansOut origId cancelId (w.fanTurns now origId cancelId time)
        ((routeCancel now origId cancelId time).run w).1
        ((routeCancel now origId cancelId time).run w).2 ↔
      ((∀ t ∈ w.fanTurns now origId cancelId time, t.CanPlace) →
        ((w.book.getChildren origId).filter w.book.cancellable).Nodup) := by
  classical
  have htidy := hw.tidy
  have hne : origId ≠ 0 := fun heq => hlive (heq ▸ hw.indexed.zero)
  obtain ⟨out, hout, hresult, hqueued, hbook⟩ :=
    run_routeCancel_children now cancelId time hchildren
  obtain ⟨hgrows, sent, hpushes, hstates, hsent, hany, hfailed⟩ :=
    run_cancelChildren hlive hne _ (Eq.refl (w.fanTurns now origId cancelId time)) hout
  have hturns : (w.fanTurns now origId cancelId time).map (fun t => t.child) =
      (w.book.getChildren origId).filter w.book.cancellable :=
    fanTurns_child hlive hne _ hheads.1
  have hfirst : w.fanTurns now origId cancelId time ≠ [] →
      ∃ t ∈ w.fanTurns now origId cancelId time, t.cancelId = cancelId :=
    exists_fanTurns_cancelId rfl _
  simp only [Bool.false_eq_true, false_or] at hany hfailed
  have hmirrored : ∀ held, w.Mirrored held →
      ((routeCancel now origId cancelId time).run w).2.Mirrored held :=
    fun held hmirrored => (mirrored_handlerRules held).toRouterRules.routeCancel
      (fun _ _ _ => trivial) (fun _ _ _ => trivial) now origId cancelId time w hmirrored
  generalize w.fanTurns now origId cancelId time = turns at *
  generalize (routeCancel now origId cancelId time).run w = called at *
  have hslots : (∀ s ∈ sent, called.2.book.HoldsCancel origId s) →
      ∀ held, w.Mirrored held → ∀ s ∈ sent, called.2.InSlot s := fun hheld held hbefore s hs =>
    (hmirrored held hbefore).inSlot (hheld s hs)
  -- With room, the cancels that are sent are those of all the turns.
  have hroomSent : (∀ t ∈ turns, t.CanPlace) →
      sent.map (fun s => (s.child, s.cancelId)) = turns.map fun t => (t.child, t.cancelId) := by
    intro hroom
    rw [hsent, List.filter_eq_self.2 fun t ht => decide_eq_true (hroom t ht)]
  constructor
  · intro hfans hroom
    obtain ⟨sent', hpushes', -, hnodup, hmem, -⟩ := hfans.withRoom hroom
    have hcount : sent'.length = sent.length := by
      have hsame := hpushes'.queued.symm.trans (hqueued.trans hpushes.queued)
      simpa using congrArg List.length (List.append_cancel_left hsame)
    have hopen : sent.length = ((w.book.getChildren origId).filter w.book.cancellable).length := by
      rw [← hturns, List.length_map]
      simpa using congrArg List.length (hroomSent hroom)
    -- The children that are cancelled are the open children without repetition, and no fewer than
    -- these.
    have hperm : (sent'.map fun s => s.child).Perm
        ((w.book.getChildren origId).filter w.book.cancellable).dedup := by
      refine (List.perm_ext_iff_of_nodup hnodup (List.nodup_dedup _)).2 fun c => ?_
      rw [hmem, List.mem_dedup, List.mem_filter]
    have hlength := hperm.length_eq
    rw [List.length_map, hcount, hopen] at hlength
    rw [← (List.dedup_sublist _).eq_of_length hlength.symm]
    exact List.nodup_dedup _
  · intro hnodup
    refine ⟨fun hroom => ?_, fun hblocked => ?_⟩
    · have hkept : out.1.anyFailed = false := by
        rw [Bool.eq_false_iff, Ne, hfailed]
        rintro ⟨t, ht, hblocked⟩
        exact hblocked (hroom t ht)
      rw [hkept, if_neg Bool.false_ne_true] at hbook
      have hchild : sent.map (fun s => s.child) =
          (w.book.getChildren origId).filter w.book.cancellable := by
        rw [← hturns]
        simpa [Function.comp_def] using congrArg (List.map Prod.fst) (hroomSent hroom)
      have hheld : ∀ s ∈ sent, called.2.book.HoldsCancel origId s := by
        rw [hbook]
        exact hpushes.held
      refine ⟨sent,
        ⟨⟨hqueued.trans hpushes.queued, hpushes.distinct, hpushes.fresh, hheld⟩, hslots hheld⟩,
        ?_, ?_, ?_, ?_, ?_⟩
      · rw [hbook]
        exact hstates
      · rw [hchild]
        exact hnodup hroom
      · intro c
        rw [hchild, List.mem_filter]
      · intro hsome
        have hids : sent.map (fun s => s.cancelId) = turns.map fun t => t.cancelId := by
          simpa [Function.comp_def] using congrArg (List.map Prod.snd) (hroomSent hroom)
        obtain ⟨t, ht, hid⟩ := hfirst fun hnone => hsome (by simpa [hnone] using hids)
        rw [hids, ← hid]
        exact List.mem_map_of_mem ht
      · rw [hresult, hany]
    · rw [hfailed.2 hblocked, if_pos rfl] at hbook
      obtain ⟨hstate, hkept, hkeeps⟩ := grows_updateState now hheads hgrows htidy hlive .traderError
      have hheld : ∀ s ∈ sent, called.2.book.HoldsCancel origId s := by
        rw [hbook]
        exact fun s hs => hkeeps s (hpushes.held s hs)
      rw [hbook]
      refine ⟨hstate, hkept, sent,
        ⟨⟨hqueued.trans hpushes.queued, hpushes.distinct, hpushes.fresh, hheld⟩, hslots hheld⟩,
        fun t ht hplace => ?_⟩
      · have hmem : (t.child, t.cancelId) ∈ sent.map fun s => (s.child, s.cancelId) := by
          rw [hsent]
          exact List.mem_map_of_mem (List.mem_filter.2 ⟨ht, decide_eq_true hplace⟩)
        obtain ⟨s, hs, heq⟩ := List.mem_map.1 hmem
        exact ⟨s, hs, congrArg Prod.fst heq, congrArg Prod.snd heq⟩

/-! ## A child that is cancelled twice -/

def archivingClips : Config := { clipConfig with archiveTerminalOrders := true }

/-- A pool with room for the orders of a few calls. -/
def spaciousPool : OrdersShm :=
  { OrdersShm.ofClients [clipParent] with
    capacity := 16
    capacity_le := by decide
    nextIndex_le := by decide }

/-- The parent order with its first clip. -/
def workingClip : World :=
  (World.start { totalAsset := 10000, available := 10000 } {} spaciousPool).step archivingClips
    ({}, .orderRequest 0 clipParent)

/-- A cancel under the id 2 is finished and archived before the service hands out this id, so the
second clip is registered under an id that the list of the children has already. -/
def relistedClip : World :=
  workingClip.run archivingClips
    [({}, .routeCancel 7 2 0),
      ({}, .tradeResponse { internalOrderId := 2, newState := .finished }),
      ({}, .tradeResponse
        { internalOrderId := 1, tradeSide := .buy, newState := .finished, volumeTraded := 100
          dpriceTraded := 10, dvalueTraded := 1000 }),
      ({}, .engineTick 0)]

theorem workingClip_reachable : workingClip.Reachable archivingClips :=
  (World.reachable_start _ _ _ _).step _

/-- A pool with three slots for the orders of the service. -/
def crowdedPool : OrdersShm :=
  { OrdersShm.ofClients [clipParent] with
    capacity := 7
    capacity_le := by decide
    nextIndex_le := by decide }

/-- A parent with two open children: the first clip was filled, the second one is working, and then
a late answer opens the first one again. -/
def reopenedClip (pool : OrdersShm) : World :=
  (World.start { totalAsset := 10000, available := 10000 } {} pool).run clipConfig
    [({}, .orderRequest 0 clipParent),
      ({}, .tradeResponse
        { internalOrderId := 1, tradeSide := .buy, newState := .finished, volumeTraded := 100
          dpriceTraded := 10, dvalueTraded := 1000 }),
      ({}, .engineTick 0),
      ({}, .tradeResponse { internalOrderId := 1, newState := .marketAccepted })]

theorem reopenedClip_reachable (pool : OrdersShm) : (reopenedClip pool).Reachable clipConfig :=
  (World.reachable_start _ _ _ _).run _

/-- The cancel of a parent with two open children: with slots for both cancels both are sent, and
with one slot the first is sent and the parent ends in error. -/
theorem cancel_fans_out_reopened_clip :
    ((reopenedClip spaciousPool).FansOut 7 9 ((reopenedClip spaciousPool).fanTurns 0 7 9 0)
        ((Service.routeCancel 0 7 9 0).run (reopenedClip spaciousPool)).1
        ((Service.routeCancel 0 7 9 0).run (reopenedClip spaciousPool)).2 ∧
      ((Service.routeCancel 0 7 9 0).run (reopenedClip spaciousPool)).2.queued = [4, 5, 6, 7]) ∧
    (reopenedClip crowdedPool).FansOut 7 9 ((reopenedClip crowdedPool).fanTurns 0 7 9 0)
        ((Service.routeCancel 0 7 9 0).run (reopenedClip crowdedPool)).1
        ((Service.routeCancel 0 7 9 0).run (reopenedClip crowdedPool)).2 ∧
      ((Service.routeCancel 0 7 9 0).run (reopenedClip crowdedPool)).2.queued = [4, 5, 6] ∧
      ((Service.routeCancel 0 7 9 0).run (reopenedClip crowdedPool)).2.book.stateOf 7 =
        some .traderError := by
  refine ⟨⟨?_, by decide⟩, ?_, by decide, by decide⟩
  · exact (cancel_fans_out_iff (reopenedClip_reachable _) (by decide) (by decide)
      (OrderBook.heads_of_root (by decide) (by decide)) 0 0).2 fun _ => by decide
  · exact (cancel_fans_out_iff (reopenedClip_reachable _) (by decide) (by decide)
      (OrderBook.heads_of_root (by decide) (by decide)) 0 0).2 fun _ => by decide

open Service OrderBook in
/-- There is room for every cancel, and the second clip is cancelled twice. -/
theorem relisted_clip_cancelled_twice :
    relistedClip.Reachable archivingClips ∧ relistedClip.book.getChildren 7 = [1, 2, 2] ∧
      relistedClip.book.Heads 7 ∧ (∀ t ∈ relistedClip.fanTurns 0 7 9 0, t.CanPlace) ∧
      relistedClip.queued = [4, 5, 6] ∧
      ((routeCancel 0 7 9 0).run relistedClip).2.queued = [4, 5, 6, 7, 8] ∧
      ¬ relistedClip.FansOut 7 9 (relistedClip.fanTurns 0 7 9 0)
        ((routeCancel 0 7 9 0).run relistedClip).1 ((routeCancel 0 7 9 0).run relistedClip).2 := by
  have hchildren : relistedClip.book.getChildren 7 = [1, 2, 2] := by decide
  have hbefore : relistedClip.queued = [4, 5, 6] := by decide
  have hafter : ((routeCancel 0 7 9 0).run relistedClip).2.queued = [4, 5, 6, 7, 8] := by decide
  have hroom : ∀ t ∈ relistedClip.fanTurns 0 7 9 0, t.CanPlace := by
    obtain ⟨-, -, -, -, -, -, hfailed⟩ := run_cancelChildren (by decide) (by decide)
      (relistedClip.book.getChildren 7) (Eq.refl (relistedClip.fanTurns 0 7 9 0))
      (Eq.refl ((cancelChildren 0 7 9 0 {} (relistedClip.book.getChildren 7)).run relistedClip))
    intro t ht
    by_contra hblocked
    exact absurd (hfailed.2 (Or.inr ⟨t, ht, hblocked⟩)) (by decide)
  refine ⟨workingClip_reachable.run _, hchildren, heads_of_root (by decide) (by decide),
    hroom, hbefore, hafter, ?_⟩
  intro hfans
  obtain ⟨sent, hpushes, -, hnodup, hmem, -⟩ := hfans.withRoom hroom
  -- Two indices are pushed, and all cancels are for the order 2.
  have hqueued := hpushes.queued
  rw [hafter, hbefore] at hqueued
  have hsplit : ([4, 5, 6] ++ [7, 8] : List OrderIndex) = [4, 5, 6] ++ sent.map fun s =>
      s.index := hqueued
  have htwo : (sent.map fun s => s.index) = [7, 8] := (List.append_cancel_left hsplit).symm
  have hall : ∀ c ∈ sent.map (fun s => s.child), c = 2 := by
    intro c hc
    obtain ⟨hlisted, hopen⟩ := (hmem c).1 hc
    rw [hchildren] at hlisted
    have hfirst : relistedClip.book.cancellable 1 = false := by decide
    rcases List.mem_cons.1 hlisted with rfl | hlisted
    · rw [hfirst] at hopen
      exact absurd hopen Bool.false_ne_true
    · simpa using hlisted
  have hlength : (sent.map fun s => s.child).length = 2 := by
    rw [List.length_map, ← List.length_map (fun s => s.index), htwo]
    rfl
  have hrepeat := List.eq_replicate_of_mem hall
  rw [hrepeat, List.nodup_replicate, hlength] at hnodup
  exact absurd hnodup (by decide)

end AccountServices
