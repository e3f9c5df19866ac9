import AccountServices.Execution.Budget
import AccountServices.Foundation.Lockstep
import AccountServices.Order.KeyForms

/-!
# Services that differ in the form of keys

Two services are alike when their books and their sessions are, and everything else is the same in
both up to the contents of the order slots. The router and the execution engine, run on alike
services with alike arguments, go in lockstep: they take the same branches, return the same answers
and leave alike services behind. What they are told of the market must not depend on the form of the
key either.
-/

set_option autoImplicit false

namespace AccountServices

open Foundation Program

/-! ## Sessions -/

/-- A session whose parent has another key. -/
def Session.withKey (s : Session) (key : InternalSecurityId) : Session :=
  { s with parentRequest := s.parentRequest.withKey key }

/-- The sessions differ at most in the form of the key of the parent. -/
def Session.KeyAlike (s s' : Session) : Prop :=
  ∃ key, SameKey s.parentRequest.internalSecurityId key ∧ s' = s.withKey key

/-- The engines keep sessions of the same parents in the same order. -/
structure SessionsAlike (m m' : Map InternalOrderId Session) : Prop where
  keys : m'.keys = m.keys
  lookup : ∀ k, Option.Rel Session.KeyAlike (m.lookup k) (m'.lookup k)

theorem SessionsAlike.insert {m m' : Map InternalOrderId Session} (h : SessionsAlike m m')
    (k : InternalOrderId) {s s' : Session} (hs : s.KeyAlike s') :
    SessionsAlike (m.insert k s) (m'.insert k s') where
  keys := by rw [AList.keys_insert, AList.keys_insert, h.keys]
  lookup k' := by
    rw [Map.lookup_insert_eq, Map.lookup_insert_eq]
    by_cases hk : k' = k
    · rw [if_pos hk, if_pos hk]
      exact Option.Rel.some hs
    · rw [if_neg hk, if_neg hk]
      exact h.lookup k'

theorem SessionsAlike.erase {m m' : Map InternalOrderId Session} (h : SessionsAlike m m')
    (k : InternalOrderId) : SessionsAlike (m.erase k) (m'.erase k) where
  keys := by rw [AList.keys_erase, AList.keys_erase, h.keys]
  lookup k' := by
    rw [Map.lookup_erase_eq, Map.lookup_erase_eq]
    by_cases hk : k' = k
    · rw [if_pos hk, if_pos hk]
      exact Option.Rel.none
    · rw [if_neg hk, if_neg hk]
      exact h.lookup k'

/-! ## Services -/

/-- The pools have handed out the same slots. -/
def PoolsAlike (pool pool' : Option OrdersShm) : Prop :=
  (pool = none ∧ pool' = none) ∨
    ∃ (shm : OrdersShm) (slots : _), pool = some shm ∧ pool' = some { shm with slots := slots }

theorem PoolsAlike.isSome {pool pool' : Option OrdersShm} (h : PoolsAlike pool pool') :
    pool'.isSome = pool.isSome := by
  rcases h with ⟨rfl, rfl⟩ | ⟨shm, slots, rfl, rfl⟩
  · rfl
  · rfl

/-- The services differ at most in the form of the keys and in the contents of the slots. -/
def World.Alike (w v : World) : Prop :=
  ∃ book sessions shm, v = { w with book := book, sessions := sessions, ordersShm := shm } ∧
    w.book.Alike book ∧ SessionsAlike w.sessions sessions ∧ PoolsAlike w.ordersShm shm

theorem World.Alike.refl (w : World) : w.Alike w := by
  refine ⟨w.book, w.sessions, w.ordersShm, rfl, OrderBook.Alike.refl _, ⟨rfl, fun k => ?_⟩, ?_⟩
  · cases w.sessions.lookup k with
    | none => exact Option.Rel.none
    | some s => exact Option.Rel.some ⟨s.parentRequest.internalSecurityId, SameKey.refl _, rfl⟩
  · cases hpool : w.ordersShm with
    | none => exact Or.inl ⟨rfl, rfl⟩
    | some shm => exact Or.inr ⟨shm, shm.slots, rfl, rfl⟩

theorem World.Alike.findOrder {w v : World} (h : w.Alike v) (k : InternalOrderId) :
    FoundAlike (w.book.findOrder k) (v.book.findOrder k) := by
  obtain ⟨book, sessions, shm, rfl, hbook, -, -⟩ := h
  exact hbook.findOrder k

/-- The two programs go in lockstep on alike services. -/
abbrev InStep {α β : Type} (V : α → β → Prop) (p : Service α) (q : Service β) : Prop :=
  Lockstep World.Alike World.Alike V p q

/-- Answers with an order or a session in which only the form of the key may differ. -/
inductive AnswersAlike {α : Type} (R : α → α → Prop) : Bool × α → Bool × α → Prop where
  | intro (answer : Bool) {a b : α} (h : R a b) : AnswersAlike R (answer, a) (answer, b)

namespace Service

theorem inStep_pure {α : Type} (a : α) :
    InStep Eq (pure a : Service α) (pure a) := Lockstep.pure rfl

/-- A step that touches neither the book nor the sessions nor the pool. -/
theorem inStep_modify {label : Action} {f : World → World}
    (h : ∀ w book sessions shm,
        ({ f w with book := book, sessions := sessions, ordersShm := shm } : World) =
        f { w with book := book, sessions := sessions, ordersShm := shm } ∧
      (f w).book = w.book ∧ (f w).sessions = w.sessions ∧ (f w).ordersShm = w.ordersShm) :
    InStep Eq (Program.modify label f) (Program.modify label f) := by
  refine Lockstep.modify ?_
  rintro w _ ⟨book, sessions, shm, rfl, hbook, hsessions, hpool⟩
  obtain ⟨heq, hkeptBook, hkeptSessions, hkeptPool⟩ := h w book sessions shm
  exact ⟨book, sessions, shm, heq.symm, hkeptBook ▸ hbook, hkeptSessions ▸ hsessions,
    hkeptPool ▸ hpool⟩

theorem inStep_recordError (error : ErrorStatus) :
    InStep Eq (recordError error) (recordError error) :=
  inStep_modify fun _ _ _ _ => ⟨rfl, rfl, rfl, rfl⟩

theorem inStep_recordTrace (records : List ChildTrace) :
    InStep Eq (recordTrace records) (recordTrace records) :=
  inStep_modify fun _ _ _ _ => ⟨rfl, rfl, rfl, rfl⟩

/-! ## The order pool -/

/-- The operations answer alike on pools that have handed out the same slots. -/
theorem inStep_onOrdersShm {α : Type} (label : Action) (fail : α) {f g : OrdersShm → α × OrdersShm}
    (hfg : ∀ (shm : OrdersShm) slots, ∃ slots', g { shm with slots := slots } =
      ((f shm).1, { (f shm).2 with slots := slots' })) :
    InStep Eq (onOrdersShm label fail f) (onOrdersShm label fail g) := by
  refine Lockstep.atomic ?_
  rintro ⟨_, _, _, _, _, pool, _, _, _, _, _, _⟩
    _ ⟨book, sessions, pool', rfl, hbook, hsessions, hpool⟩
  rcases hpool with ⟨hnone, rfl⟩ | ⟨shm, slots, hsome, rfl⟩
  · cases (show pool = none from hnone)
    exact ⟨rfl, book, sessions, none, rfl, hbook, hsessions, Or.inl ⟨rfl, rfl⟩⟩
  · cases (show pool = some shm from hsome)
    obtain ⟨slots', heq⟩ := hfg shm slots
    refine ⟨(congrArg Prod.fst heq).symm, book, sessions,
      some { (f shm).2 with slots := slots' }, ?_, hbook, hsessions, Or.inr ⟨_, slots', rfl, rfl⟩⟩
    simp only [heq]

/-- A write to a slot. -/
theorem mutateSlot_slots (shm : OrdersShm) (slots : OrderIndex → OrderSlot) (index : OrderIndex)
    (f g : OrderSlot → OrderSlot) :
      ∃ slots', ({ shm with slots := slots } : OrdersShm).mutateSlot index g =
      ((shm.mutateSlot index f).1, { (shm.mutateSlot index f).2 with slots := slots' }) := by
  simp only [OrdersShm.mutateSlot]
  rw [show ({ shm with slots := slots } : OrdersShm).indexExists index =
    shm.indexExists index from rfl]
  split
  · exact ⟨_, rfl⟩
  · exact ⟨slots, rfl⟩

theorem inStep_updateStage (index : OrderIndex) (stage : OrderSlotState) (now : TimestampNs) :
    InStep Eq (updateStage index stage now) (updateStage index stage now) :=
  Lockstep.bind (inStep_onOrdersShm _ _ fun shm slots => mutateSlot_slots shm slots _ _ _)
    fun _ _ _ =>
    inStep_pure ()

theorem inStep_syncOrder (index : OrderIndex) (request request' : OrderRequest)
    (now : TimestampNs) : InStep Eq (syncOrder index request now) (syncOrder index request' now) :=
  inStep_onOrdersShm _ _ fun shm slots => mutateSlot_slots shm slots _ _ _

theorem inStep_writeOrder (index : OrderIndex) (request request' : OrderRequest)
    (stage : OrderSlotState) (source : OrderSlotSource) (now : TimestampNs) :
    InStep Eq (writeOrder index request stage source now)
      (writeOrder index request' stage source now) :=
  inStep_onOrdersShm _ _ fun shm slots => mutateSlot_slots shm slots _ _ _

theorem inStep_tryAllocate : InStep Eq (onOrdersShm .allocateSlot none fun shm => shm.tryAllocate)
    (onOrdersShm .allocateSlot none fun shm => shm.tryAllocate) := by
  refine inStep_onOrdersShm _ _ fun shm slots => ⟨slots, ?_⟩
  simp only [OrdersShm.tryAllocate]
  split
  · rfl
  · rfl

/-! ## The book -/

theorem inStep_onOrderBookChanged (now : TimestampNs) {entry entry' : OrderEntry}
    (h : entry.Alike entry') (event : BookEvent) :
    InStep Eq (onOrderBookChanged now entry event) (onOrderBookChanged now entry' event) := by
  obtain ⟨key, -, rfl⟩ := h
  refine Lockstep.bind (V := Eq) (Lockstep.read ?_) ?_
  · rintro w _ ⟨book, sessions, shm, rfl, -, -, hpool⟩
    exact hpool.isSome.symm
  rintro attached _ rfl
  refine Lockstep.ite Iff.rfl (fun _ => inStep_pure ()) fun _ =>
    Lockstep.bind (S := World.Alike) (V := Eq) ?_ ?_
  · refine Lockstep.ite Iff.rfl (fun _ => inStep_writeOrder _ _ _ _ _ _) fun _ => ?_
    exact Lockstep.ite Iff.rfl (fun _ => inStep_writeOrder _ _ _ _ _ _) fun _ =>
      inStep_syncOrder _ _ _ _
  · rintro synced _ rfl
    exact Lockstep.ite Iff.rfl (fun _ => inStep_pure ()) fun _ => inStep_recordError _

/-- The callbacks of an operation. -/
theorem inStep_notes (now : TimestampNs) {notes notes' : List (OrderEntry × BookEvent)}
    (h : OrderBook.NotesAlike notes notes') :
    InStep Eq (Program.forEach (fun note => onOrderBookChanged now note.1 note.2) notes)
      (Program.forEach (fun note => onOrderBookChanged now note.1 note.2) notes') := by
  induction h with
  | nil => exact inStep_pure ()
  | cons hnote _ ih =>
      intro w v hwv
      rw [run_forEach_cons, run_forEach_cons, hnote.2]
      exact ih _ _ (inStep_onOrderBookChanged now hnote.1 _ w v hwv).2

theorem inStep_onBook (now : TimestampNs) {op op' : OrderBook → BookOutcome}
    (h : ∀ {b c : OrderBook}, b.Alike c → OrderBook.OutcomesAlike (op b) (op' c)) :
    InStep Eq (onBook now op) (onBook now op') := by
  refine Lockstep.bind (S := World.Alike) (V := OrderBook.OutcomesAlike) (Lockstep.atomic ?_) ?_
  · rintro w _ ⟨book, sessions, shm, rfl, hbook, hsessions, hpool⟩
    have hout := h hbook
    refine ⟨hout, (op' book).book, sessions, shm, ?_, hout.book, hsessions, hpool⟩
    simp only [hout.errors]
  · intro out out' hout
    refine Lockstep.bind (inStep_notes now hout.notes) fun _ _ _ => ?_
    rw [hout.ok]
    exact inStep_pure _

theorem inStep_addOrder (now : TimestampNs) {entry entry' : OrderEntry} (h : entry.Alike entry') :
    InStep Eq (addOrder now entry) (addOrder now entry') :=
  inStep_onBook now fun hbook => hbook.addOrder h now

theorem inStep_updateState (now : TimestampNs) (orderId : InternalOrderId) (state : OrderState) :
    InStep Eq (updateState now orderId state) (updateState now orderId state) :=
  inStep_onBook now fun hbook => hbook.updateState orderId state now

theorem inStep_findOrder (orderId : InternalOrderId) :
    InStep FoundAlike (findOrder orderId) (findOrder orderId) :=
  Lockstep.read fun _ _ h => h.findOrder orderId

/-! ## The router -/

theorem inStep_allocateInternalOrderId :
    InStep Eq allocateInternalOrderId allocateInternalOrderId := by
  refine Lockstep.atomic ?_
  rintro w _ ⟨book, sessions, shm, rfl, ⟨t, rfl, ht⟩, hsessions, hpool⟩
  simp only [World.allocateOrderId]
  split
  · exact ⟨rfl, _, sessions, shm, rfl, ⟨t, rfl, ht⟩, hsessions, hpool⟩
  · exact ⟨rfl, _, sessions, shm, rfl, ⟨t, rfl, ht⟩, hsessions, hpool⟩

theorem inStep_tryPush (index : OrderIndex) : InStep Eq (tryPush index) (tryPush index) := by
  refine Lockstep.atomic ?_
  rintro ⟨_, _, _, _, _, _, queue, _, _, _, _, _⟩
    _ ⟨book, sessions, shm, rfl, hbook, hsessions, hpool⟩
  cases queue with
  | none => exact ⟨rfl, book, sessions, shm, rfl, hbook, hsessions, hpool⟩
  | some q => exact ⟨rfl, book, sessions, shm, rfl, hbook, hsessions, hpool⟩

theorem inStep_sendToDownstream (now : TimestampNs) (index : OrderIndex) :
    InStep Eq (sendToDownstream now index) (sendToDownstream now index) := by
  refine Lockstep.bind (V := Eq) (Lockstep.read ?_) ?_
  · rintro w _ ⟨book, sessions, shm, rfl, -, -, hpool⟩
    show (w.downstream.isSome && w.ordersShm.isSome) = (w.downstream.isSome && shm.isSome)
    rw [hpool.isSome]
  rintro attached _ rfl
  refine Lockstep.ite Iff.rfl (fun _ => ?_) fun _ => ?_
  · refine Lockstep.bind (inStep_tryPush index) ?_
    rintro pushed _ rfl
    exact Lockstep.bind (inStep_updateStage _ _ _) fun _ _ _ => inStep_pure _
  · exact Lockstep.bind (inStep_recordError _) fun _ _ _ => inStep_pure _

theorem inStep_createInternalOrderSlot (now : TimestampNs) (request request' : OrderRequest) :
    InStep Eq (createInternalOrderSlot now request) (createInternalOrderSlot now request') := by
  refine Lockstep.bind inStep_tryAllocate ?_
  rintro allocated _ rfl
  cases allocated with
  | none => exact inStep_pure _
  | some index =>
      refine Lockstep.bind (inStep_writeOrder _ _ _ _ _ _) ?_
      rintro written _ rfl
      exact inStep_pure _

theorem inStep_enterInternalOrder (now : TimestampNs) (texts : PlaceTexts)
    {entry entry' : OrderEntry} (h : entry.Alike entry') :
    InStep (AnswersAlike OrderEntry.Alike) (enterInternalOrder now texts entry)
      (enterInternalOrder now texts entry') := by
  refine Lockstep.bind (inStep_addOrder now h) ?_
  rintro added _ rfl
  have hentry := h
  obtain ⟨key, -, rfl⟩ := h
  refine Lockstep.ite Iff.rfl (fun _ => ?_) fun _ => ?_
  · refine Lockstep.bind (inStep_sendToDownstream _ _) ?_
    rintro sent _ rfl
    refine Lockstep.ite Iff.rfl (fun _ => ?_) fun _ => ?_
    · exact Lockstep.bind (inStep_updateState _ _ _) fun _ _ _ => Lockstep.pure ⟨_, hentry⟩
    · exact Lockstep.bind (inStep_updateState _ _ _) fun _ _ _ =>
        Lockstep.bind (inStep_recordError _) fun _ _ _ => Lockstep.pure ⟨_, hentry⟩
  · exact Lockstep.bind (inStep_updateStage _ _ _) fun _ _ _ =>
      Lockstep.bind (inStep_recordError _) fun _ _ _ => Lockstep.pure ⟨_, hentry⟩

theorem inStep_placeInternalOrder (now : TimestampNs) (texts : PlaceTexts)
    {entry entry' : OrderEntry} (h : entry.Alike entry') :
    InStep (AnswersAlike OrderEntry.Alike) (placeInternalOrder now texts entry)
      (placeInternalOrder now texts entry') := by
  obtain ⟨key, hkey, rfl⟩ := h
  refine Lockstep.bind (S := World.Alike) (V := Eq) ?_ ?_
  · exact Lockstep.ite Iff.rfl (fun _ => inStep_createInternalOrderSlot _ _ _) fun _ =>
      inStep_pure _
  · rintro slot _ rfl
    cases slot with
    | none =>
        exact Lockstep.bind (inStep_recordError _) fun _ _ _ => Lockstep.pure ⟨_, key, hkey, rfl⟩
    | some index => exact inStep_enterInternalOrder now texts ⟨key, hkey, rfl⟩

/-- A cancel carries no key, so the two services place the same one. -/
theorem inStep_cancelChild (now : TimestampNs) (origId cancelId : InternalOrderId) (time : MdTime)
    (acc : FanOut) (childId : InternalOrderId) :
    InStep Eq (cancelChild now origId cancelId time acc childId)
      (cancelChild now origId cancelId time acc childId) := by
  refine Lockstep.bind (inStep_findOrder childId) ?_
  rintro _ _ (⟨rfl, rfl⟩ | ⟨child, key, -, rfl, rfl⟩)
  · exact inStep_pure _
  refine Lockstep.ite Iff.rfl (fun _ => inStep_pure _) fun _ =>
    Lockstep.bind (S := World.Alike) (V := Eq) ?_ ?_
  · exact Lockstep.ite Iff.rfl (fun _ => inStep_allocateInternalOrderId) fun _ => inStep_pure _
  · rintro childCancelId _ rfl
    refine Lockstep.bind (inStep_placeInternalOrder now _ (OrderEntry.Alike.refl _)) ?_
    rintro _ _ ⟨sent, -⟩
    exact inStep_pure _

theorem inStep_cancelChildren (now : TimestampNs) (origId cancelId : InternalOrderId)
    (time : MdTime) (acc : FanOut) (children : List InternalOrderId) :
    InStep Eq (cancelChildren now origId cancelId time acc children)
      (cancelChildren now origId cancelId time acc children) := by
  induction children generalizing acc with
  | nil => exact inStep_pure _
  | cons childId rest ih =>
      refine Lockstep.bind (inStep_cancelChild now origId cancelId time acc childId) ?_
      rintro acc' _ rfl
      exact ih acc'

theorem inStep_routeCancel (now : TimestampNs) (origId cancelId : InternalOrderId) (time : MdTime) :
    InStep Eq (routeCancel now origId cancelId time) (routeCancel now origId cancelId time) := by
  refine Lockstep.bind (V := Eq) (Lockstep.read ?_) ?_
  · rintro w _ ⟨_, sessions, shm, rfl, ⟨t, rfl, -⟩, -, -⟩
    rfl
  rintro children _ rfl
  refine Lockstep.ite Iff.rfl (fun _ => ?_) fun _ => ?_
  · refine Lockstep.bind (inStep_placeInternalOrder now _ (OrderEntry.Alike.refl _)) ?_
    rintro _ _ ⟨sent, -⟩
    exact inStep_pure _
  · refine Lockstep.bind (inStep_cancelChildren now origId cancelId time {} children) ?_
    rintro acc _ rfl
    refine Lockstep.ite Iff.rfl (fun _ => ?_) fun _ => inStep_pure _
    exact Lockstep.bind (inStep_updateState _ _ _) fun _ _ _ => inStep_pure _

theorem inStep_routeOrder (now : TimestampNs) {entry entry' : OrderEntry} (h : entry.Alike entry') :
    InStep Eq (routeOrder now entry) (routeOrder now entry') := by
  obtain ⟨key, -, rfl⟩ := h
  refine Lockstep.ite Iff.rfl (fun _ => inStep_routeCancel _ _ _ _) fun _ => ?_
  refine Lockstep.ite Iff.rfl (fun _ => ?_) fun _ => ?_
  · exact Lockstep.bind (inStep_updateState _ _ _) fun _ _ _ =>
      Lockstep.bind (inStep_recordError _) fun _ _ _ => inStep_pure _
  · refine Lockstep.bind (inStep_sendToDownstream _ _) ?_
    rintro sent _ rfl
    refine Lockstep.ite Iff.rfl (fun _ => ?_) fun _ => ?_
    · exact Lockstep.bind (inStep_updateState _ _ _) fun _ _ _ => inStep_pure _
    · exact Lockstep.bind (inStep_updateState _ _ _) fun _ _ _ =>
        Lockstep.bind (inStep_recordError _) fun _ _ _ => inStep_pure _

theorem inStep_submitInternalOrder (now : TimestampNs) {entry entry' : OrderEntry}
    (h : entry.Alike entry') :
    InStep (AnswersAlike OrderEntry.Alike) (submitInternalOrder now entry)
      (submitInternalOrder now entry') := by
  obtain ⟨key, hkey, rfl⟩ := h
  refine Lockstep.bind (S := World.Alike) (V := Eq) ?_ ?_
  · exact Lockstep.ite Iff.rfl (fun _ => inStep_allocateInternalOrderId) fun _ => inStep_pure _
  · rintro orderId _ rfl
    exact inStep_placeInternalOrder now _ ⟨key, hkey, rfl⟩

end Service

/-! ## Sessions in lockstep -/

/-- What a call may be told of the market and by the strategy: the market data are read under the
normal form of the key, and the strategy does not look at the key. -/
structure Env.IgnoresKeyForm (env : Env) : Prop where
  readMarketData : ∀ id, env.readMarketData id =
    (normalizeInternalSecurityId id).bind fun key => env.readMarketData key.view
  evaluate : ∀ (request : OrderRequest) key view budget,
    env.evaluate (request.withKey key) view budget = env.evaluate request view budget

namespace Session

variable {s s' : Session} {cfg : Config} {env : Env}

theorem advanceSliceIfReady_withKey (s : Session) (key : InternalSecurityId) :
    (s.withKey key).advanceSliceIfReady = s.advanceSliceIfReady.withKey key := by
  have hplan : (s.withKey key).plan = s.plan := rfl
  have hworking : (s.withKey key).hasWorkingChildren = s.hasWorkingChildren := rfl
  simp only [Session.advanceSliceIfReady, hplan, hworking]
  split
  · rfl
  · split
    · rfl
    · rfl

theorem KeyAlike.advanceSliceIfReady (h : s.KeyAlike s') :
    s.advanceSliceIfReady.KeyAlike s'.advanceSliceIfReady := by
  obtain ⟨key, hkey, rfl⟩ := h
  refine ⟨key, ?_, advanceSliceIfReady_withKey s key⟩
  rw [advanceSliceIfReady_parentRequest]
  exact hkey

theorem KeyAlike.noteCancel (h : s.KeyAlike s') (origId : InternalOrderId) :
    (s.noteCancel origId).KeyAlike (s'.noteCancel origId) := by
  obtain ⟨key, hkey, rfl⟩ := h
  simp only [Session.noteCancel]
  rw [show (s.withKey key).childLedgers = s.childLedgers from rfl]
  split
  · exact ⟨key, hkey, rfl⟩
  · exact ⟨key, hkey, rfl⟩

theorem KeyAlike.noteCancels (h : s.KeyAlike s') {b c : OrderBook} (hbook : b.Alike c)
    (ids : List InternalOrderId) : (s.noteCancels b ids).KeyAlike (s'.noteCancels c ids) := by
  induction ids generalizing s s' with
  | nil => exact h
  | cons relatedId rest ih =>
      simp only [Session.noteCancels]
      rcases hbook.findOrder relatedId with ⟨hnone, hnone'⟩ | ⟨e, key, -, he, he'⟩
      · rw [hnone, hnone']
        exact ih h
      · rw [he, he']
        simp only
        by_cases hcancel : e.request.orderType ≠ .cancel
        · rw [if_pos hcancel]
          exact (if_pos (c := (e.withKey key).request.orderType ≠ .cancel) hcancel).symm ▸ ih h
        · rw [if_neg hcancel]
          exact (if_neg (c := (e.withKey key).request.orderType ≠ .cancel) hcancel).symm ▸
            ih (h.noteCancel e.request.origInternalOrderId)

theorem KeyAlike.refreshParentState (h : s.KeyAlike s') {b c : OrderBook} (hbook : b.Alike c) :
    AnswersAlike Session.KeyAlike (s.refreshParentState b) (s'.refreshParentState c) := by
  have hchildren : ∀ k, c.getChildren k = b.getChildren k := by
    obtain ⟨t, rfl, -⟩ := hbook
    exact fun _ => rfl
  obtain ⟨key, hkey, rfl⟩ := h
  simp only [Session.refreshParentState]
  rw [show (s.withKey key).parentRequest.internalOrderId = s.parentRequest.internalOrderId
    from rfl, hchildren]
  rcases hbook.findOrder s.parentRequest.internalOrderId with
    ⟨hnone, hnone'⟩ | ⟨e, key', -, he, he'⟩
  · rw [hnone, hnone']
    exact ⟨_, key, hkey, rfl⟩
  · rw [he, he']
    have hcleared : ({ s with cancelRequested := false } : Session).KeyAlike
        { s.withKey key with cancelRequested := false } := ⟨key, hkey, rfl⟩
    exact ⟨_, hcleared.noteCancels hbook _⟩

theorem inStep_syncParentView (h : s.KeyAlike s') (now : TimestampNs) :
    InStep Eq (s.syncParentView now) (s'.syncParentView now) := by
  obtain ⟨key, -, rfl⟩ := h
  exact Lockstep.bind (Service.inStep_onBook now fun hbook => hbook.syncManagedParentView _ _ _ now)
    fun _ _ _ => Service.inStep_pure ()

theorem inStep_sync_pure (h : s.KeyAlike s') (now : TimestampNs) :
    InStep Session.KeyAlike (do s.syncParentView now; pure s : Service Session)
      (do s'.syncParentView now; pure s' : Service Session) :=
  Lockstep.bind (inStep_syncParentView h now) fun _ _ _ => Lockstep.pure h

theorem KeyAlike.setTerminal (h : s.KeyAlike s') :
    ({ s with terminal := true } : Session).KeyAlike { s' with terminal := true } := by
  obtain ⟨key, hkey, rfl⟩ := h
  exact ⟨key, hkey, rfl⟩

theorem inStep_finishIfIdle (h : s.KeyAlike s') (now : TimestampNs) :
    InStep Session.KeyAlike (s.finishIfIdle now) (s'.finishIfIdle now) := by
  have hterminal := h.setTerminal
  have hsession := h
  obtain ⟨key, -, rfl⟩ := h
  refine Lockstep.ite Iff.rfl (fun _ => inStep_sync_pure hterminal now) fun _ => ?_
  exact Lockstep.ite Iff.rfl (fun _ => Lockstep.pure hsession) fun _ =>
    inStep_sync_pure hsession now

theorem inStep_submitChild (h : s.KeyAlike s') (now : TimestampNs)
    (volume : Volume) (price : DPrice) (activeClaimed : Bool) :
    InStep (AnswersAlike Session.KeyAlike) (s.submitChild now volume price activeClaimed)
      (s'.submitChild now volume price activeClaimed) := by
  have hsession := h
  obtain ⟨key, hkey, rfl⟩ := h
  refine Lockstep.ite Iff.rfl (fun _ => Lockstep.pure ⟨_, hsession⟩) fun _ => ?_
  refine Lockstep.bind (Service.inStep_recordTrace _) fun _ _ _ => ?_
  refine Lockstep.bind (Service.inStep_submitInternalOrder now ⟨key, hkey, rfl⟩) ?_
  rintro _ _ @⟨sent, child, _, key', -, rfl⟩
  refine Lockstep.ite Iff.rfl (fun _ => ?_) fun _ => ?_
  · refine Lockstep.bind (Service.inStep_recordTrace _) fun _ _ _ => Lockstep.pure ⟨_, ?_⟩
    show (s.addChild child volume price).KeyAlike
        ((s.withKey key).addChild (child.withKey key') volume price)
    simp only [addChild]
    rw [show (s.withKey key).childLedgers = s.childLedgers from rfl,
      show (child.withKey key').request.internalOrderId = child.request.internalOrderId from rfl]
    split
    · exact hsession
    · exact ⟨key, hkey, rfl⟩
  · have hfailed : ({ s with failed := true, terminal := true } : Session).KeyAlike
        { s.withKey key with failed := true, terminal := true } := ⟨key, hkey, rfl⟩
    exact Lockstep.bind (Service.inStep_recordTrace _) fun _ _ _ =>
      Lockstep.bind (inStep_syncParentView hfailed now) fun _ _ _ => Lockstep.pure ⟨_, hfailed⟩

theorem inStep_tryActive (henv : env.IgnoresKeyForm) (h : s.KeyAlike s') (cfg : Config)
    (view : Option MarketDataView) (price : DPrice) (budget : Volume) :
    InStep (AnswersAlike Session.KeyAlike) (s.tryActive cfg env view price budget)
      (s'.tryActive cfg env view price budget) := by
  have hsession := h
  obtain ⟨key, hkey, rfl⟩ := h
  cases view with
  | none => exact Lockstep.pure ⟨_, hsession⟩
  | some view =>
      refine Lockstep.ite Iff.rfl (fun _ => Lockstep.pure ⟨_, hsession⟩) fun _ => ?_
      refine Lockstep.ite Iff.rfl (fun _ => Lockstep.pure ⟨_, hsession⟩) fun _ => ?_
      refine Lockstep.ite Iff.rfl (fun _ => Lockstep.pure ⟨_, hsession⟩) fun _ => ?_
      -- The strategy decides alike: it does not look at the key.
      rw [show env.evaluate (s.withKey key).parentRequest view budget =
        env.evaluate s.parentRequest view budget from henv.evaluate _ _ _ _]
      have hseen : ({ s with lastActivePublishSeqNo := view.publishSeqNo } : Session).KeyAlike
          { s.withKey key with lastActivePublishSeqNo := view.publishSeqNo } := ⟨key, hkey, rfl⟩
      exact Lockstep.ite Iff.rfl (fun _ => Lockstep.pure ⟨_, hseen⟩) fun _ =>
        inStep_submitChild hseen _ _ _ _

/-- The price does not depend on the form of the key. -/
theorem KeyAlike.resolveSubmitPrice (henv : env.IgnoresKeyForm) (h : s.KeyAlike s') (cfg : Config) :
    s'.resolveSubmitPrice cfg env = s.resolveSubmitPrice cfg env := by
  obtain ⟨key, hkey, rfl⟩ := h
  have hview : (s.withKey key).readMarketDataView cfg env = s.readMarketDataView cfg env := by
    simp only [Session.readMarketDataView]
    rw [henv.readMarketData s.parentRequest.internalSecurityId.view,
      henv.readMarketData (s.withKey key).parentRequest.internalSecurityId.view, hkey.normalize]
    rfl
  simp only [Session.resolveSubmitPrice]
  rw [hview]
  rfl

theorem KeyAlike.currentBudgetVolume (h : s.KeyAlike s') :
    s'.currentBudgetVolume = s.currentBudgetVolume := by
  obtain ⟨key, -, rfl⟩ := h
  rfl

theorem inStep_tickSequential (henv : env.IgnoresKeyForm) (h : s.KeyAlike s') (cfg : Config) :
    InStep Session.KeyAlike (s.tickSequential cfg env) (s'.tickSequential cfg env) := by
  have hterminal := h.setTerminal
  have hprice := h.resolveSubmitPrice henv cfg
  have hsession := h
  obtain ⟨key, -, rfl⟩ := h
  refine Lockstep.ite Iff.rfl (fun _ => inStep_sync_pure hterminal _) fun _ => ?_
  refine Lockstep.ite Iff.rfl (fun _ => inStep_sync_pure hsession _) fun _ => ?_
  refine Lockstep.ite Iff.rfl (fun _ => inStep_sync_pure hterminal _) fun _ => ?_
  refine Lockstep.ite Iff.rfl (fun _ => inStep_finishIfIdle hsession _) fun _ => ?_
  rw [hprice]
  split
  · exact inStep_sync_pure hsession _
  · refine Lockstep.bind (inStep_tryActive henv hsession cfg _ _ _) ?_
    rintro _ _ ⟨active, hs₁⟩
    refine Lockstep.bind (S := World.Alike) (V := AnswersAlike Session.KeyAlike) ?_ ?_
    · exact Lockstep.ite Iff.rfl (fun _ => Lockstep.pure ⟨_, hs₁⟩) fun _ =>
        inStep_submitChild hs₁ _ _ _ _
    · rintro _ _ ⟨_, hs₂⟩
      exact inStep_sync_pure hs₂ _

theorem KeyAlike.consumeSlice (h : s.KeyAlike s') : s.consumeSlice.KeyAlike s'.consumeSlice := by
  obtain ⟨key, hkey, rfl⟩ := h
  obtain ⟨_, _, _, _, _, _, _, _, _, plan⟩ := s
  cases plan with
  | sequentialClip _ => exact ⟨key, hkey, rfl⟩
  | twap t => exact ⟨key, hkey, rfl⟩

theorem KeyAlike.twapState? (h : s.KeyAlike s') : s'.twapState? = s.twapState? := by
  obtain ⟨key, -, rfl⟩ := h
  rfl

theorem KeyAlike.sliceConsumed (h : s.KeyAlike s') : s'.sliceConsumed = s.sliceConsumed := by
  simp only [Session.sliceConsumed, h.twapState?]

theorem inStep_submitSlice (henv : env.IgnoresKeyForm) (h : s.KeyAlike s') (cfg : Config)
    (nowNs deadline : TimestampNs) (budget : Volume) (view : Option MarketDataView)
    (price : DPrice) :
    InStep Session.KeyAlike (s.submitSlice cfg env nowNs deadline budget view price)
      (s'.submitSlice cfg env nowNs deadline budget view price) := by
  -- A child that was sent uses up the slice.
  have hconsume : ∀ {sent : Bool} {t t' : Session}, t.KeyAlike t' →
      InStep Session.KeyAlike (pure (if sent then t.consumeSlice else t))
        (pure (if sent then t'.consumeSlice else t')) := by
    intro sent t t' ht
    refine Lockstep.pure ?_
    cases sent with
    | true => exact ht.consumeSlice
    | false => exact ht
  refine Lockstep.bind (S := World.Alike) (V := Session.KeyAlike) ?_ ?_
  · refine Lockstep.ite (by rw [h.sliceConsumed]) (fun _ => Lockstep.pure h) fun _ => ?_
    refine Lockstep.bind (inStep_tryActive henv h cfg _ _ _) ?_
    rintro _ _ ⟨active, ht⟩
    exact hconsume ht
  · intro s₁ s₁' hs₁
    refine Lockstep.ite (by rw [hs₁.sliceConsumed]) (fun _ => ?_) fun _ => Lockstep.pure hs₁
    refine Lockstep.bind (inStep_submitChild hs₁ _ _ _ _) ?_
    rintro _ _ ⟨sent, ht⟩
    exact hconsume ht

theorem inStep_endSlice (h : s.KeyAlike s') (now : TimestampNs) :
    InStep Session.KeyAlike (s.endSlice now) (s'.endSlice now) := by
  have hended : ∀ {t t' : Session}, t.KeyAlike t' →
      (if t.slicesExhausted ∧ ¬ t.hasWorkingChildren then
        { t with terminal := true } else t).KeyAlike
        (if t'.slicesExhausted ∧ ¬ t'.hasWorkingChildren then
          { t' with terminal := true } else t') := by
    intro t t' ht
    have hterminal := ht.setTerminal
    have hsession := ht
    obtain ⟨key, -, rfl⟩ := ht
    by_cases hend : t.slicesExhausted = true ∧ ¬ t.hasWorkingChildren = true
    · rw [if_pos hend]
      exact (if_pos (c := (t.withKey key).slicesExhausted = true ∧
        ¬ (t.withKey key).hasWorkingChildren = true) hend).symm ▸ hterminal
    · rw [if_neg hend]
      exact (if_neg (c := (t.withKey key).slicesExhausted = true ∧
        ¬ (t.withKey key).hasWorkingChildren = true) hend).symm ▸ hsession
  have hlast := hended h.advanceSliceIfReady
  simp only [Session.endSlice]
  refine Lockstep.ite ?_ (fun _ => Lockstep.pure hlast) fun _ => inStep_sync_pure hlast now
  obtain ⟨key, -, heq⟩ := hlast
  rw [heq]
  rfl

theorem inStep_tickTwap (henv : env.IgnoresKeyForm) (h : s.KeyAlike s') (cfg : Config)
    (nowNs : TimestampNs) :
    InStep Session.KeyAlike (s.tickTwap cfg env nowNs) (s'.tickTwap cfg env nowNs) := by
  have hfailed : (s.failed = true) ↔ (s'.failed = true) := by
    obtain ⟨key, -, rfl⟩ := h
    exact Iff.rfl
  refine Lockstep.ite hfailed (fun _ => inStep_sync_pure h.setTerminal _) fun _ => ?_
  have hnext := h.advanceSliceIfReady
  have hprice := hnext.resolveSubmitPrice henv cfg
  have hbudget := hnext.currentBudgetVolume
  have hstate := hnext.twapState?
  simp only
  -- Every decision of the tick reads parts of the session that have no key, or the price, which
  -- ignores its form.
  generalize s.advanceSliceIfReady = t at *
  generalize s'.advanceSliceIfReady = t' at *
  rw [hstate]
  split
  · exact Lockstep.pure hnext
  · have hworking : (t.hasWorkingChildren = true) ↔ (t'.hasWorkingChildren = true) := by
      obtain ⟨key, -, rfl⟩ := hnext
      exact Iff.rfl
    have hcancel : (t.cancelRequested = true) ↔ (t'.cancelRequested = true) := by
      obtain ⟨key, -, rfl⟩ := hnext
      exact Iff.rfl
    have hlast : (if t.hasWorkingChildren = true then t else { t with terminal := true }).KeyAlike
        (if t'.hasWorkingChildren = true then t' else { t' with terminal := true }) := by
      by_cases hwork : t.hasWorkingChildren = true
      · rw [if_pos hwork, if_pos (hworking.1 hwork)]
        exact hnext
      · rw [if_neg hwork, if_neg fun h => hwork (hworking.2 h)]
        exact hnext.setTerminal
    refine Lockstep.ite Iff.rfl (fun _ => inStep_sync_pure hlast _) fun _ => ?_
    refine Lockstep.ite hcancel (fun _ => inStep_finishIfIdle hnext _) fun _ => ?_
    refine Lockstep.ite (by rw [hbudget]) (fun _ => inStep_endSlice hnext _) fun _ => ?_
    rw [hprice, hbudget]
    split
    · exact inStep_sync_pure hnext _
    · exact Lockstep.bind (inStep_submitSlice henv hnext cfg _ _ _ _ _) fun s₁ s₁' hs₁ =>
        inStep_endSlice hs₁ _

theorem inStep_tick (henv : env.IgnoresKeyForm) (h : s.KeyAlike s') (cfg : Config)
    (nowNs : TimestampNs) :
    InStep Session.KeyAlike (s.tick cfg env nowNs) (s'.tick cfg env nowNs) := by
  refine Lockstep.bind (V := AnswersAlike Session.KeyAlike) (Lockstep.read ?_) ?_
  · rintro w _ ⟨book, sessions, shm, rfl, hbook, -, -⟩
    exact h.refreshParentState hbook
  rintro _ _ @⟨found, t, t', ht⟩
  refine Lockstep.ite Iff.rfl (fun _ => ?_) fun _ => inStep_sync_pure ht _
  have hplan : t'.plan = t.plan := by
    obtain ⟨key, -, rfl⟩ := ht
    rfl
  simp only [hplan]
  split
  · exact inStep_tickSequential henv ht cfg
  · exact inStep_tickTwap henv ht cfg nowNs

/-- A response reaches the ledgers, which hold no key. -/
theorem onTradeResponse_withKey (s : Session) (key : InternalSecurityId) (r : TradeResponse) :
    (s.withKey key).onTradeResponse r = ((s.onTradeResponse r).1.withKey key,
      (s.onTradeResponse r).2) := by
  have hledgers : (s.withKey key).childLedgers = s.childLedgers := rfl
  simp only [Session.onTradeResponse, hledgers]
  cases s.childLedgers.lookup r.internalOrderId with
  | none => rfl
  | some ledger =>
      simp only
      split
      · rfl
      split
      -- Closing a ledger reads and writes nothing that has a key.
      · have hfinish : ∀ l, (s.withKey key).finalizeFinishedChild r.internalOrderId
            l r.cancelledVolume =
            ((s.finalizeFinishedChild r.internalOrderId l r.cancelledVolume).1.withKey key,
              (s.finalizeFinishedChild r.internalOrderId l r.cancelledVolume).2) := by
          intro l
          have hset : ∀ l', (s.withKey key).setLedger r.internalOrderId l' =
              (s.setLedger r.internalOrderId l').withKey key := fun _ => rfl
          have hmarks : ∀ t : Session, (t.withKey key).cancelRequested = t.cancelRequested ∧
              (t.withKey key).hasWorkingChildren = t.hasWorkingChildren := fun _ => ⟨rfl, rfl⟩
          simp only [Session.finalizeFinishedChild, hset, (hmarks _).1, (hmarks _).2]
          split
          · rfl
          · rfl
        simp only [hfinish, advanceSliceIfReady_withKey]
      split
      · have hfailed :
            ∀ l, ({ (s.withKey key).setLedger r.internalOrderId l with failed := true } : Session) =
            ({ s.setLedger r.internalOrderId l with failed := true } : Session).withKey key :=
              fun _ => rfl
        simp only [hfailed, advanceSliceIfReady_withKey]
        rfl
      · rfl

theorem KeyAlike.onTradeResponse (h : s.KeyAlike s') (r : TradeResponse) :
    (s.onTradeResponse r).1.KeyAlike (s'.onTradeResponse r).1 ∧
      (s'.onTradeResponse r).2 = (s.onTradeResponse r).2 := by
  obtain ⟨key, hkey, rfl⟩ := h
  rw [onTradeResponse_withKey]
  refine ⟨⟨key, ?_, rfl⟩, rfl⟩
  rw [onTradeResponse_parentRequest]
  exact hkey

/-- The session of a request with another key. -/
theorem create_withKey (c : SplitConfig) (parentIndex : OrderIndex) (request : OrderRequest)
    (strategyId : StrategyId) (startTimeNs : TimestampNs) (key : InternalSecurityId) :
    Session.create c parentIndex (request.withKey key) strategyId startTimeNs =
      (Session.create c parentIndex request strategyId startTimeNs).map
        (Session.withKey · key) := by
  have hstrategy :
      resolveExecutionStrategy (request.withKey key) c = resolveExecutionStrategy request c := rfl
  have hvolume : (request.withKey key).volumeEntrust = request.volumeEntrust := rfl
  simp only [Session.create, hstrategy, hvolume]
  split
  · split <;> rfl
  · split <;> rfl
  · split
    · rfl
    · rw [Option.map_map]
      rfl
  · rfl
  · rfl

end Session

/-! ## The engine in lockstep -/

namespace Service

theorem inStep_findSession (parentId : InternalOrderId) :
    InStep (Option.Rel Session.KeyAlike) (findSession parentId) (findSession parentId) := by
  refine Lockstep.read ?_
  rintro w _ ⟨book, sessions, shm, rfl, -, hsessions, -⟩
  exact hsessions.lookup parentId

theorem inStep_storeSession {s s' : Session} (h : s.KeyAlike s') :
    InStep Eq (storeSession s) (storeSession s') := by
  have hsession := h
  obtain ⟨key, -, rfl⟩ := h
  refine Lockstep.modify ?_
  rintro w _ ⟨book, sessions, shm, rfl, hbook, hsessions, hpool⟩
  exact ⟨book, _, shm, rfl, hbook, hsessions.insert s.parentRequest.internalOrderId hsession, hpool⟩

theorem inStep_eraseSession (parentId : InternalOrderId) :
    InStep Eq (eraseSession parentId) (eraseSession parentId) := by
  refine Lockstep.modify ?_
  rintro w _ ⟨book, sessions, shm, rfl, hbook, hsessions, hpool⟩
  exact ⟨book, _, shm, rfl, hbook, hsessions.erase parentId, hpool⟩

variable {env : Env} (henv : env.IgnoresKeyForm)

include henv

theorem inStep_startSession (cfg : Config) (parentIndex : OrderIndex)
    {request request' : OrderRequest}
    (h : request.Alike request') (strategyId : StrategyId) (startTimeNs : TimestampNs) :
    InStep Eq (startSession cfg env parentIndex request strategyId startTimeNs)
      (startSession cfg env parentIndex request' strategyId startTimeNs) := by
  obtain ⟨key, hkey, rfl⟩ := h
  refine Lockstep.ite Iff.rfl (fun _ => inStep_pure _) fun _ => ?_
  refine Lockstep.bind (inStep_findSession _) ?_
  intro found found' hfound
  cases hfound with
  | some _ => exact inStep_pure _
  | none =>
      refine Lockstep.ite Iff.rfl (fun _ => inStep_pure _) fun _ => ?_
      refine Lockstep.ite Iff.rfl (fun _ => inStep_pure _) fun _ => ?_
      rw [Session.create_withKey]
      cases hcreate : Session.create cfg.splitConfig parentIndex request strategyId startTimeNs with
      | none => exact inStep_pure _
      | some session =>
          have hsession : session.KeyAlike (session.withKey key) := by
            refine ⟨key, ?_, rfl⟩
            rw [(Session.fresh_create hcreate).parentRequest]
            exact hkey
          refine Lockstep.bind (inStep_onBook _ fun hbook => hbook.markManagedParent _) ?_
          rintro marked _ rfl
          refine Lockstep.ite Iff.rfl (fun _ => ?_) fun _ => inStep_pure _
          refine Lockstep.bind (inStep_storeSession hsession) fun _ _ _ => ?_
          refine Lockstep.bind (Session.inStep_tick henv hsession cfg startTimeNs) ?_
          intro ticked ticked' hticked
          exact Lockstep.bind (inStep_storeSession hticked) fun _ _ _ => inStep_pure _

theorem inStep_tickSessions (cfg : Config) (nowNs : TimestampNs) (parents : List InternalOrderId) :
    InStep Eq (tickSessions cfg env nowNs parents) (tickSessions cfg env nowNs parents) := by
  induction parents with
  | nil => exact inStep_pure _
  | cons parentId rest ih =>
      refine Lockstep.bind (inStep_findSession parentId) ?_
      intro found found' hfound
      cases hfound with
      | none => exact ih
      | some hsession =>
          refine Lockstep.bind (Session.inStep_tick henv hsession cfg nowNs) ?_
          intro ticked ticked' hticked
          refine Lockstep.bind (inStep_storeSession hticked) fun _ _ _ => Lockstep.bind ih ?_
          rintro finished _ rfl
          obtain ⟨key, -, rfl⟩ := hticked
          exact inStep_pure _

theorem inStep_tickEngine (cfg : Config) (nowNs : TimestampNs) :
    InStep Eq (tickEngine cfg env nowNs) (tickEngine cfg env nowNs) := by
  refine Lockstep.bind (V := Eq) (Lockstep.read ?_) ?_
  · rintro w _ ⟨book, sessions, shm, rfl, -, hsessions, -⟩
    exact hsessions.keys.symm
  rintro parents _ rfl
  refine Lockstep.bind (inStep_tickSessions henv cfg nowNs parents) ?_
  rintro finished _ rfl
  exact Lockstep.forEach inStep_eraseSession finished

omit henv in
theorem inStep_engineOnTradeResponse (r : TradeResponse) :
    InStep Eq (engineOnTradeResponse r) (engineOnTradeResponse r) := by
  refine Lockstep.modify ?_
  rintro w _ ⟨book, sessions, shm, rfl, hbook, hsessions, hpool⟩
  have hparent : book.tryGetParent r.internalOrderId = w.book.tryGetParent r.internalOrderId := by
    obtain ⟨t, rfl, -⟩ := hbook
    rfl
  simp only [hparent]
  cases w.book.tryGetParent r.internalOrderId with
  | none => exact ⟨book, sessions, shm, rfl, hbook, hsessions, hpool⟩
  | some parentId =>
      have hlookup := hsessions.lookup parentId
      revert hlookup
      simp only
      generalize w.sessions.lookup parentId = found
      generalize sessions.lookup parentId = found'
      intro hlookup
      cases hlookup with
      | none => exact ⟨book, sessions, shm, rfl, hbook, hsessions, hpool⟩
      | some hsession =>
          obtain ⟨hs, htrace⟩ := hsession.onTradeResponse r
          exact ⟨book, _, shm, by simp only [htrace], hbook, hsessions.insert parentId hs, hpool⟩

end Service

end AccountServices
