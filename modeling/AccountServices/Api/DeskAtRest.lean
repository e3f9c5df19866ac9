import AccountServices.Order.LatestSnapshots
import AccountServices.Api.Desk

/-!
# A desk at rest

A client may come to a service that has run for any time, with the orders of earlier clients in its
book, its pool and its queue. What it needs to find is said here of the desk as it stands. A new
service has it, every turn of the service and the gateway keeps it, and so does a restart, as long
as the slots behind the gateway tell what is left of their orders.
-/

set_option autoImplicit false

namespace AccountServices

open Foundation

namespace Desk

variable {first : InternalOrderId} {d : Desk}

/-- A desk to which a client may come: the pool mirrors the book, the orders in the queue have slots
of their own that were not sent, and every id that was drawn since `first` was drawn once. -/
structure AtRest (first : InternalOrderId) (d : Desk) : Prop where
  mirrored : d.world.Mirrored (d.held ∅)
  distinct : d.upstream.toList.Nodup
  pushed : d.world.pushed.Nodup
  sent : ∀ i ∈ d.world.pushed, i ∉ d.upstream.toList ∧
    ∀ shm, d.world.ordersShm = some shm → shm.indexExists i = true
  numbered : d.world.Numbered first d.drawn

/-- What the service will find in the slots whose indices are in its queue. -/
def waiting (d : Desk) : List OrderRequest :=
  d.upstream.toList.filterMap fun index =>
    (d.world.ordersShm.bind fun shm => shm.readSnapshot index).map OrderSlot.request

theorem Sound.waiting_eq {earlier : List OrderRequest} {mine : Set OrderIndex}
    {wrote : OrderIndex → OrderRequest}
    {orders : List OrderRequest} (h : d.Sound earlier mine wrote orders) :
    d.waiting = d.upstream.toList.map wrote := by
  obtain ⟨shm, hmirrored⟩ := h.keeps.mirrored
  rw [Desk.waiting, ← List.filterMap_eq_map]
  refine List.filterMap_congr fun index hindex => ?_
  have hheld : index ∈ d.held mine := Or.inr hindex
  rw [hmirrored.attached, Option.bind_some, OrdersShm.readSnapshot,
    if_pos (hmirrored.held_exists index hheld),
    Option.map_some, h.keeps.contents shm hmirrored.attached index hheld]
  rfl

/-- The requests that wait in the queue of a desk at rest are the first of a session. -/
theorem AtRest.sound (h : d.AtRest first) : ∃ wrote, d.Sound d.received ∅ wrote d.waiting := by
  obtain ⟨shm, hmirrored⟩ := h.mirrored
  have hkeeps : d.world.Keeps (d.held ∅) (d.held ∅) fun i => (shm.slots i).request := by
    refine ⟨h.mirrored, fun shm' hshm' i _ => ?_⟩
    obtain rfl := Option.some.inj (hmirrored.attached.symm.trans hshm')
    rfl
  have hsends : d.world.SendsOnce (d.held ∅) (d.held ∅) {i | i ∈ []} fun i =>
      (shm.slots i).request := by
    refine ⟨h.mirrored, h.pushed, fun shm' hshm' i hi => ?_, fun i hi hin => ?_, fun _ _ i hi => ?_⟩
    · rcases hi with hi | hi | hi
      · exact (h.sent i hi).2 shm' hshm'
      · exact h.mirrored.exists_held hshm' hi
      · exact absurd hi List.not_mem_nil
    · exact (h.sent i hi).1 (hin.resolve_left (Set.notMem_empty i))
    · exact absurd hi List.not_mem_nil
  have hsound : ∀ orders, d.upstream.toList.map (fun i => (shm.slots i).request) = orders →
      d.Sound d.received ∅ (fun i => (shm.slots i).request) orders := by
    intro orders horders
    refine ⟨hkeeps, h.distinct, fun i _ => Set.notMem_empty i, ?_, [], ?_, ?_, ?_, hsends⟩
    · rw [horders]
    · rw [List.map_nil, List.append_nil]
    · rw [List.nil_append]
      exact h.distinct
    · exact fun i hi => absurd hi List.not_mem_nil
  exact ⟨_, hsound _ (hsound _ rfl).waiting_eq.symm⟩

theorem Sound.atRest {earlier : List OrderRequest} {wrote : OrderIndex → OrderRequest}
    {orders : List OrderRequest}
    (h : d.Sound earlier ∅ wrote orders) (hnumbered : d.world.Numbered first d.drawn) :
    d.AtRest first := by
  obtain ⟨taken, hsent⟩ := h.sent
  exact ⟨h.keeps.mirrored, h.distinct, hsent.sends.once, fun i hi =>
    ⟨fun hin => hsent.sends.apart i hi (Or.inr hin), fun shm hshm =>
      hsent.sends.known shm hshm i (Or.inl hi)⟩,
    hnumbered⟩

/-- The service and the gateway leave a desk at rest. -/
theorem AtRest.turn {cfg : Config} {d' : Desk} (h : d.AtRest first) (hturn : Turn cfg d d') :
    d'.AtRest first := by
  obtain ⟨wrote, hsound⟩ := h.sound
  obtain ⟨hdrawn, hnumbered⟩ : d'.drawn = d.drawn ∧
      (d.world.Numbered first d.drawn → d'.world.Numbered first d.drawn) := numbered_turn hturn
  refine (hsound.turn hturn).atRest ?_
  rw [hdrawn]
  exact hnumbered h.numbered

/-- The desk before the first client. -/
structure Open (first : InternalOrderId) (d : Desk) : Prop where
  book : d.world.book = OrderBook.empty
  pool : d.world.ordersShm.isSome = true
  upstream : d.upstream.toList = []
  pushed : d.world.pushed = []
  counter : d.world.upstreamNextOrderId = some first
  drawn : d.drawn = []
  allocated : d.world.allocated = []

theorem Open.atRest (h : d.Open first) : d.AtRest first := by
  obtain ⟨shm, hshm⟩ := Option.isSome_iff_exists.1 h.pool
  have hempty : ∀ k, d.world.book.findOrder k = none := by
    intro k
    rw [h.book]
    rfl
  refine ⟨⟨shm, hshm, ?_, ?_, ?_, ?_, ?_⟩, ?_, ?_, ?_, ⟨?_, ?_⟩⟩
  all_goals simp [held, h.upstream, hempty, h.pushed, h.counter, h.drawn, h.allocated]

end Desk

/-! ## A restart -/

/-- What is left of a New is counted: it is recovered as its slot has it. -/
def OrderRequest.CountsRemain (r : OrderRequest) : Prop :=
  r.orderType = .new → r.volumeRemain = 0 → r.volumeEntrust ≤ r.volumeTraded

instance (r : OrderRequest) : Decidable r.CountsRemain :=
  inferInstanceAs (Decidable (_ → _ → _))

theorem Recovery.request_bookEntry (c : RecoveredOrderCandidate) (now : TimestampNs)
    (hcounts : c.snapshot.request.CountsRemain) :
    (bookEntry c now).request = c.snapshot.request := by
  by_cases hfill : c.snapshot.request.orderType = .new ∧ c.snapshot.request.volumeRemain = 0 ∧
      c.snapshot.request.volumeTraded ≤ c.snapshot.request.volumeEntrust
  · have hfilled : (bookEntry c now).request = { c.snapshot.request with
        volumeRemain := c.snapshot.request.volumeEntrust - c.snapshot.request.volumeTraded } :=
          if_pos hfill
    obtain ⟨hnew, hzero, hle⟩ := hfill
    have hnone : c.snapshot.request.volumeEntrust - c.snapshot.request.volumeTraded =
        c.snapshot.request.volumeRemain := by
      rw [hzero, UInt64.le_antisymm (hcounts hnew hzero) hle]
      exact UInt64.sub_self _
    rw [hfilled, hnone]
  · exact if_neg hfill

/-- The recovered book is mirrored by the pool that it was recovered from, as long as no slot in
`held` qualifies and the slots that do know what is left of their orders. -/
theorem World.mirrored_restart {w : World} {shm : OrdersShm} {held : Set OrderIndex}
    (hshm : w.ordersShm = some shm) (load : PositionManager → Bool × PositionManager)
    (now : TimestampNs)
    (hheld : ∀ i ∈ held, shm.indexExists i = true ∧ Recovery.eligible (shm.slots i) = false)
    (hcounts : ∀ i, shm.indexExists i = true → Recovery.eligible (shm.slots i) = true →
      (shm.slots i).request.CountsRemain) : (w.restart load now).Mirrored held := by
  -- a recovered order is the request of its slot
  have hfrom : ∀ k e, (w.restart load now).book.findOrder k = some e →
      shm.indexExists e.shmOrderIndex = true ∧
        Recovery.eligible (shm.slots e.shmOrderIndex) = true ∧
        (shm.slots e.shmOrderIndex).request.internalOrderId = k ∧
          (shm.slots e.shmOrderIndex).request = e.request := by
    intro k e he
    have hbook : (w.restart load now).book =
        recoverDownstreamActiveOrders shm w.upstreamNextOrderId now OrderBook.empty := by
      simp only [World.restart, hshm]
    rw [hbook, Recovery.recoverDownstreamActiveOrders_eq] at he
    obtain ⟨index, hlatest, rfl⟩ :=
      (Recovery.findOrder_recoverInOrder_iff (List.Perm.refl _) w.upstreamNextOrderId now k e).1 he
    have hcandidate : Recovery.Candidate (Recovery.masked shm fun _ => true) k
        ⟨index, shm.slots index⟩ :=
      (Recovery.candidate_masked_iff shm _ k ⟨index, shm.slots index⟩).2 ⟨hlatest.eligible, rfl⟩
    obtain ⟨-, heligible, hid⟩ := hcandidate
    have hexists := (Recovery.indexExists_iff shm index).2 hlatest.eligible.allocated
    exact ⟨hexists, heligible, hid, (Recovery.request_bookEntry ⟨index, shm.slots index⟩ now
      (hcounts index hexists heligible)).symm⟩
  refine ⟨shm, hshm, fun i hi => (hheld i hi).1, fun k e he _ =>
    (hfrom k e he).1, fun k e he _ hin => ?_,
    fun k k' e e' he he' _ hindex => ?_, fun k e _ he _ => (hfrom k e he).2.2.2⟩
  · -- a slot that qualifies is not held
    have heligible := (hfrom k e he).2.1
    rw [(hheld _ hin).2] at heligible
    exact Bool.noConfusion heligible
  · -- a slot has one id
    rw [← (hfrom k e he).2.2.1, hindex]
    exact (hfrom k' e' he').2.2.1

namespace Desk

/-- The service starts again while its clients wait. The ids that the book has drawn are drawn for
good. -/
def restart (load : PositionManager → Bool × PositionManager) (now : TimestampNs) (d : Desk) :
    Desk :=
  { d with world := d.world.restart load now, drawn := d.drawn ++ d.world.allocated }

/-- What a restart has to find: the orders behind the gateway know what is left of them, and none
has a slot that waits in the queue. -/
def Recoverable (d : Desk) : Prop :=
  ∀ shm, d.world.ordersShm = some shm → ∀ i, shm.indexExists i = true →
    Recovery.eligible (shm.slots i) = true →
    i ∉ d.upstream.toList ∧ (shm.slots i).request.CountsRemain

theorem AtRest.restart {first : InternalOrderId} {d : Desk} (h : d.AtRest first)
    (hrecoverable : d.Recoverable)
    (load : PositionManager → Bool × PositionManager) (now : TimestampNs) :
    (d.restart load now).AtRest first := by
  obtain ⟨shm, hmirrored⟩ := h.mirrored
  have hshm := hmirrored.attached
  refine ⟨World.mirrored_restart hshm load now (fun i hi => ?_) fun i hexists heligible =>
    (hrecoverable shm hshm i hexists heligible).2, h.distinct, h.pushed, h.sent, ⟨?_, ?_⟩⟩
  · have hexists := hmirrored.held_exists i hi
    refine ⟨hexists, Bool.eq_false_iff.2 fun heligible => ?_⟩
    exact (hrecoverable shm hshm i hexists heligible).1 (hi.resolve_left (Set.notMem_empty i))
  · have hcounter := h.numbered.counter
    rw [← List.length_append] at hcounter
    exact hcounter
  · have hids := h.numbered.ids
    rw [← List.length_append] at hids
    simp only [Desk.restart, World.restart, List.append_nil, List.length_nil, Nat.add_zero]
    exact hids

end Desk

end AccountServices
