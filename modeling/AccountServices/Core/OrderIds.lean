import AccountServices.Core.Invariant

/-!
# Order ids after a recovery

There are two counters for order ids, one in the book and one in the upstream memory. Recovery
raises the counter of the book above the ids that it found, but with an upstream memory every id is
drawn from the upstream counter, which recovery only reads. New ids are therefore different from the
recovered ones exactly when the upstream counter was above them already
(`recovered_ids_not_reused_iff`).
-/

set_option autoImplicit false

namespace AccountServices

open Foundation

/-! ## Drawing ids -/

/-- What draws ids after a recovery: the calls of the service, and clients that use the same
counter. -/
inductive Draw where
  | call (call : Env × Event)
  | client

def Draw.isClient : Draw → Bool
  | .call _ => false
  | .client => true

def World.draw (cfg : Config) (w : World) : Draw → World
  | .call call => w.step cfg call
  | .client => { w with upstreamNextOrderId := w.upstreamNextOrderId.map (· + 1) }

/-- The world after a sequence of draws. -/
def World.drawAll (cfg : Config) (w : World) (draws : List Draw) :
    World := draws.foldl (World.draw cfg) w

/-- The ids were drawn one after the other from `next`, with `clients` draws by clients between
them. -/
structure World.Drawn (next : InternalOrderId) (clients : Nat) (w : World) : Prop where
  counter : w.upstreamNextOrderId = some (next + UInt32.ofNat (w.allocated.length + clients))
  ids : ∀ id ∈ w.allocated, ∃ i < w.allocated.length + clients, id = next + UInt32.ofNat i

namespace World.Drawn

variable {next : InternalOrderId} {clients : Nat} {w : World}

/-- A draw of the service. -/
theorem allocate (h : w.Drawn next clients) : w.allocateOrderId.2.Drawn next clients := by
  have hcounter := h.counter
  simp only [World.allocateOrderId, hcounter]
  constructor
  · simp only [List.length_append, List.length_singleton]
    rw [Nat.add_right_comm, UInt32.ofNat_add _ 1, UInt32.add_assoc]
    rfl
  · intro id hid
    simp only [List.length_append, List.length_singleton]
    rcases List.mem_append.1 hid with hold | hnew
    · obtain ⟨i, hi, heq⟩ := h.ids id hold
      exact ⟨i, by omega, heq⟩
    · exact ⟨w.allocated.length + clients, by omega, List.mem_singleton.1 hnew⟩

/-- A draw of a client. -/
theorem client (h : w.Drawn next clients) (cfg : Config) :
    (w.draw cfg .client).Drawn next (clients + 1) := by
  constructor
  · rw [World.draw, h.counter, Option.map_some, ← Nat.add_assoc, UInt32.ofNat_add _ 1,
      ← UInt32.add_assoc]
    rfl
  · intro id hid
    obtain ⟨i, hi, heq⟩ := h.ids id hid
    exact ⟨i, Nat.lt_succ_of_lt hi, heq⟩

/-- Nothing but a draw touches the counter. -/
theorem stable (next : InternalOrderId) (clients : Nat) :
    HandlerStable (World.Drawn next clients) where
  shared _ _ _ _ _ h := ⟨h.counter, h.ids⟩
  nextOrderId _ h := h.allocate
  addOrder _ _ _ _ h := ⟨h.counter, h.ids⟩
  updateState _ _ _ _ h := ⟨h.counter, h.ids⟩
  engine _ _ _ h := ⟨h.counter, h.ids⟩
  markManagedParent _ _ h := ⟨h.counter, h.ids⟩
  syncManagedParentView _ _ _ _ _ h := ⟨h.counter, h.ids⟩
  beside _ _ _ _ _ h := ⟨h.counter, h.ids⟩
  annotate _ _ _ _ h := ⟨h.counter, h.ids⟩
  updateTrade _ _ _ _ _ _ _ h := ⟨h.counter, h.ids⟩
  settle _ _ _ h := ⟨h.counter, h.ids⟩
  archive _ _ h := ⟨h.counter, h.ids⟩

/-- A sequence of draws. -/
theorem drawAll (h : w.Drawn next clients) (cfg : Config) (draws : List Draw) :
    (w.drawAll cfg draws).Drawn next (clients + draws.countP Draw.isClient) := by
  induction draws generalizing w clients with
  | nil => exact h
  | cons draw draws ih =>
      cases draw with
      | call call =>
          rw [List.countP_cons_of_neg Bool.false_ne_true]
          exact ih (Service.preserves_program (stable next clients) cfg call.1 call.2 w h)
      | client =>
          rw [List.countP_cons_of_pos rfl, ← Nat.add_assoc, Nat.add_right_comm]
          exact ih (h.client cfg)

/-- As long as the counter has not wrapped, the ids are not below its start, nor the last one. -/
theorem id_range (h : w.Drawn next clients)
    (hwrap : next.toNat + (w.allocated.length + clients) < 2 ^ 32) {id : InternalOrderId}
    (hid : id ∈ w.allocated) : next.toNat ≤ id.toNat ∧ id.toNat < 2 ^ 32 - 1 := by
  obtain ⟨i, hi, rfl⟩ := h.ids id hid
  have hnat : (next + UInt32.ofNat i).toNat = next.toNat + i := by
    rw [UInt32.toNat_add, UInt32.toNat_ofNat']
    omega
  omega

end World.Drawn

/-! ## The recovered ids -/

/-- The id is that of a slot which recovery takes up. -/
def OrdersShm.Recoverable (shm : OrdersShm) (id : InternalOrderId) : Prop :=
  ∃ index slot, shm.readSnapshot index = some slot ∧ Recovery.eligible slot = true ∧
    slot.request.internalOrderId = id

/-- The recovered book holds exactly the ids of the recoverable slots. -/
theorem findOrder_recover_iff (shm : OrdersShm) (next : Option InternalOrderId) (now : TimestampNs)
    (id : InternalOrderId) :
    (recoverDownstreamActiveOrders shm next now OrderBook.empty).findOrder id ≠ none ↔
      shm.Recoverable id := by
  have hrecovered := recoveredFrom_recover shm next now
  constructor
  · intro hfound
    obtain ⟨entry, hentry⟩ := Option.ne_none_iff_exists'.1 hfound
    have hterms : (recoverDownstreamActiveOrders shm next now OrderBook.empty).terms id =
        some entry.terms := by
      rw [OrderBook.terms, hentry, Option.map_some]
    obtain ⟨index, ⟨⟨hread, heligible, hid⟩, _⟩, _⟩ := hrecovered.sound id _ hterms
    exact ⟨index, _, hread, heligible, hid⟩
  · rintro ⟨index, slot, hread, heligible, hid⟩ hnone
    obtain ⟨latest, hlatest⟩ := hrecovered.complete id ⟨index, slot⟩ ⟨hread, heligible, hid⟩
    have hterms := hrecovered.found id latest hlatest
    rw [OrderBook.terms, hnone, Option.map_none] at hterms
    cases hterms

/-- A recovered service: the book was filled from the pool, and no id was drawn yet. -/
structure World.Recovered (shm : OrdersShm) (next : InternalOrderId)
    (now : TimestampNs) (w : World) : Prop where
  book : w.book = recoverDownstreamActiveOrders shm (some next) now OrderBook.empty
  counter : w.upstreamNextOrderId = some next
  allocated : w.allocated = []

theorem exists_recovered (shm : OrdersShm) (next : InternalOrderId) (now : TimestampNs) :
    ∃ w : World, w.Recovered shm next now :=
  ⟨{ World.start {} {} shm with
      book := recoverDownstreamActiveOrders shm (some next) now OrderBook.empty
      upstreamNextOrderId := some next }, ⟨rfl, rfl, rfl⟩⟩

/-- No id that the service draws later, as long as the counter has not wrapped, is one of the
recovered orders. -/
def NoRecoveredIdReused (shm : OrdersShm) (next : InternalOrderId) (now : TimestampNs) : Prop :=
  ∀ (cfg : Config) (w : World), w.Recovered shm next now → ∀ draws : List Draw,
    next.toNat + ((w.drawAll cfg draws).allocated.length + draws.countP Draw.isClient) < 2 ^ 32 →
      ∀ id ∈ (w.drawAll cfg draws).allocated, w.book.findOrder id = none

/-- Clients draw until the counter stands at a given id. -/
theorem drawAll_clients (cfg : Config) (w : World) {next : InternalOrderId}
    (hcounter : w.upstreamNextOrderId = some next) (n : Nat) :
    w.drawAll cfg (List.replicate n .client) =
      { w with upstreamNextOrderId := some (next + UInt32.ofNat n) } := by
  induction n generalizing w next with
  | zero =>
      rw [List.replicate_zero]
      change w = _
      have hzero : next + UInt32.ofNat 0 = next := UInt32.add_zero next
      rw [hzero, ← hcounter]
  | succ n ih =>
      rw [List.replicate_succ]
      have hstep : (w.draw cfg .client).upstreamNextOrderId = some (next + 1) := by
        rw [World.draw, hcounter]
        rfl
      change (w.draw cfg .client).drawAll cfg _ = _
      rw [ih (w.draw cfg .client) hstep, UInt32.add_assoc, Nat.add_comm n 1, UInt32.ofNat_add 1 n]
      rfl

/-- A request without an id takes the next one; when the book has that id already, the request ends
there. -/
theorem allocated_orderRequest {w : World} {next : InternalOrderId}
    (hcounter : w.upstreamNextOrderId = some next) (htaken : w.book.findOrder next ≠ none) :
    (w.step {} ({}, .orderRequest kInvalidOrderIndex {})).allocated = w.allocated ++ [next] := by
  -- The id is drawn and written to the slot.
  have hassign : ∃ shm, (Service.assignOrderId {} kInvalidOrderIndex {}).run w =
      ({ internalOrderId := next },
        { w with
          upstreamNextOrderId := some (next + 1)
          allocated := w.allocated ++ [next]
          ordersShm := shm }) := by
    have hdraw : w.allocateOrderId =
        (next, { w with
          upstreamNextOrderId := some (next + 1), allocated := w.allocated ++ [next] }) := by
      rw [World.allocateOrderId, hcounter]
    obtain ⟨shm, hshm⟩ := World.onOrdersShm_eq w.allocateOrderId.2
      (.writeSlot kInvalidOrderIndex) false
      fun shm => shm.syncOrder kInvalidOrderIndex { internalOrderId := next } 0
    rw [hdraw] at hshm
    refine ⟨shm, ?_⟩
    simp only [Service.assignOrderId, if_true, Program.run_bind, Service.allocateInternalOrderId,
      Program.run_atomic, hdraw, Service.syncOrder]
    rw [hshm]
    rfl
  -- The book refuses the second order with the id.
  have hrefused : ∀ entry : OrderEntry, entry.request.internalOrderId = next →
      (w.book.addOrder entry 0).ok = false := by
    intro entry hid
    cases hok : (w.book.addOrder entry 0).ok with
    | false => rfl
    | true =>
        have hfree := ((OrderBook.addOrder_ok_iff w.book entry 0).1 hok).2.1
        rw [hid] at hfree
        exact absurd hfree htaken
  obtain ⟨shm, hassign⟩ := hassign
  have hkey : ({} : OrderRequest).lacksKey = false := rfl
  simp only [World.step, Event.program, Service.handleOrderRequest, hkey,
    Bool.false_eq_true, if_false, Service.admitOrder, Program.run_bind]
  rw [hassign]
  simp only [Service.addOrder, Service.run_onBook]
  rw [hrefused _ rfl, if_neg Bool.false_ne_true]
  simp only [Program.run_bind, Service.updateStage, Program.run_pure, Service.run_recordError]
  obtain ⟨shm', hstage⟩ :=
    World.onOrdersShm_eq _ (.setStage kInvalidOrderIndex .queuePushFailed) false
    fun shm => shm.updateStage kInvalidOrderIndex .queuePushFailed 0
  rw [hstage, World.allocated_applyBook]

/-- Clients draw up to a recovered id, and the service draws that id. -/
theorem drawAll_reuses {shm : OrdersShm} {next : InternalOrderId} {now : TimestampNs} {w : World}
    (hw : w.Recovered shm next now) {id : InternalOrderId} (hid : shm.Recoverable id)
    (hge : next.toNat ≤ id.toNat) :
    (w.drawAll {} (List.replicate (id.toNat - next.toNat) .client ++
      [.call ({}, .orderRequest kInvalidOrderIndex {})])).allocated = [id] := by
  have hcounter : next + UInt32.ofNat (id.toNat - next.toNat) = id := by
    rw [← UInt32.toNat_inj, UInt32.toNat_add, UInt32.toNat_ofNat']
    have hlt := id.toNat_lt
    omega
  have htaken : w.book.findOrder id ≠ none := by
    rw [hw.book]
    exact (findOrder_recover_iff shm (some next) now id).2 hid
  have hclients := drawAll_clients {} w hw.counter (id.toNat - next.toNat)
  rw [hcounter] at hclients
  have hlast : (World.step {} (w.drawAll {} (List.replicate (id.toNat - next.toNat) .client))
      ({}, .orderRequest kInvalidOrderIndex {})).allocated = w.allocated ++ [id] := by
    rw [hclients]
    exact allocated_orderRequest rfl htaken
  rw [hw.allocated, List.nil_append] at hlast
  rw [World.drawAll, List.foldl_append]
  exact hlast

/-- After a recovery, no id that the service draws before the counter wraps is one of the recovered
orders if and only if no recoverable slot of the pool has an id between the counter of the upstream
memory and the last id, which is never drawn. -/
theorem recovered_ids_not_reused_iff (shm : OrdersShm) (next : InternalOrderId)
    (now : TimestampNs) : NoRecoveredIdReused shm next now ↔
      ∀ id, shm.Recoverable id → id < next ∨ id = 0xFFFFFFFF := by
  constructor
  -- An id at or above the counter is drawn again once the clients have taken those below it.
  · intro hfresh id hid
    by_contra hrange
    rw [not_or, UInt32.not_lt] at hrange
    obtain ⟨hge, hlast⟩ := hrange
    have hgeNat := UInt32.le_iff_toNat_le.1 hge
    have hidNat : id.toNat < 2 ^ 32 - 1 := by
      have hlt := id.toNat_lt
      have hne : id.toNat ≠ 4294967295 := fun heq => hlast (UInt32.toNat_inj.1 heq)
      omega
    obtain ⟨w, hw⟩ := exists_recovered shm next now
    have hallocated := drawAll_reuses hw hid hgeNat
    have hunused := hfresh {} w hw (List.replicate (id.toNat - next.toNat) .client ++
      [.call ({}, .orderRequest kInvalidOrderIndex {})])
    rw [hallocated] at hunused
    have hnone := hunused (by simp [List.countP_replicate, Draw.isClient]; omega) id
      (List.mem_singleton.2 rfl)
    rw [hw.book] at hnone
    exact (findOrder_recover_iff shm (some next) now id).2 hid hnone
  -- What is drawn lies between the counter and the last id, and no recovered order is there.
  · intro hbelow cfg w hw draws hwrap id hid
    have hstart : w.Drawn next 0 := by
      constructor
      · rw [hw.counter, hw.allocated]
        exact congrArg some (UInt32.add_zero next).symm
      · intro id' hid'
        rw [hw.allocated] at hid'
        cases hid'
    have hdrawn := hstart.drawAll cfg draws
    rw [Nat.zero_add] at hdrawn
    obtain ⟨hge, hlt⟩ := hdrawn.id_range hwrap hid
    by_contra hfound
    rw [hw.book] at hfound
    rcases hbelow id ((findOrder_recover_iff shm (some next) now id).1 hfound) with hlow | hlast
    · exact absurd (UInt32.lt_iff_toNat_lt.1 hlow) (Nat.not_lt.2 hge)
    · rw [hlast] at hlt
      exact absurd hlt (by decide)

/-- A pool with an order 1 at the gateway. -/
def gatewayPool : OrdersShm :=
  ((OrdersShm.ofClients [.ofClient 1 .buy 100 10]).updateStage 0 .downstreamQueued 0).2

/-- The service recovered from that pool, with an upstream memory whose counter starts again. -/
def renumbered : World :=
  { World.start {} {} gatewayPool with
    book := recoverDownstreamActiveOrders gatewayPool (some 1) 0 OrderBook.empty
    upstreamNextOrderId := some 1 }

/-- The next request without an id is given the id of the recovered order. -/
theorem recovered_id_drawn_again :
    renumbered.Recovered gatewayPool 1 0 ∧ (renumbered.book.findOrder 1).isSome = true ∧
      renumbered.book.nextOrderId = 2 ∧
      (renumbered.step {} ({}, .orderRequest 1 (.ofClient 0 .buy 100 10))).allocated = [1] ∧
      ¬NoRecoveredIdReused gatewayPool 1 0 := by
  have hfound : (renumbered.book.findOrder 1).isSome = true := by decide
  have hallocated :
      (renumbered.step {} ({}, .orderRequest 1 (.ofClient 0 .buy 100 10))).allocated =
        [1] := by decide
  refine ⟨⟨rfl, rfl, rfl⟩, hfound, by decide, hallocated, ?_⟩
  intro hfresh
  have hunused := hfresh {} renumbered ⟨rfl, rfl, rfl⟩
    [.call ({}, .orderRequest 1 (.ofClient 0 .buy 100 10))]
  change _ → ∀ id ∈ (renumbered.step {} ({}, .orderRequest 1 (.ofClient 0 .buy 100 10))).allocated,
    _ at hunused
  rw [hallocated] at hunused
  have hnone := hunused (by decide) 1 (List.mem_singleton.2 rfl)
  rw [hnone] at hfound
  exact absurd hfound (by decide)

end AccountServices
