import AccountServices.Core.OrderIds
import AccountServices.Core.SentSlots
import AccountServices.Api.OrderApi

/-!
# The service between its client and the gateway

The desk while a client makes its calls: between two accesses of the client the service takes orders
and responses, runs its timers, and the gateway works on its side. What the client was told decides
what the service is given: every request that was placed reaches `handle_order_request` once, in
order and as it was written, and a request that was refused never does.
-/

set_option autoImplicit false

namespace AccountServices

open Foundation

/-! ## What the service and the gateway do -/

namespace Desk

/-- An iteration of the loop in `process_upstream_orders`: nothing when the queue is empty, and
otherwise whether the slot of the index could be read. -/
def takeOrder (cfg : Config) (env : Env) (d : Desk) : Option Bool × Desk :=
  match d.upstream.tryPop with
  | (none, _) => (none, d)
  | (some index, q) =>
      let snapshot := d.world.ordersShm.bind fun shm => shm.readSnapshot index
      (some snapshot.isSome,
        { d with
          upstream := q
          world := ((Service.processUpstreamOrder cfg env index).run d.world).2
          received := d.received ++ (snapshot.map OrderSlot.request).toList })

/-- An iteration of the loop in `process_downstream_responses`. -/
def takeResponse (cfg : Config) (env : Env) (d : Desk) : Bool × Desk :=
  match d.responses.tryPop with
  | (none, _) => (false, d)
  | (some response, q) =>
      (true,
        { d with
          responses := q
          world := ((Service.handleTradeResponse cfg env response).run d.world).2 })

/-- A step of the other side of the desk: the service, which is not interrupted within a call, or
the gateway. -/
inductive Turn (cfg : Config) : Desk → Desk → Prop
  | order (d : Desk) (env : Env) : Turn cfg d (d.takeOrder cfg env).2
  | response (d : Desk) (env : Env) : Turn cfg d (d.takeResponse cfg env).2
  | call (d : Desk) (env : Env) {event : Event} (htaken : event.taken = ∅) :
      Turn cfg d { d with world := d.world.step cfg (env, event) }
  | gateway {d : Desk} {w : World} (hstep : d.world.GatewayStep w) :
      Turn cfg d { d with world := w }
  | respond (d : Desk) (response : TradeResponse) :
      Turn cfg d { d with responses := (d.responses.tryPush response).2 }

/-- Any number of steps of the service and the gateway. -/
def Busy (cfg : Config) (_ : ApiAccess) (d d' : Desk) :
    Prop := Relation.ReflTransGen (Turn cfg) d d'

/-- What every turn keeps is not ended by the service or the gateway. -/
theorem steady_busy {cfg : Config} {P : Desk → Prop} (hturn : ∀ d d', Turn cfg d d' → P d → P d') :
    Steady (Busy cfg) P := by
  intro _ d d' hbusy hd
  induction hbusy with
  | refl => exact hd
  | tail _ hstep ih => exact hturn _ _ hstep ih

/-! ## The slots on their way -/

/-- The slots that the service has not taken yet: those that the client has to itself, and those in
the queue. -/
def held (mine : Set OrderIndex) (d : Desk) :
    Set OrderIndex := {i | i ∈ mine ∨ i ∈ d.upstream.toList}

/-- The slots that the service has taken since it had received the requests in `earlier` are those
in `taken`, in their order. -/
structure Sent (earlier : List OrderRequest) (mine : Set OrderIndex)
    (wrote : OrderIndex → OrderRequest) (taken : List OrderIndex) (d : Desk) : Prop where
  received : d.received = earlier ++ taken.map wrote
  once : (taken ++ d.upstream.toList).Nodup
  gone : ∀ i ∈ taken, i ∉ mine
  sends : d.world.SendsOnce (d.held mine) (d.held mine) {i | i ∈ taken} wrote

/-- The slots in the queue contain what the clients wrote, and with what the service has received
since `earlier` these are the requests in `orders`. A client may have slots in `mine` beside
them. -/
structure Sound (earlier : List OrderRequest) (mine : Set OrderIndex)
    (wrote : OrderIndex → OrderRequest) (orders : List OrderRequest) (d : Desk) : Prop where
  keeps : d.world.Keeps (d.held mine) (d.held mine) wrote
  distinct : d.upstream.toList.Nodup
  apart : ∀ i ∈ d.upstream.toList, i ∉ mine
  orders : d.received ++ d.upstream.toList.map wrote = earlier ++ orders
  sent : ∃ taken, d.Sent earlier mine wrote taken

variable {earlier : List OrderRequest} {mine : Set OrderIndex} {wrote : OrderIndex → OrderRequest}
  {orders : List OrderRequest} {d : Desk}

/-- The responses and the ids that the client has drawn do not matter. -/
theorem Sound.frame (h : d.Sound earlier mine wrote orders) {d' : Desk}
    (hworld : d'.world = d.world)
    (hupstream : d'.upstream = d.upstream) (hreceived : d'.received = d.received) :
    d'.Sound earlier mine wrote orders := by
  obtain ⟨world, upstream, responses, drawn, received⟩ := d'
  subst hworld hupstream hreceived
  obtain ⟨hkeeps, hdistinct, hapart, horders, taken, hsent⟩ := h
  exact ⟨hkeeps, hdistinct, hapart, horders, taken, hsent.received, hsent.once,
    hsent.gone, hsent.sends⟩

/-- The world changes, and the queue of the client does not. -/
theorem Sound.world (h : d.Sound earlier mine wrote orders) {w : World}
    (hw : w.Keeps (d.held mine) (d.held mine) wrote)
    (hsends : ∀ taken, d.world.SendsOnce (d.held mine) (d.held mine) taken wrote →
      w.SendsOnce (d.held mine) (d.held mine) taken wrote) :
      Sound earlier mine wrote orders { d with world := w } := by
  obtain ⟨taken, hsent⟩ := h.sent
  exact ⟨hw, h.distinct, h.apart, h.orders, taken, hsent.received, hsent.once, hsent.gone,
    hsends _ hsent.sends⟩

/-- What leaves the book, the pool and the pushed indices alone. -/
theorem Sound.aside (h : d.Sound earlier mine wrote orders) {w : World}
    (hbook : w.book = d.world.book)
    (hshm : w.ordersShm = d.world.ordersShm) (hpushed : w.pushed = d.world.pushed) :
    Sound earlier mine wrote orders { d with world := w } := by
  have hfind : ∀ k, w.book.findOrder k = d.world.book.findOrder k := fun k => by rw [hbook]
  exact h.world (h.keeps.congr hfind hshm) fun _ hsends => hsends.congr hfind hshm hpushed

theorem takeOrder_none (cfg : Config) (env : Env) (hpop : d.upstream.tryPop.1 = none) :
    d.takeOrder cfg env = (none, d) := by
  have heq : d.upstream.tryPop = (none, d.upstream.tryPop.2) := Prod.ext hpop rfl
  rw [takeOrder, heq]

/-- The service takes a slot that it can read. -/
theorem takeOrder_some (cfg : Config) (env : Env) {index : OrderIndex} {slot : OrderSlot}
    (hpop : d.upstream.tryPop.1 = some index)
    (hread : (d.world.ordersShm.bind fun shm => shm.readSnapshot index) = some slot) :
    d.takeOrder cfg env = (some true,
      { d with
        upstream := d.upstream.tryPop.2
        world := ((Service.processUpstreamOrder cfg env index).run d.world).2
        received := d.received ++ [slot.request] }) := by
  have heq : d.upstream.tryPop = (some index, d.upstream.tryPop.2) := Prod.ext hpop rfl
  rw [takeOrder, heq]
  simp only [hread]
  rfl

theorem Sound.takeOrder (h : d.Sound earlier mine wrote orders) (cfg : Config) (env : Env) :
    (d.takeOrder cfg env).2.Sound earlier mine wrote orders := by
  cases hpop : d.upstream.tryPop.1 with
  | none =>
      rw [takeOrder_none cfg env hpop]
      exact h
  | some index =>
      have hlist := SpscQueue.toList_tryPop hpop
      set q := d.upstream.tryPop.2
      have hdistinct := h.distinct
      rw [hlist, List.nodup_cons] at hdistinct
      have hmem : index ∈ d.held mine := Or.inr (hlist ▸ List.mem_cons_self)
      have hrest : ∀ i ∈ q.toList, i ∈ d.upstream.toList := fun i hi =>
        hlist ▸ List.mem_cons_of_mem index hi
      have hkept : {i | i ∈ mine ∨ i ∈ q.toList} ⊆ d.held mine := fun i hi => hi.imp_right (hrest i)
      have hout : index ∉ {i | i ∈ mine ∨ i ∈ q.toList} := by
        rintro (hmine | hin)
        · exact h.apart index (hlist ▸ List.mem_cons_self) hmine
        · exact hdistinct.1 hin
      -- the service finds the request of the client in the slot
      obtain ⟨shm, hmirrored⟩ := h.keeps.mirrored
      have hsnapshot : (d.world.ordersShm.bind fun shm => shm.readSnapshot index) =
          some (shm.slots index) := by
        rw [hmirrored.attached, Option.bind_some, OrdersShm.readSnapshot,
          if_pos (hmirrored.held_exists index hmem)]
      have hrequest := h.keeps.contents shm hmirrored.attached index hmem
      have hafter := Service.keeps_processUpstreamOrder hkept cfg env hmem hout
        (h.keeps.forget hkept)
      rw [takeOrder_some cfg env hpop hsnapshot]
      have hleft : {i | i ∈ mine ∨ i ∈ q.toList} ⊆ d.held mine \ {index} :=
        fun i hi => ⟨hkept hi, fun heq => hout (Set.mem_singleton_iff.1 heq ▸ hi)⟩
      refine ⟨hafter.mono hleft, hdistinct.2, fun i hi => h.apart i (hrest i hi), ?_, ?_⟩
      · rw [← h.orders, hlist, List.map_cons, ← hrequest, List.append_assoc]
        rfl
      · -- the index joins those that were taken
        obtain ⟨taken, hsent⟩ := h.sent
        have hsends := Service.sends_processUpstreamOrder cfg env hmem hmem
          (fun shm' hshm' => h.keeps.contents shm' hshm' index hmem) hsent.sends
        refine ⟨taken ++ [index], ?_, ?_, fun i hi hmine => ?_, ?_⟩
        · rw [List.map_append, List.map_singleton, ← List.append_assoc,
            ← hsent.received, ← hrequest]
        · rw [List.append_assoc, List.singleton_append, ← hlist]
          exact hsent.once
        · rcases List.mem_append.1 hi with hi | hi
          · exact hsent.gone i hi hmine
          · exact h.apart index (hlist ▸ List.mem_cons_self) (List.mem_singleton.1 hi ▸ hmine)
        · refine hsends.mono hleft hleft fun i hi => ?_
          rcases List.mem_append.1 hi with hi | hi
          · exact Set.mem_insert_of_mem _ hi
          · exact List.mem_singleton.1 hi ▸ Set.mem_insert _ _

theorem Sound.takeResponse (h : d.Sound earlier mine wrote orders) (cfg : Config) (env : Env) :
    (d.takeResponse cfg env).2.Sound earlier mine wrote orders := by
  rw [Desk.takeResponse]
  split
  · exact h
  next response q _ =>
    have hworld := (Service.keeps_handlerRules (subset_refl _)).handleTradeResponse cfg
      env response _ h.keeps
    have hsound := h.world hworld fun _ hsends =>
      (Service.sends_callRules _ _ _ _).handleTradeResponse cfg env response _ hsends
    exact hsound.frame rfl rfl rfl

/-- No turn of the service or the gateway loses, repeats, reorders or changes a request. -/
theorem Sound.turn {cfg : Config} {d' : Desk} (h : d.Sound earlier mine wrote orders)
    (hturn : Turn cfg d d') : d'.Sound earlier mine wrote orders := by
  cases hturn with
  | order env => exact h.takeOrder cfg env
  | response env => exact h.takeResponse cfg env
  | call env htaken =>
      exact h.world ((Service.keeps_handlerRules (subset_refl _)).program cfg env htaken _ h.keeps)
        fun _ hsends => (Service.sends_callRules _ _ _ _).program cfg env htaken _ hsends
  | gateway hstep =>
      cases hstep with
      | pop hq => exact h.aside rfl rfl rfl
      | @dequeue shm index now hshm =>
          have hstage :=
            Service.keeps_updateStage (subset_refl _) index .downstreamDequeued now _ h.keeps
          simp only [Service.updateStage, Service.onOrdersShm, Program.run_bind,
            Program.run_atomic, hshm] at hstage
          refine h.world hstage fun taken hsends => ?_
          have hsent := Service.sends_updateStage index .downstreamDequeued now _ hsends
          simp only [Service.updateStage, Service.onOrdersShm, Program.run_bind,
            Program.run_atomic, hshm] at hsent
          exact hsent
  | respond response => exact h.frame rfl rfl rfl

/-! ## What the client does -/

theorem Sound.attached (h : d.Sound earlier mine wrote orders) :
    ∃ shm, d.world.ordersShm = some shm := by
  obtain ⟨shm, hmirrored⟩ := h.keeps.mirrored
  exact ⟨shm, hmirrored.attached⟩

/-- The client has the slots that it no longer cares about. -/
theorem Sound.drop (h : d.Sound earlier mine wrote orders) : d.Sound earlier ∅ wrote orders := by
  have hsub : d.held ∅ ⊆ d.held mine := fun i hi => Or.inr (hi.resolve_left (Set.notMem_empty i))
  obtain ⟨taken, hsent⟩ := h.sent
  exact ⟨(h.keeps.mono hsub).forget hsub, h.distinct, fun i _ =>
    Set.notMem_empty i, h.orders, taken,
    hsent.received, hsent.once, fun i _ => Set.notMem_empty i,
      hsent.sends.mono hsub hsub (subset_refl _)⟩

/-- The client takes a slot. -/
theorem Sound.allocate (h : d.Sound earlier ∅ wrote orders) {shm : OrdersShm}
    (hshm : d.world.ordersShm = some shm)
    (hroom : shm.nextIndex < shm.capacity) : ∃ wrote', Sound earlier {shm.nextIndex} wrote' orders
      { d with world := { d.world with ordersShm := some shm.tryAllocate.2 } } := by
  obtain ⟨hfresh, hkeeps⟩ := h.keeps.allocate hshm hroom
  have hheld : d.held {shm.nextIndex} = insert shm.nextIndex (d.held ∅) := by
    ext i
    simp [held]
  have hqueue : ∀ i ∈ d.upstream.toList, i ≠ shm.nextIndex := by
    rintro i hi rfl
    exact hfresh (Or.inr hi)
  rw [← hheld] at hkeeps
  obtain ⟨taken, hsent⟩ := h.sent
  obtain ⟨hout, hsends⟩ := hsent.sends.allocate hshm hroom hkeeps.mirrored
  have hother : ∀ i ∈ taken, i ≠ shm.nextIndex := by
    rintro i hi rfl
    exact hout hi
  rw [← hheld] at hsends
  refine ⟨_, hkeeps, h.distinct, fun i hi => ?_, ?_, taken, ?_, hsent.once, fun i hi => ?_, ?_⟩
  · exact fun hmem => hqueue i hi (Set.mem_singleton_iff.1 hmem)
  · rw [← h.orders]
    exact congrArg _ (List.map_congr_left fun i hi => Function.update_of_ne (hqueue i hi) _ _)
  · rw [hsent.received]
    exact congrArg _ (List.map_congr_left fun i hi =>
      (Function.update_of_ne (hother i hi) _ _).symm)
  · exact fun hmem => hother i hi (Set.mem_singleton_iff.1 hmem)
  · exact hsends.rewrite fun i hi => Function.update_of_ne (hother i hi) _ _

/-- The client writes its slot. -/
theorem Sound.write {index : OrderIndex} (h : d.Sound earlier {index} wrote orders)
    {shm : OrdersShm}
    (hshm : d.world.ordersShm = some shm) {f : OrderSlot → OrderSlot} {request : OrderRequest}
    (hf : ∀ slot, (f slot).request = request) :
      Sound earlier {index} (Function.update wrote index request) orders
      { d with world := { d.world with ordersShm := some (shm.mutateSlot index f).2 } } := by
  obtain ⟨taken, hsent⟩ := h.sent
  have hother : ∀ i ∈ taken, i ≠ index := by
    rintro i hi rfl
    exact hsent.gone i hi (Set.mem_singleton i)
  have hwritten :
      Program.Preserves (World.SendsOnce (d.held {index}) (d.held {index}) {i | i ∈ taken} wrote)
      (Service.onOrdersShm .internal false fun shm => shm.mutateSlot index f) :=
    Service.sends_mutateSlot
      (Or.inl ⟨Or.inl (Set.mem_singleton index), fun hin => absurd rfl (hother index hin)⟩)
  have hsends := hwritten _ hsent.sends
  simp only [Service.onOrdersShm, Program.run_atomic, hshm] at hsends
  refine ⟨h.keeps.write hshm (Or.inl (Set.mem_singleton index)) hf, h.distinct, h.apart, ?_,
    taken, ?_, hsent.once,
    hsent.gone, hsends.rewrite fun i hi => Function.update_of_ne (hother i hi) _ _⟩
  · rw [← h.orders]
    refine congrArg _ (List.map_congr_left fun i hi => Function.update_of_ne ?_ _ _)
    rintro rfl
    exact h.apart i hi (Set.mem_singleton i)
  · rw [hsent.received]
    exact congrArg _ (List.map_congr_left fun i hi =>
      (Function.update_of_ne (hother i hi) _ _).symm)

/-- The client changes the stage of a slot. -/
theorem Sound.stage (h : d.Sound earlier mine wrote orders) {shm : OrdersShm}
    (hshm : d.world.ordersShm = some shm) {index : OrderIndex} {f : OrderSlot → OrderSlot}
    (hf : ∀ slot, (f slot).request = slot.request) :
    Sound earlier mine wrote orders
      { d with world := { d.world with ordersShm := some (shm.mutateSlot index f).2 } } := by
  have hkept : Program.Preserves (World.Keeps (d.held mine) (d.held mine) wrote)
      (Service.onOrdersShm .internal false fun shm => shm.mutateSlot index f) :=
    Service.keeps_mutateSlot (subset_refl _) (Or.inr hf)
  have hstage := hkept _ h.keeps
  simp only [Service.onOrdersShm, Program.run_atomic, hshm] at hstage
  refine h.world hstage fun taken hsends => ?_
  have hunchanged : Program.Preserves (World.SendsOnce (d.held mine) (d.held mine) taken wrote)
      (Service.onOrdersShm .internal false fun shm => shm.mutateSlot index f) :=
    Service.sends_mutateSlot (Or.inr hf)
  have hsent := hunchanged _ hsends
  simp only [Service.onOrdersShm, Program.run_atomic, hshm] at hsent
  exact hsent

/-- The client pushes its slot. -/
theorem Sound.push {index : OrderIndex} (h : d.Sound earlier {index} wrote orders)
    (hok : (d.upstream.tryPush index).1 = true) :
    Sound earlier ∅ wrote (orders ++ [wrote index])
      { d with upstream := (d.upstream.tryPush index).2 } := by
  have hlist := SpscQueue.toList_tryPush hok
  have hmine : index ∉ d.upstream.toList := fun hin => h.apart index hin (Set.mem_singleton index)
  have hheld : held ∅ { d with upstream := (d.upstream.tryPush index).2 } = d.held {index} := by
    ext i
    simp [held, hlist, or_comm]
  obtain ⟨taken, hsent⟩ := h.sent
  refine ⟨?_, ?_, fun i _ => Set.notMem_empty i, ?_, taken, hsent.received, ?_, fun i _ =>
    Set.notMem_empty i, ?_⟩
  · rw [hheld]
    exact h.keeps
  · rw [hlist, ← List.concat_eq_append]
    exact List.Nodup.concat hmine h.distinct
  · rw [hlist, List.map_append, List.map_singleton, ← List.append_assoc,
      h.orders, List.append_assoc]
  · rw [hlist, ← List.append_assoc, ← List.concat_eq_append]
    refine List.Nodup.concat (fun hin => ?_) hsent.once
    rcases List.mem_append.1 hin with hin | hin
    · exact hsent.gone index hin (Set.mem_singleton index)
    · exact hmine hin
  · rw [hheld]
    exact hsent.sends

/-! ## Order ids -/

end Desk

/-- The client and the service have drawn the ids that follow `first`, each of them once. -/
structure World.Numbered (first : InternalOrderId) (drawn : List InternalOrderId) (w : World) :
    Prop where
  counter : w.upstreamNextOrderId = some (first + UInt32.ofNat (drawn.length + w.allocated.length))
  ids : (drawn ++ w.allocated).Perm
    ((List.range (drawn.length + w.allocated.length)).map fun i => first + UInt32.ofNat i)

namespace World.Numbered

variable {first : InternalOrderId} {drawn : List InternalOrderId} {w : World}

/-- The next id. -/
theorem ids_succ {ids : List InternalOrderId} {n : Nat}
    (h : ids.Perm ((List.range n).map fun i => first + UInt32.ofNat i)) :
    (ids ++ [first + UInt32.ofNat n]).Perm
      ((List.range (n + 1)).map fun i => first + UInt32.ofNat i) := by
  rw [List.range_succ, List.map_append]
  exact h.append_right _

theorem next_succ (first : InternalOrderId) (n : Nat) :
    first + UInt32.ofNat n + 1 = first + UInt32.ofNat (n + 1) := by
  rw [UInt32.ofNat_add, UInt32.add_assoc]
  rfl

theorem allocate (h : w.Numbered first drawn) : w.allocateOrderId.2.Numbered first drawn := by
  simp only [World.allocateOrderId, h.counter]
  constructor
  · rw [List.length_append, List.length_singleton, ← Nat.add_assoc, next_succ]
  · rw [List.length_append, List.length_singleton, ← List.append_assoc]
    exact ids_succ h.ids

/-- A draw of the client. -/
theorem draw (h : w.Numbered first drawn) {next : InternalOrderId}
    (hnext : w.upstreamNextOrderId = some next) :
    World.Numbered first (drawn ++ [next]) { w with upstreamNextOrderId := some (next + 1) } := by
  obtain rfl := Option.some.inj (h.counter.symm.trans hnext)
  have hlength : (drawn ++ [first + UInt32.ofNat (drawn.length + w.allocated.length)]).length +
      w.allocated.length = drawn.length + w.allocated.length + 1 := by
    rw [List.length_append, List.length_singleton, Nat.add_right_comm]
  constructor
  · rw [hlength, next_succ]
  · rw [hlength, List.append_assoc]
    refine List.Perm.trans ?_ (ids_succ h.ids)
    rw [List.append_assoc]
    exact List.perm_append_comm.append_left drawn

/-- Nothing but a draw touches the counter. -/
theorem stable (first : InternalOrderId) (drawn : List InternalOrderId) :
    HandlerStable (World.Numbered first drawn) where
  shared _ _ _ _ _ h := ⟨h.counter, h.ids⟩
  nextOrderId _ h := h.allocate
  addOrder _ _ _ _ h := ⟨h.counter, h.ids⟩
  updateState _ _ _ _ h := ⟨h.counter, h.ids⟩
  engine _ _ _ h := ⟨h.counter, h.ids⟩
  markManagedParent _ _ h := ⟨h.counter, h.ids⟩
  syncManagedParentView _ _ _ _ _ h := ⟨h.counter, h.ids⟩
  beside _ _ _ _ _ h := ⟨h.counter, h.ids⟩
  annotate _ _ _ _ h := ⟨h.counter, h.ids⟩
  updateTrade _ _ _ _ _ _ _ h := ⟨h.counter, h.ids⟩
  settle _ _ _ h := ⟨h.counter, h.ids⟩
  archive _ _ h := ⟨h.counter, h.ids⟩

/-- As long as not all ids are used up, no id was drawn twice. -/
theorem nodup (h : w.Numbered first drawn) (hfew : drawn.length + w.allocated.length ≤ 2 ^ 32) :
    (drawn ++ w.allocated).Nodup := by
  refine (h.ids.nodup_iff).2 (List.Nodup.map_on ?_ List.nodup_range)
  intro i hi j hj heq
  have hsame := congrArg UInt32.toNat heq
  rw [UInt32.toNat_add, UInt32.toNat_add, UInt32.toNat_ofNat', UInt32.toNat_ofNat'] at hsame
  rw [List.mem_range] at hi hj
  omega

end World.Numbered

namespace Desk

variable {first : InternalOrderId} {d : Desk}

theorem numbered_turn {cfg : Config} {d' : Desk} (hturn : Turn cfg d d') :
    d'.drawn = d.drawn ∧ (d.world.Numbered first d.drawn → d'.world.Numbered first d.drawn) := by
  have hstable := World.Numbered.stable first d.drawn
  cases hturn with
  | order env =>
      rw [takeOrder]
      split
      · exact ⟨rfl, id⟩
      next index q _ =>
        refine ⟨rfl, fun h => ?_⟩
        simp only [Service.processUpstreamOrder, Program.run_bind, Program.run_read]
        split
        · exact Service.preserves_recordError hstable.toStable _ _ h
        next slot _ =>
          exact Service.preserves_handleOrderRequest hstable cfg env index slot.request _
            (Service.preserves_updateStage hstable.toStable _ _ _ _ h)
  | response env =>
      rw [takeResponse]
      split
      · exact ⟨rfl, id⟩
      next response q _ =>
        exact ⟨rfl, fun h => Service.preserves_handleTradeResponse hstable cfg env response _ h⟩
  | call env htaken => exact ⟨rfl, fun h => Service.preserves_program hstable cfg env _ _ h⟩
  | gateway hstep =>
      cases hstep with
      | pop hq => exact ⟨rfl, fun h => ⟨h.counter, h.ids⟩⟩
      | dequeue index now hshm => exact ⟨rfl, fun h => ⟨h.counter, h.ids⟩⟩
  | respond response => exact ⟨rfl, id⟩

end Desk

end AccountServices
