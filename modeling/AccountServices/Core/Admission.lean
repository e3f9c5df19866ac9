import AccountServices.Order.Registration
import AccountServices.Core.CancelRouting

/-!
# Admission of orders

`handle_order_request` admits a new order that it does not hand to the execution engine, or refuses
it: an admitted order is in the queue and in the book and its cost is frozen, a refused one leaves
the funds and the queue alone and is terminal if the book has it. The one exception is an order
whose id was once registered as a child of itself. The registration outlives the archive, and the
aggregation over the children that are still listed then decides the state of the order.
-/

set_option autoImplicit false

namespace AccountServices

open Foundation

/-! ## Reachable books are tidy -/

theorem World.tidy_stable : HandlerStable fun w => w.book.Tidy where
  shared _ _ _ _ _ h := h
  nextOrderId w h := by
    obtain ⟨_, _, _, heq⟩ := w.allocateOrderId_eq
    rw [heq]
    exact ⟨h.managed, h.latched, h.listed⟩
  addOrder _ entry now _ h := h.addOrder entry now
  updateState _ orderId state now h := h.updateState orderId state now
  engine _ _ _ h := h
  markManagedParent _ parentId h := h.markManagedParent parentId
  syncManagedParentView _ parentId view state now h :=
    h.syncManagedParentView parentId view state now
  beside _ _ _ _ _ h := h
  annotate w orderId _ hf h :=
    h.of_marks (fun _ => (w.book.sameTerms_annotate orderId hf).isLive.2) rfl rfl
  updateTrade _ orderId vol px val fee now h := h.updateTrade orderId vol px val fee now
  settle w orderId out h := by
    refine h.of_marks (fun k hk => ?_) rfl rfl
    rw [OrderBook.IsLive, World.settle, OrderBook.terms_setFrozen]
    split
    next heq => simpa [heq ▸ hk] using heq ▸ hk
    next => exact hk
  archive _ orderId h := h.archiveOrder orderId

/-- Recovery adds orders to a fresh book. -/
theorem OrderBook.Tidy.recover (shm : OrdersShm) (upstreamNextOrderId : Option InternalOrderId)
    (now : TimestampNs) :
    (recoverDownstreamActiveOrders shm upstreamNextOrderId now OrderBook.empty).Tidy :=
  Recovery.preserved_recover (fun _ _ h => h.addOrder _ _)
    (fun _ _ h => ⟨h.managed, h.latched, h.listed⟩) shm upstreamNextOrderId OrderBook.tidy_empty

theorem World.Reachable.tidy {cfg : Config} {w : World} (hw : w.Reachable cfg) : w.book.Tidy := by
  induction hw with
  | start hbook _ =>
      rw [hbook]
      exact OrderBook.tidy_empty
  | step _ call ih => exact Service.preserves_program World.tidy_stable cfg call.1 call.2 _ ih
  | @restart w _ load now _ _ _ =>
      simp only [World.restart]
      cases w.ordersShm with
      | none => exact OrderBook.tidy_empty
      | some shm => exact OrderBook.Tidy.recover shm w.upstreamNextOrderId now

/-! ## What the request becomes -/

/-- The id of the order that a request places. -/
def World.assignedId (w : World) (request : OrderRequest) : InternalOrderId :=
  if request.internalOrderId = 0 then w.allocateOrderId.1 else request.internalOrderId

/-- A request whose key is known, with its id and the estimate of its fee. -/
def World.identified (cfg : Config) (w : World) (request : OrderRequest) : OrderRequest :=
  prepareOrderEstimate cfg { request with internalOrderId := w.assignedId request }

/-- The request as it reaches the book; without a key it does not. -/
def World.completed (cfg : Config) (w : World) (request : OrderRequest) : Option OrderRequest :=
  if request.lacksKey then
    (buildInternalSecurityId request.market request.securityId.view).map fun key =>
      w.identified cfg { request with internalSecurityId := key }
  else some (w.identified cfg request)

theorem World.completes_identified (cfg : Config) (w : World) (request : OrderRequest) :
    (w.identified cfg request).Completes request :=
  ((OrderRequest.Completes.refl request).withId _).prepared cfg

theorem prepareOrderEstimate_internalOrderId (cfg : Config) (request : OrderRequest) :
    (prepareOrderEstimate cfg request).internalOrderId = request.internalOrderId := by
  rw [prepareOrderEstimate]
  split
  · rfl
  split
  · rfl
  split <;> rfl

theorem World.identified_internalOrderId (cfg : Config) (w : World) (request : OrderRequest) :
    (w.identified cfg request).internalOrderId = w.assignedId request :=
  prepareOrderEstimate_internalOrderId cfg _

/-! ## When an order is admitted -/

/-- The book has room for the order under its id. -/
def World.Enters (w : World) (request : OrderRequest) : Prop :=
  request.internalOrderId ≠ 0 ∧ w.book.findOrder request.internalOrderId = none ∧
    w.book.table.free ≠ []

/-- The risk manager passes the order, and its cost can be frozen. -/
def World.Affords (w : World) (env : Env) (request : OrderRequest) : Prop :=
  (w.risk.checkOrder request w.positions env.monotonicNs).1.passed = true ∧
    (request.reserves = true →
      ∃ total g, reservationTotal request = some total ∧ w.positions.fund.freezeFund total = some g)

/-- The queue to the gateway takes the index. -/
def World.Sends (w : World) (index : OrderIndex) : Prop :=
  index ≠ kInvalidOrderIndex ∧ w.ordersShm.isSome = true ∧
    ∃ q, w.downstream = some q ∧ (q.tryPush index).1 = true

/-- The cost of an order. -/
def OrderRequest.cost (request : OrderRequest) : Nat :=
  request.volumeEntrust.toNat * request.dpriceEntrust.toNat + request.dfeeEstimate.toNat

/-- The FUND row after the cost of a buy order was frozen. -/
def FundInfo.FrozenFor (f : FundInfo) (amount : Nat) (g : FundInfo) : Prop :=
  g.available.toNat + amount = f.available.toNat ∧ g.frozen.toNat = f.frozen.toNat + amount ∧
    g.totalAsset = f.totalAsset ∧ g.marketValue = f.marketValue

/-- The order is in the queue and in the book, and a buy order has its cost frozen. -/
def World.Admitted (w : World) (index : OrderIndex) (request : OrderRequest) (v : World) : Prop :=
  v.queued = w.queued ++ [index] ∧
    ∃ e, v.book.findOrder (w.assignedId request) = some e ∧
      e.request.orderState = .traderSubmitted ∧ e.request.Completes request ∧
      if request.tradeSide = .buy then
        w.positions.fund.FrozenFor e.request.cost v.positions.fund ∧
          e.fundFrozen.toNat = e.request.cost
      else v.positions.fund = w.positions.fund

/-- Nothing is sent or frozen, and the order is not added to the book, or is in it as terminal. -/
def World.Refused (w : World) (request : OrderRequest) (v : World) : Prop :=
  v.queued = w.queued ∧ v.positions.fund = w.positions.fund ∧
    ((∀ k, w.book.findOrder k = none → v.book.findOrder k = none) ∨
      w.book.findOrder (w.assignedId request) = none ∧
        ∃ e, v.book.findOrder (w.assignedId request) = some e ∧
          e.isTerminal = true ∧ e.fundFrozen = 0)

/-- No sibling of an order that is registered as its own child stands in its way: none has got
further than an order that is sent, and none makes progress when the order is rejected. -/
def World.Undisturbed (cfg : Config) (env : Env) (index : OrderIndex) (request : OrderRequest)
    (w : World) : Prop :=
  ∀ r, w.completed cfg request = some r → w.Enters r →
    w.book.childToParent.lookup r.internalOrderId = some r.internalOrderId →
      (w.Affords env r → w.Sends index → ∀ s, w.book.HasSibling r.internalOrderId s →
        s.progressRank ≤ OrderState.progressRank .traderSubmitted) ∧
      (¬ w.Affords env r → ∀ s, w.book.HasSibling r.internalOrderId s → s.progressRank = 0)

/-! ## The order between its entry and its last state -/

/-- The order is in the book with its reservation, its id has no mark, and the registered children
of an order that is its own child are as before. -/
structure World.Candidate (w : World) (index : OrderIndex) (request : OrderRequest)
    (frozen : DValue) (b : OrderBook) : Prop where
  links : b.links = w.book.links
  unmanaged : request.internalOrderId ∉ b.managedParentIds
  entry : ∃ e, b.findOrder request.internalOrderId = some e ∧ e.request.Completes request ∧
    e.request.internalOrderId = request.internalOrderId ∧
    e.request.dfeeEstimate = request.dfeeEstimate ∧ e.shmOrderIndex = index ∧ e.fundFrozen = frozen
  siblings : w.book.childToParent.lookup request.internalOrderId = some request.internalOrderId →
    ∀ c, c ≠ request.internalOrderId → b.findOrder c = w.book.findOrder c

namespace World.Candidate

variable {w : World} {index : OrderIndex} {request : OrderRequest} {frozen : DValue} {b : OrderBook}

theorem childToParent (h : w.Candidate index request frozen b) :
    b.childToParent = w.book.childToParent :=
  congrArg Prod.fst h.links

theorem getChildren (h : w.Candidate index request frozen b) (k : InternalOrderId) :
    b.getChildren k = w.book.getChildren k := by
  rw [OrderBook.getChildren, OrderBook.getChildren,
    show b.parentToChildren = w.book.parentToChildren from congrArg Prod.snd h.links]

theorem selfRegistered (h : w.Candidate index request frozen b) (htidy : w.book.Tidy)
    (hself : w.book.childToParent.lookup request.internalOrderId = some request.internalOrderId) :
    b.SelfRegistered request.internalOrderId where
  parent := h.childToParent ▸ hself
  mem := by
    rw [h.getChildren]
    exact htidy.listed _ _ hself
  unmanaged := h.unmanaged

theorem hasSibling_iff (h : w.Candidate index request frozen b)
    (hself : w.book.childToParent.lookup request.internalOrderId = some request.internalOrderId)
    (s : OrderState) :
    b.HasSibling request.internalOrderId s ↔ w.book.HasSibling request.internalOrderId s := by
  rw [OrderBook.HasSibling]
  rw [h.getChildren]
  constructor
  · rintro ⟨c, hc, hne, e, he, hrest⟩
    exact ⟨c, hc, hne, e, (h.siblings hself c hne) ▸ he, hrest⟩
  · rintro ⟨c, hc, hne, e, he, hrest⟩
    exact ⟨c, hc, hne, e, (h.siblings hself c hne).trans he, hrest⟩

/-- A new state keeps the order a candidate. An order that is not its own child takes the state. -/
theorem updateState (h : w.Candidate index request frozen b) (htidy : w.book.Tidy)
    (hnew : request.orderType = .new) (state : OrderState) (now : TimestampNs) :
    w.Candidate index request frozen (b.updateState request.internalOrderId state now).book := by
  obtain ⟨e, he, hcompletes, hid, hfee, hindex, hfrozen⟩ := h.entry
  refine ⟨(OrderBook.links_updateState _ _ _ _).trans h.links, ?_, ?_, ?_⟩
  · rw [(OrderBook.marks_updateState b _ state now).1]
    exact h.unmanaged
  · by_cases hself : w.book.childToParent.lookup request.internalOrderId =
      some request.internalOrderId
    · obtain ⟨acc, -, -, hfind⟩ := (h.selfRegistered htidy hself).updateState he
        (hcompletes.orderType.trans hnew) state now
      exact ⟨_, hfind, ⟨hcompletes.orderType, hcompletes.tradeSide, hcompletes.origInternalOrderId,
        hcompletes.passiveExecutionAlgo, hcompletes.volumeEntrust, hcompletes.dpriceEntrust⟩, hid,
          hfee,
        hindex, hfrozen⟩
    · exact ⟨_, OrderBook.findOrder_updateState_self (h.childToParent ▸ hself) he state now,
        ⟨hcompletes.orderType, hcompletes.tradeSide, hcompletes.origInternalOrderId,
        hcompletes.passiveExecutionAlgo, hcompletes.volumeEntrust, hcompletes.dpriceEntrust⟩, hid,
          hfee,
        hindex, hfrozen⟩
  · intro hself c hne
    have hparent : b.childToParent.lookup request.internalOrderId ≠ some c := by
      rw [h.childToParent, hself]
      exact fun heq => hne (Option.some.inj heq).symm
    rw [OrderBook.findOrder_updateState_of_ne hne fun heq => absurd heq hparent]
    exact h.siblings hself c hne

/-- A write to the entry that keeps the request. -/
theorem modifyOrder (h : w.Candidate index request frozen b) {frozen' : DValue}
    {f : OrderEntry → OrderEntry} (hrequest : ∀ e, (f e).request = e.request)
    (hindex : ∀ e, (f e).shmOrderIndex = e.shmOrderIndex)
    (hfrozen : ∀ e, e.fundFrozen = frozen → (f e).fundFrozen = frozen') :
    w.Candidate index request frozen' (b.modifyOrder request.internalOrderId f) := by
  obtain ⟨e, he, hcompletes, hid, hfee, hslot, hold⟩ := h.entry
  refine ⟨h.links, h.unmanaged, ⟨f e, ?_, ?_, ?_, ?_, (hindex e).trans hslot, hfrozen e hold⟩, ?_⟩
  · rw [OrderBook.findOrder_modifyOrder, if_pos rfl, he, Option.map_some]
  · rw [hrequest]
    exact hcompletes
  · rw [hrequest]
    exact hid
  · rw [hrequest]
    exact hfee
  · intro hself c hne
    rw [OrderBook.findOrder_modifyOrder, if_neg hne]
    exact h.siblings hself c hne

/-- The order that was just added. -/
theorem addOrder (htidy : w.book.Tidy) {env : Env} {next : InternalOrderId}
    (hb : b = { w.book with nextOrderId := next })
    (hok : (b.addOrder (Service.requestEntry env index request) env.nowNs).ok = true) :
    w.Candidate index request 0
      (b.addOrder (Service.requestEntry env index request) env.nowNs).book ∧
      request.internalOrderId ∉
        (b.addOrder (Service.requestEntry env index request)
          env.nowNs).book.splitParentErrorLatched := by
  obtain ⟨hzero, hnone, hfree⟩ := (OrderBook.addOrder_ok_iff _ _ _).1 hok
  have hmarks := OrderBook.marks_addOrder b (Service.requestEntry env index request) env.nowNs
  rw [OrderBook.marks, OrderBook.marks, Prod.mk.injEq] at hmarks
  -- The order was not live before, so nothing is linked to it, managed or latched under its id.
  have hdead : ¬ w.book.IsLive request.internalOrderId := by
    have hnone' : w.book.findOrder request.internalOrderId = none := by
      rw [hb] at hnone
      exact hnone
    rw [OrderBook.IsLive, OrderBook.terms, hnone', Option.map_none]
    exact fun h => h rfl
  have horphan : ¬ ((Service.requestEntry env index request).isSplitChild = true ∧
      (Service.requestEntry env index request).parentOrderId ≠ 0) := fun h => Bool.noConfusion h.1
  refine ⟨⟨?_, ?_, ?_, ?_⟩, ?_⟩
  -- a request is not a child, so no links are added
  · rw [OrderBook.links_addOrder_orphan b env.nowNs horphan, hb]
    rfl
  · rw [hmarks.1, hb]
    exact fun hmem => hdead (htidy.managed _ hmem)
  · refine ⟨_, (OrderBook.findOrder_addOrder_orphan hok horphan _).trans (if_pos rfl), ?_⟩
    obtain ⟨remain, hstored⟩ :=
      OrderBook.request_storedEntry (Service.requestEntry env index request) env.nowNs
    rw [hstored]
    exact ⟨⟨rfl, rfl, rfl, rfl, rfl, rfl⟩, rfl, rfl, rfl, rfl⟩
  · intro _ c hne
    refine ((OrderBook.findOrder_addOrder_orphan hok horphan c).trans (if_neg hne)).trans ?_
    rw [hb]
    rfl
  -- the latches are those of live orders
  · rw [hmarks.2, hb]
    exact fun hmem => hdead (htidy.latched _ hmem)

end World.Candidate

/-! ## The steps of the handler -/

/-- The worlds agree on the positions and on the queue, and the pool is attached in both or in
none. -/
structure World.Beside (w v : World) : Prop where
  positions : v.positions = w.positions
  downstream : v.downstream = w.downstream
  attached : v.ordersShm.isSome = w.ordersShm.isSome

namespace World.Beside

variable {w v : World}

theorem refl (w : World) : w.Beside w := ⟨rfl, rfl, rfl⟩

theorem queued (h : w.Beside v) : v.queued = w.queued := by
  rw [World.queued, World.queued, h.downstream]

theorem applyBook (h : w.Beside v) (now : TimestampNs) (op : OrderBook → BookOutcome) :
    w.Beside (v.applyBook now op) where
  positions := (World.positions_applyBook _ _ _).trans h.positions
  downstream := (World.downstream_applyBook _ _ _).trans h.downstream
  attached := (World.isSome_applyBook _ _ _).trans h.attached

theorem onOrdersShm (h : w.Beside v) {α : Type} (label : Action) (fail : α)
    (f : OrdersShm → α × OrdersShm) : w.Beside ((Service.onOrdersShm label fail f).run v).2 := by
  have hattached := v.isSome_onOrdersShm label fail f
  obtain ⟨shm, heq⟩ := v.onOrdersShm_eq label fail f
  rw [heq] at hattached ⊢
  exact ⟨h.positions, h.downstream, hattached.trans h.attached⟩

theorem updateStage (h : w.Beside v) (index : OrderIndex) (stage : OrderSlotState)
    (now : TimestampNs) : w.Beside ((Service.updateStage index stage now).run v).2 :=
  h.onOrdersShm (.setStage index stage) false _

theorem recordError (h : w.Beside v) (error : ErrorStatus) :
    w.Beside ((Service.recordError error).run v).2 := ⟨h.positions, h.downstream, h.attached⟩

theorem withBook (h : w.Beside v) (b : OrderBook) : w.Beside { v with book := b } :=
  ⟨h.positions, h.downstream, h.attached⟩

end World.Beside

theorem book_updateStage (index : OrderIndex) (stage : OrderSlotState)
    (now : TimestampNs) (w : World) :
    ((Service.updateStage index stage now).run w).2.book = w.book := by
  have hblind : PoolBlind fun v => v.book = w.book := fun _ _ _ h => h
  exact Service.blind_updateStage hblind index stage now w rfl

namespace Service

open Program

variable {w v : World} {request : OrderRequest} {env : Env} {index : OrderIndex}

/-- The id of a request. -/
theorem run_assignOrderId (env : Env) (index : OrderIndex) (request : OrderRequest) (w : World) :
    ((assignOrderId env index request).run w).1 =
      { request with internalOrderId := w.assignedId request } ∧
      w.Beside ((assignOrderId env index request).run w).2 ∧
      ((assignOrderId env index request).run w).2.risk = w.risk ∧
      ∃ next, ((assignOrderId env index request).run w).2.book =
        { w.book with nextOrderId := next } := by
  rw [assignOrderId, World.assignedId]
  split
  next hzero =>
    obtain ⟨upstream, next, allocated, heq⟩ := w.allocateOrderId_eq
    have hdrawn : w.Beside w.allocateOrderId.2 := by
      rw [heq]
      exact ⟨rfl, rfl, rfl⟩
    have hrun : ∀ complete : OrderRequest, ∃ shm,
        ((syncOrder index complete env.nowNs).run w.allocateOrderId.2).2 =
          { w.allocateOrderId.2 with ordersShm := shm } :=
      fun complete => World.onOrdersShm_eq _ _ _ _
    refine ⟨rfl, hdrawn.onOrdersShm (.writeSlot index) false _, ?_, next, ?_⟩
    · obtain ⟨shm, hshm⟩ := hrun { request with internalOrderId := w.allocateOrderId.1 }
      refine (congrArg World.risk hshm).trans ?_
      rw [heq]
    · obtain ⟨shm, hshm⟩ := hrun { request with internalOrderId := w.allocateOrderId.1 }
      refine (congrArg World.book hshm).trans ?_
      rw [heq]
  next hzero => exact ⟨rfl, World.Beside.refl w, rfl, w.book.nextOrderId, rfl⟩

/-- The risk check of a new order. -/
theorem run_passesRisk (hnew : request.orderType = .new) (env : Env) (w : World) :
    ∃ risk code, (passesRisk env request).run w =
      ((w.risk.checkOrder request w.positions env.monotonicNs).1.passed,
        { w with
          risk := risk
          book := w.book.modifyOrder request.internalOrderId fun e =>
            { e with riskResult := code } }) := by
  rw [passesRisk]
  rw [if_pos hnew]
  exact ⟨_, _, rfl⟩

/-- The send of an index: it is in the queue, or nothing has changed. -/
theorem sent_sendToDownstream (h : w.Beside v) (now : TimestampNs) (index : OrderIndex) :
    (index ≠ kInvalidOrderIndex → (((sendToDownstream now index).run v).1 = true ↔ w.Sends index)) ∧
      ((sendToDownstream now index).run v).2.book = v.book ∧
      ((sendToDownstream now index).run v).2.positions = v.positions ∧
      ((sendToDownstream now index).run v).2.queued =
        (if ((sendToDownstream now index).run v).1 then w.queued ++ [index] else w.queued) := by
  rw [sendToDownstream]
  rw [run_bind, run_read]
  -- With both objects attached, the call sends if and only if the queue takes the index; the stage
  -- is written either way.
  by_cases hattached : (v.downstream.isSome && v.ordersShm.isSome) = true
  · rw [if_pos hattached]
    rw [Bool.and_eq_true] at hattached
    obtain ⟨q, hq⟩ := Option.isSome_iff_exists.1 hattached.1
    have hq' : w.downstream = some q := h.downstream ▸ hq
    have hshm : w.ordersShm.isSome = true := h.attached ▸ hattached.2
    have hpush : (tryPush index).run v = ((q.tryPush index).1,
        { v with
          downstream := some (q.tryPush index).2
          pushed := if (q.tryPush index).1 then v.pushed ++ [index] else v.pushed }) := by
      simp only [tryPush, run_atomic, hq]
    simp only [run_bind, hpush, run_pure]
    generalize hu : ({ v with
        downstream := some (q.tryPush index).2
        pushed := if (q.tryPush index).1 then v.pushed ++ [index] else v.pushed } : World) = u
    have hbeside : u.Beside ((updateStage index
        (if (q.tryPush index).1 then .downstreamQueued else .queuePushFailed) now).run u).2 :=
      (World.Beside.refl u).updateStage _ _ _
    refine ⟨fun hindex => ?_, ?_, ?_, ?_⟩
    · constructor
      · exact fun hsent => ⟨hindex, hshm, q, hq', hsent⟩
      · rintro ⟨-, -, q', hq'', hsent⟩
        obtain rfl := Option.some.inj (hq'.symm.trans hq'')
        exact hsent
    · rw [book_updateStage, ← hu]
    · rw [hbeside.positions, ← hu]
    · rw [hbeside.queued, ← hu, World.queued_eq rfl]
      cases hsent : (q.tryPush index).1 with
      | true => rw [if_pos rfl, SpscQueue.toList_tryPush hsent, World.queued_eq hq']
      | false => rw [if_neg Bool.false_ne_true, SpscQueue.tryPush_of_false hsent,
          World.queued_eq hq']
  -- Without the queue or the pool nothing is sent.
  · rw [if_neg hattached]
    refine ⟨fun _ => ⟨fun hsent => absurd hsent (by simp), ?_⟩, rfl, rfl, h.queued⟩
    rintro ⟨-, hshm, q, hq, -⟩
    refine absurd ?_ hattached
    rw [h.downstream, h.attached, hq, hshm]
    rfl

/-- The route of a new order. -/
theorem run_routeOrder_new (h : w.Beside v) {active : OrderEntry}
    (hnew : active.request.orderType = .new) (now : TimestampNs) :
    ∃ sent u, (routeOrder now active).run v = (sent, u) ∧
      (sent = true ↔ w.Sends active.shmOrderIndex) ∧ u.positions = v.positions ∧
      u.book = (v.book.updateState active.request.internalOrderId
        (if sent then .traderSubmitted else .traderError) now).book ∧
      u.queued = if sent then w.queued ++ [active.shmOrderIndex] else w.queued := by
  have hcancel : active.request.orderType ≠ .cancel := by simp [hnew]
  rw [routeOrder]
  rw [if_neg hcancel]
  -- Without a slot the order fails before the queue.
  by_cases hindex : active.shmOrderIndex = kInvalidOrderIndex
  · rw [if_pos hindex]
    simp only [updateState, run_bind, run_onBook, run_recordError, run_pure]
    refine ⟨false, _, rfl,
      ⟨fun hfalse => Bool.noConfusion hfalse, fun hsends => absurd hindex hsends.1⟩,
      World.positions_applyBook _ _ _, World.book_applyBook _ _ _, (h.applyBook now _).queued⟩
  · rw [if_neg hindex, run_bind]
    obtain ⟨hsent, hbook, hpositions, hqueued⟩ := sent_sendToDownstream h now active.shmOrderIndex
    generalize (sendToDownstream now active.shmOrderIndex).run v =
      out at hsent hbook hpositions hqueued ⊢
    obtain ⟨sent, u⟩ := out
    simp only at hsent hbook hpositions hqueued ⊢
    -- The queue is not touched behind the push.
    have hqueue : ∀ (state : OrderState), (u.applyBook now fun b =>
        b.updateState active.request.internalOrderId state now).queued = u.queued := by
      intro state
      rw [World.queued, World.queued, World.downstream_applyBook]
    cases sent with
    | true =>
        simp only [updateState, run_bind, run_onBook, run_pure, if_true]
        refine ⟨true, _, rfl, hsent hindex, (World.positions_applyBook _ _ _).trans hpositions, ?_,
          (hqueue .traderSubmitted).trans hqueued⟩
        rw [World.book_applyBook, hbook, if_pos rfl]
    | false =>
        simp only [updateState, run_bind, run_onBook, run_recordError, run_pure,
          Bool.false_eq_true, if_false]
        refine ⟨false, _, rfl, hsent hindex, (World.positions_applyBook _ _ _).trans hpositions, ?_,
          (hqueue .traderError).trans hqueued⟩
        rw [if_neg Bool.false_ne_true, ← hbook]
        exact World.book_applyBook _ _ _

end Service

/-! ## The outcomes -/

/-- The cost of a buy order is frozen; other orders freeze nothing. -/
def World.Reserves (w : World) (request : OrderRequest) (frozen : DValue) (g : FundInfo) : Prop :=
  (request.reserves = true ∧ reservationTotal request = some frozen ∧
      w.positions.fund.freezeFund frozen = some g) ∨
    (request.reserves = false ∧ frozen = 0 ∧ g = w.positions.fund)

theorem World.affords_iff {w : World} {env : Env} {request : OrderRequest} :
    w.Affords env request ↔
      (w.risk.checkOrder request w.positions env.monotonicNs).1.passed = true ∧
        ∃ frozen g, w.Reserves request frozen g := by
  refine and_congr_right fun _ => ?_
  constructor
  · intro h
    cases hres : request.reserves with
    | false => exact ⟨0, w.positions.fund, Or.inr ⟨hres, rfl, rfl⟩⟩
    | true =>
        obtain ⟨total, g, htotal, hfreeze⟩ := h hres
        exact ⟨total, g, Or.inl ⟨hres, htotal, hfreeze⟩⟩
  · rintro ⟨frozen, g, ⟨-, htotal, hfreeze⟩ | ⟨hres, -, -⟩⟩ hres'
    · exact ⟨frozen, g, htotal, hfreeze⟩
    · exact absurd (hres.symm.trans hres') Bool.false_ne_true

/-- The ends of an order that entered the book: it is sent, or it is taken back, or it is
rejected. -/
inductive World.Ends (w : World) (env : Env) (index : OrderIndex) (request : OrderRequest)
    (v : World) : Prop
  | sent {frozen : DValue} {g : FundInfo} {b : OrderBook} (haffords : w.Affords env request)
      (hsends : w.Sends index) (hreserves : w.Reserves request frozen g)
      (hcandidate : w.Candidate index request frozen b)
      (hunlatched : request.internalOrderId ∉ b.splitParentErrorLatched)
      (hbook : v.book = (b.updateState request.internalOrderId .traderSubmitted env.nowNs).book)
      (hqueued : v.queued = w.queued ++ [index]) (hfund : v.positions.fund = g)
  | takenBack {e : OrderEntry} (haffords : w.Affords env request) (hsends : ¬ w.Sends index)
      (hentry : v.book.findOrder request.internalOrderId = some e)
      (hstate : e.request.orderState = .traderError) (hfrozen : e.fundFrozen = 0)
      (hqueued : v.queued = w.queued) (hfund : v.positions.fund = w.positions.fund)
  | rejected {b : OrderBook} (haffords : ¬ w.Affords env request)
      (hcandidate : w.Candidate index request 0 b)
      (hunlatched : request.internalOrderId ∉ b.splitParentErrorLatched)
      (hbook : v.book =
        (b.updateState request.internalOrderId .riskControllerRejected env.nowNs).book)
      (hqueued : v.queued = w.queued) (hfund : v.positions.fund = w.positions.fund)

/-- What was frozen can be released, and the row is as before. -/
theorem FundInfo.unfreezeFund_freezeFund {f g : FundInfo} {amount : DValue}
    (h : f.freezeFund amount = some g) : g.unfreezeFund amount = some f := by
  obtain ⟨htotal, hmarket, havailable, hfrozen⟩ := FundInfo.freezeFund_facts h
  have hlt := f.available.toNat_lt
  have hcovered : ¬ g.frozen < amount := by
    rw [Word.lt_iff]
    omega
  have hfits : ¬ g.available + amount < g.available := by
    rw [Word.add_lt_self_iff]
    omega
  have hback := Word.toNat_sub_of_not_lt hcovered
  have hsum := Word.toNat_add_of_not_lt hfits
  rw [FundInfo.unfreezeFund]
  rw [if_neg hcovered, if_neg hfits]
  have h₁ : g.frozen - amount = f.frozen := (Word.eq_iff _ _).2 (by omega)
  have h₂ : g.available + amount = f.available := (Word.eq_iff _ _).2 (by omega)
  rw [h₁, h₂, htotal, hmarket]

theorem OrderRequest.Completes.reserves {request base : OrderRequest} (h : request.Completes base) :
    request.reserves = base.reserves := by
  rw [OrderRequest.reserves, OrderRequest.reserves, h.orderType, h.tradeSide]

theorem OrderRequest.Completes.reservationTotal {request base : OrderRequest}
    (h : request.Completes base) (hfee : request.dfeeEstimate = base.dfeeEstimate) :
    AccountServices.reservationTotal request = AccountServices.reservationTotal base := by
  rw [AccountServices.reservationTotal, AccountServices.reservationTotal,
    h.volumeEntrust, h.dpriceEntrust, hfee]

/-- A release right after a reservation takes it back. -/
theorem releaseEffect_reserved {w : World} {request : OrderRequest} {frozen : DValue} {g : FundInfo}
    (hreserves : w.Reserves request frozen g) {e : OrderEntry}
    (hrequest : e.request.reserves = request.reserves) (hfrozen : e.fundFrozen = frozen) :
    releaseEffect g e = (w.positions.fund, 0) := by
  rw [releaseEffect]
  rw [hrequest, hfrozen]
  rcases hreserves with ⟨hres, -, hfreeze⟩ | ⟨hres, hzero, hsame⟩
  · have hback := FundInfo.unfreezeFund_freezeFund hfreeze
    by_cases hzero : frozen = 0
    · -- nothing was frozen, so there is nothing to take back
      have hg : g = w.positions.fund := by
        obtain ⟨htotal, hmarket, havailable, hfrozen⟩ := FundInfo.freezeFund_facts hfreeze
        rw [hzero, UInt64.toNat_zero] at havailable hfrozen
        have h₁ : g.available = w.positions.fund.available := (Word.eq_iff _ _).2 (by omega)
        have h₂ : g.frozen = w.positions.fund.frozen := (Word.eq_iff _ _).2 (by omega)
        cases g
        simp only at htotal hmarket h₁ h₂
        rw [htotal, hmarket, h₁, h₂]
      rw [if_neg fun h => h.2 hzero, hg, hzero]
    · rw [if_pos ⟨hres, hzero⟩, hback]
  · rw [if_neg fun h => Bool.false_ne_true (hres.symm.trans h.1), hsame, hzero]

/-- An error is the last state of a candidate. -/
theorem World.Candidate.updateState_error {w : World} {index : OrderIndex} {request : OrderRequest}
    {frozen : DValue} {b : OrderBook} (h : w.Candidate index request frozen b) (htidy : w.book.Tidy)
    (hnew : request.orderType = .new) (now : TimestampNs) :
    ∃ e, (b.updateState request.internalOrderId .traderError now).book.findOrder
        request.internalOrderId =
        some e ∧ e.request.orderState = .traderError ∧ e.fundFrozen = frozen := by
  obtain ⟨e, he, hcompletes, -, -, -, hfrozen⟩ := h.entry
  by_cases hself : w.book.childToParent.lookup request.internalOrderId =
    some request.internalOrderId
  · have hregistered := h.selfRegistered htidy hself
    have hstate := hregistered.updateState_error he (hcompletes.orderType.trans hnew) now
    obtain ⟨acc, -, -, hfind⟩ :=
      hregistered.updateState he (hcompletes.orderType.trans hnew) .traderError now
    rw [OrderBook.stateOf, hfind, Option.map_some, Option.some.injEq] at hstate
    exact ⟨_, hfind, hstate, hfrozen⟩
  · exact ⟨_, OrderBook.findOrder_updateState_self (h.childToParent ▸ hself) he _ now, rfl, hfrozen⟩

namespace Service

open Program

variable {w v : World} {request : OrderRequest} {env : Env} {index : OrderIndex}
  {active : OrderEntry}

/-- From its reservation on, the order is sent or taken back. -/
theorem ends_routed (htidy : w.book.Tidy) (hnew : request.orderType = .new)
    (haffords : w.Affords env request) {frozen : DValue} {m : PositionManager}
    (hreserves : w.Reserves request frozen m.fund) (h : World.Beside { w with positions := m } v)
    (hcandidate : w.Candidate index request frozen v.book)
    (hunlatched : request.internalOrderId ∉ v.book.splitParentErrorLatched)
    (hactive : active.request.orderType = .new ∧ active.shmOrderIndex = index)
    (hid : active.request.internalOrderId = request.internalOrderId) :
    w.Ends env index request ((do
      let routed ← routeOrder env.nowNs active
      if routed then pure ()
      else
        releaseOrderResources request.internalOrderId
        let _ ← updateState env.nowNs request.internalOrderId .traderError
        updateStage index .queuePushFailed env.nowNs
        recordError ⟨.order, .routeFailed, "EventLoop", "route_order failed"⟩ :
          Service Unit).run v).2 := by
  obtain ⟨sent, u, hrun, hsends, hpositions, hbook, hqueued⟩ :=
    run_routeOrder_new h hactive.1 env.nowNs
  rw [hactive.2] at hsends hqueued
  rw [hid] at hbook
  rw [run_bind, hrun]
  cases sent with
  | true =>
      refine World.Ends.sent haffords (hsends.1 rfl) hreserves hcandidate
        hunlatched hbook hqueued ?_
      show u.positions.fund = _
      rw [hpositions, h.positions]
  | false =>
      have hunsent : ¬ w.Sends index := fun hsend => Bool.false_ne_true (hsends.2 hsend)
      have herror : w.Candidate index request frozen u.book := by
        rw [hbook]
        exact hcandidate.updateState htidy hnew .traderError env.nowNs
      obtain ⟨e, he, hcompletes, -, -, -, hfrozen⟩ := herror.entry
      -- the release gives back what was frozen a moment ago
      have hrelease : u.release request.internalOrderId =
          u.settle request.internalOrderId (w.positions.fund, 0) := by
        rw [World.release]
        rw [he]
        simp only
        rw [hpositions, h.positions]
        rw [releaseEffect_reserved hreserves hcompletes.reserves hfrozen]
      have hreleased : w.Candidate index request 0
          (u.settle request.internalOrderId (w.positions.fund, 0)).book :=
        herror.modifyOrder (fun _ => rfl) (fun _ => rfl) fun _ _ => rfl
      obtain ⟨e', he', hstate, hzero⟩ := hreleased.updateState_error htidy hnew env.nowNs
      simp only [run_bind, run_release, hrelease, updateState, run_onBook, run_recordError,
        Bool.false_eq_true, if_false]
      generalize hx : (u.settle request.internalOrderId (w.positions.fund, 0)).applyBook env.nowNs
        (fun b => b.updateState request.internalOrderId .traderError env.nowNs) = x
      have hxbook : x.book.findOrder request.internalOrderId = some e' := by
        rw [← hx, World.book_applyBook]
        exact he'
      have hxqueued : x.queued = w.queued := by
        rw [← hx, World.queued, World.downstream_applyBook]
        exact hqueued
      have hxfund : x.positions.fund = w.positions.fund := by
        rw [← hx, World.positions_applyBook]
        rfl
      have hbeside := (World.Beside.refl x).updateStage index .queuePushFailed env.nowNs
      refine World.Ends.takenBack haffords hunsent (e := e') ?_ hstate hzero ?_ ?_
      · exact (congrArg (fun b => OrderBook.findOrder b request.internalOrderId)
          (book_updateStage index .queuePushFailed env.nowNs x)).trans hxbook
      · exact hbeside.queued.trans hxqueued
      · exact (congrArg PositionManager.fund hbeside.positions).trans hxfund

/-- The rejection of an order. -/
theorem ends_rejected (haffords : ¬ w.Affords env request) (h : w.Beside v)
    (hcandidate : w.Candidate index request 0 v.book)
    (hunlatched : request.internalOrderId ∉ v.book.splitParentErrorLatched) :
    w.Ends env index request ((do
      let _ ← updateState env.nowNs request.internalOrderId .riskControllerRejected
      updateStage index .riskRejected env.nowNs : Service Unit).run v).2 := by
  simp only [run_bind, updateState, run_onBook]
  generalize hx : v.applyBook env.nowNs
    (fun b => b.updateState request.internalOrderId .riskControllerRejected env.nowNs) = x
  have hbeside : w.Beside x := hx ▸ h.applyBook env.nowNs _
  have hstage := hbeside.updateStage index .riskRejected env.nowNs
  refine World.Ends.rejected haffords hcandidate hunlatched ?_ hstage.queued
    (congrArg PositionManager.fund hstage.positions)
  rw [book_updateStage, ← hx, World.book_applyBook]

theorem ends_routeNewOrder (htidy : w.book.Tidy) (hnew : request.orderType = .new)
    (hpassed : (w.risk.checkOrder request w.positions env.monotonicNs).1.passed = true)
    (h : w.Beside v) (hcandidate : w.Candidate index request 0 v.book)
    (hunlatched : request.internalOrderId ∉ v.book.splitParentErrorLatched)
    (he : v.book.findOrder request.internalOrderId = some active) :
    w.Ends env index request ((routeNewOrder env index active).run v).2 := by
  obtain ⟨e, he', hcompletes, hid, hfee, hindex, hfrozen⟩ := hcandidate.entry
  obtain rfl := Option.some.inj (he'.symm.trans he)
  have hactive : e.request.orderType = .new ∧ e.shmOrderIndex = index :=
    ⟨hcompletes.orderType.trans hnew, hindex⟩
  have htotal := hcompletes.reservationTotal hfee
  unfold routeNewOrder
  simp only
  rw [run_bind]
  obtain ⟨hres, hrun⟩ | ⟨total, g, hres, htot, hfreeze, hrun⟩ | ⟨hres, hno, hrun⟩ :=
    run_reserveOrderResources v e
  -- Nothing to reserve.
  · have hreserves : w.Reserves request 0 w.positions.fund :=
      Or.inr ⟨hcompletes.reserves ▸ hres, rfl, rfl⟩
    rw [hrun, hid]
    exact ends_routed htidy hnew (World.affords_iff.2 ⟨hpassed, 0, _, hreserves⟩) hreserves
      ⟨h.positions, h.downstream, h.attached⟩ hcandidate hunlatched hactive hid
  -- The cost is frozen, and the order notes what it holds.
  · have hreserves : w.Reserves request total g := by
      rw [h.positions] at hfreeze
      exact Or.inl ⟨hcompletes.reserves ▸ hres, htotal ▸ htot, hfreeze⟩
    rw [hrun, hid]
    have hsettled : World.Beside { w with positions := { w.positions with fund := g } }
        (v.settle request.internalOrderId (g, total)) :=
      ⟨congrArg (fun m : PositionManager => { m with fund := g }) h.positions,
        h.downstream, h.attached⟩
    have hfrozen : w.Candidate index request total
        (v.settle request.internalOrderId (g, total)).book :=
      hcandidate.modifyOrder (fun _ => rfl) (fun _ => rfl) fun _ _ => rfl
    exact ends_routed htidy hnew (World.affords_iff.2 ⟨hpassed, total, g, hreserves⟩)
      hreserves hsettled hfrozen hunlatched hactive hid
  -- The fund cannot freeze the cost, so the order is rejected.
  · have haffords : ¬ w.Affords env request := by
      rintro ⟨-, hfunds⟩
      obtain ⟨total, g, htot, hfreeze⟩ := hfunds (hcompletes.reserves ▸ hres)
      rw [← h.positions] at hfreeze
      exact hno total g (htotal.trans htot) hfreeze
    rw [hrun, hid]
    exact ends_rejected haffords h hcandidate hunlatched

/-- From its entry into the book on, the order goes through the risk check to one of its ends. -/
theorem ends_entered (htidy : w.book.Tidy) {cfg : Config} (hnew : request.orderType = .new)
    (hunmanaged : cfg.Unmanaged request) (h : w.Beside v) (hrisk : v.risk = w.risk)
    (hcandidate : w.Candidate index request 0 v.book)
    (hunlatched : request.internalOrderId ∉ v.book.splitParentErrorLatched) :
    w.Ends env index request ((do
      let _ ← updateState env.nowNs request.internalOrderId .riskControllerPending
      let passed ← passesRisk env request
      if passed then
        let _ ← updateState env.nowNs request.internalOrderId .riskControllerAccepted
        dispatchOrder cfg env index request.internalOrderId
      else
        let _ ← updateState env.nowNs request.internalOrderId .riskControllerRejected
        updateStage index .riskRejected env.nowNs : Service Unit).run v).2 := by
  -- only an error latches the order
  have hkept : ∀ (b : OrderBook) (state : OrderState), state ≠ .traderError →
      request.internalOrderId ∉ b.splitParentErrorLatched → request.internalOrderId ∉
        (b.updateState request.internalOrderId state env.nowNs).book.splitParentErrorLatched := by
    intro b state hstate hnot hmem
    obtain hmem | ⟨-, herror, -⟩ := (OrderBook.marks_updateState b _ state env.nowNs).2 _ hmem
    · exact hnot hmem
    · exact hstate herror
  simp only [updateState, run_bind, run_onBook]
  generalize hp : v.applyBook env.nowNs
    (fun b => b.updateState request.internalOrderId .riskControllerPending env.nowNs) = p
  have hpbook : p.book =
      (v.book.updateState request.internalOrderId .riskControllerPending env.nowNs).book := by
    rw [← hp, World.book_applyBook]
  have hpbeside : w.Beside p := hp ▸ h.applyBook env.nowNs _
  have hprisk : p.risk = w.risk := by rw [← hp, World.risk_applyBook, hrisk]
  have hpending : w.Candidate index request 0 p.book :=
    hpbook ▸ hcandidate.updateState htidy hnew _ env.nowNs
  have hpunlatched : request.internalOrderId ∉ p.book.splitParentErrorLatched :=
    hpbook ▸ hkept v.book _ (by decide) hunlatched
  obtain ⟨risk, code, hrun⟩ := run_passesRisk hnew env p
  have hchecked : w.Candidate index request 0
      (p.book.modifyOrder request.internalOrderId fun e => { e with riskResult := code }) :=
    hpending.modifyOrder (fun _ => rfl) (fun _ => rfl) fun _ hzero => hzero
  generalize hc : ({ p with
      risk := risk
      book := p.book.modifyOrder request.internalOrderId fun e => { e with riskResult := code } } :
        World) = c
    at hrun
  have hcbeside : w.Beside c := hc ▸ ⟨hpbeside.positions, hpbeside.downstream, hpbeside.attached⟩
  have hcchecked : w.Candidate index request 0 c.book := hc ▸ hchecked
  have hcunlatched : request.internalOrderId ∉ c.book.splitParentErrorLatched := hc ▸ hpunlatched
  rw [hrun, hprisk, hpbeside.positions]
  cases hpassed : (w.risk.checkOrder request w.positions env.monotonicNs).1.passed with
  | false =>
      have haffords : ¬ w.Affords env request :=
        fun hafford => Bool.false_ne_true (hpassed.symm.trans hafford.1)
      have hend := ends_rejected haffords hcbeside hcchecked hcunlatched
      simp only [updateState, run_bind, run_onBook] at hend
      simp only [Bool.false_eq_true, if_false, run_bind, run_onBook]
      exact hend
  | true =>
      simp only [if_true, run_bind, run_onBook]
      generalize hq : c.applyBook env.nowNs
        (fun b => b.updateState request.internalOrderId .riskControllerAccepted env.nowNs) = q
      have hqbeside : w.Beside q := hq ▸ hcbeside.applyBook env.nowNs _
      have haccepted : w.Candidate index request 0 q.book := by
        rw [← hq, World.book_applyBook]
        exact hcchecked.updateState htidy hnew _ env.nowNs
      have hqunlatched : request.internalOrderId ∉ q.book.splitParentErrorLatched := by
        rw [← hq, World.book_applyBook]
        exact hkept _ _ (by decide) hcunlatched
      obtain ⟨active, hactive, hcompletes, -⟩ := haccepted.entry
      have hmanage : ¬ (cfg.hasExecutionEngine ∧ shouldManage cfg active.request) := by
        rw [shouldManage_congr cfg hcompletes.orderType hcompletes.passiveExecutionAlgo]
        exact hunmanaged
      rw [dispatchOrder]
      rw [run_bind, run_findOrder, hactive]
      simp only
      rw [if_neg hmanage]
      exact ends_routeNewOrder htidy hnew hpassed hqbeside haccepted hqunlatched hactive

/-- An order that enters the book comes to one of its ends. -/
theorem ends_admitOrder (htidy : w.book.Tidy) {cfg : Config} {base : OrderRequest}
    (hbase : base.orderType = .new) (hunmanaged : cfg.Unmanaged base)
    (henters : w.Enters (w.identified cfg base)) :
    w.Ends env index (w.identified cfg base) ((admitOrder cfg env index base).run w).2 := by
  have hcompletes := w.completes_identified cfg base
  obtain ⟨hassigned, hbeside, hrisk, next, hbook⟩ := run_assignOrderId env index base w
  rw [admitOrder]
  rw [run_bind, hassigned]
  generalize ((assignOrderId env index base).run w).2 = v at hbeside hrisk hbook ⊢
  have hrequest : prepareOrderEstimate cfg { base with internalOrderId := w.assignedId base } =
    w.identified cfg base := rfl
  simp only [hrequest]
  generalize w.identified cfg base = request at henters hcompletes ⊢
  have hok : (v.book.addOrder (requestEntry env index request) env.nowNs).ok = true := by
    rw [OrderBook.addOrder_ok_iff, hbook]
    exact henters
  obtain ⟨hcandidate, hunlatched⟩ := World.Candidate.addOrder htidy hbook hok
  have hstill : cfg.Unmanaged request := by
    rw [Config.Unmanaged]
    rw [shouldManage_congr cfg hcompletes.orderType hcompletes.passiveExecutionAlgo]
    exact hunmanaged
  rw [run_bind, addOrder, run_onBook, hok]
  simp only [if_true]
  refine ends_entered htidy (hcompletes.orderType.trans hbase) hstill
    (hbeside.applyBook env.nowNs _) ?_ ?_ ?_
  · rw [World.risk_applyBook, hrisk]
  · rw [World.book_applyBook]
    exact hcandidate
  · rw [World.book_applyBook]
    exact hunlatched

end Service

/-! ## Admission is atomic, unless the order is its own child -/

namespace World.Candidate

variable {w : World} {index : OrderIndex} {request : OrderRequest} {frozen : DValue} {b : OrderBook}

/-- The order stands as submitted unless a sibling has got further. -/
theorem submitted_iff (h : w.Candidate index request frozen b) (htidy : w.book.Tidy)
    (hnew : request.orderType = .new)
    (hunlatched : request.internalOrderId ∉ b.splitParentErrorLatched)
    (now : TimestampNs) :
    (b.updateState request.internalOrderId .traderSubmitted now).book.stateOf
        request.internalOrderId = some .traderSubmitted ↔
      (w.book.childToParent.lookup request.internalOrderId = some request.internalOrderId →
        ∀ s, w.book.HasSibling request.internalOrderId s →
          s.progressRank ≤ OrderState.progressRank .traderSubmitted) := by
  obtain ⟨e, he, hcompletes, -⟩ := h.entry
  by_cases hself : w.book.childToParent.lookup request.internalOrderId =
    some request.internalOrderId
  · rw [(h.selfRegistered htidy hself).submitted_updateState_iff hunlatched he
      (hcompletes.orderType.trans hnew) now]
    simp only [h.hasSibling_iff hself, hself, forall_const]
  · rw [OrderBook.stateOf, OrderBook.findOrder_updateState_self (h.childToParent ▸ hself) he]
    exact ⟨fun _ hself' => absurd hself' hself, fun _ => rfl⟩

/-- The order stands as rejected unless a sibling makes progress. -/
theorem rejected_iff (h : w.Candidate index request frozen b) (htidy : w.book.Tidy)
    (hnew : request.orderType = .new)
    (hunlatched : request.internalOrderId ∉ b.splitParentErrorLatched)
    (now : TimestampNs) :
    (∃ s, (b.updateState request.internalOrderId .riskControllerRejected now).book.stateOf
        request.internalOrderId = some s ∧ s.isTerminal = true) ↔
      (w.book.childToParent.lookup request.internalOrderId = some request.internalOrderId →
        ∀ s, w.book.HasSibling request.internalOrderId s → s.progressRank = 0) := by
  obtain ⟨e, he, hcompletes, -⟩ := h.entry
  by_cases hself : w.book.childToParent.lookup request.internalOrderId =
    some request.internalOrderId
  · rw [(h.selfRegistered htidy hself).isTerminal_updateState_iff hunlatched he
      (hcompletes.orderType.trans hnew) (by decide) (by decide) now]
    simp only [h.hasSibling_iff hself, hself, forall_const]
  · rw [OrderBook.stateOf, OrderBook.findOrder_updateState_self (h.childToParent ▸ hself) he]
    exact ⟨fun _ hself' => absurd hself' hself, fun _ => ⟨.riskControllerRejected, rfl, rfl⟩⟩

end World.Candidate

/-- What `reserve_order_resources` freezes is the cost of the order. -/
theorem reservationTotal_eq_cost {request : OrderRequest} {total : DValue}
    (h : reservationTotal request = some total) : total.toNat = request.cost := by
  rw [reservationTotal, tryCalculateTradeValue] at h
  split at h
  · exact absurd h (by simp)
  next value hvalue =>
    split at hvalue
    · exact absurd hvalue (by simp)
    next hfits =>
      obtain rfl := Option.some.inj hvalue
      rw [tryTotalWithFee] at h
      split at h
      · exact absurd h (by simp)
      next hsum =>
        have hproduct :
            (UInt64.ofNat (request.volumeEntrust.toNat * request.dpriceEntrust.toNat)).toNat =
            request.volumeEntrust.toNat * request.dpriceEntrust.toNat :=
          UInt64.toNat_ofNat_of_lt' (by simp only [UInt64.size]; omega)
        have htotal := UInt64.toNat_ofNat_of_lt' (n := (UInt64.ofNat (request.volumeEntrust.toNat *
          request.dpriceEntrust.toNat)).toNat + request.dfeeEstimate.toNat)
          (by simp only [UInt64.size]; omega)
        rw [← Option.some.inj h, OrderRequest.cost, htotal, hproduct]

/-- A reservation moves the cost of a buy order, and nothing for other sides. -/
theorem World.Reserves.frozenFor {w : World} {request : OrderRequest}
    {frozen : DValue} {g : FundInfo}
    (h : w.Reserves request frozen g) (hnew : request.orderType = .new) :
    if request.tradeSide = .buy then
      w.positions.fund.FrozenFor request.cost g ∧ frozen.toNat = request.cost
    else g = w.positions.fund := by
  rcases h with ⟨hres, htotal, hfreeze⟩ | ⟨hres, -, hsame⟩
  · have hcost := reservationTotal_eq_cost htotal
    obtain ⟨hasset, hmarket, havailable, hfrozen⟩ := FundInfo.freezeFund_facts hfreeze
    rw [hcost] at havailable hfrozen
    rw [if_pos (of_decide_eq_true hres).2]
    exact ⟨⟨havailable, hfrozen, hasset, hmarket⟩, hcost⟩
  · rw [if_neg fun hbuy => of_decide_eq_false hres ⟨hnew, hbuy⟩]
    exact hsame

namespace World.Ends

variable {w v : World} {env : Env} {index : OrderIndex} {base request : OrderRequest}

/-- An order that came to one of its ends is either admitted or refused, unless its siblings keep it
from the state it was given. -/
theorem xor_iff (h : w.Ends env index request v) (htidy : w.book.Tidy)
    (hnew : request.orderType = .new)
    (hcompletes : request.Completes base) (hid : request.internalOrderId = w.assignedId base)
    (hnone : w.book.findOrder request.internalOrderId = none) :
    Xor (w.Admitted index base v) (w.Refused base v) ↔
      (w.book.childToParent.lookup request.internalOrderId = some request.internalOrderId →
        (w.Affords env request → w.Sends index → ∀ s, w.book.HasSibling request.internalOrderId s →
          s.progressRank ≤ OrderState.progressRank .traderSubmitted) ∧
        (¬ w.Affords env request → ∀ s, w.book.HasSibling request.internalOrderId s →
          s.progressRank = 0)) := by
  have hlength : w.queued ≠ w.queued ++ [index] := by simp
  cases h with
  -- The order was sent, so it is not refused; it is admitted if `TraderSubmitted` is what the
  -- refresh of its parent leaves, which only a parent of itself can spoil.
  | @sent frozen g b haffords hsends hreserves hcandidate hunlatched hbook hqueued hfund =>
      have hstate := hcandidate.submitted_iff htidy hnew hunlatched env.nowNs
      rw [← hbook] at hstate
      have hrefused : ¬ w.Refused base v := fun hrefused => hlength (hrefused.1.symm.trans hqueued)
      have hadmitted : w.Admitted index base v ↔
          v.book.stateOf request.internalOrderId = some .traderSubmitted := by
        constructor
        · rintro ⟨-, e, he, hsubmitted, -, -⟩
          rw [OrderBook.stateOf, hid, he, Option.map_some, hsubmitted]
        · intro hsubmitted
          obtain ⟨e, he, hdone, -, hfee, -, hfrozen⟩ :=
            (hcandidate.updateState htidy hnew .traderSubmitted env.nowNs).entry
          rw [← hbook] at he
          rw [OrderBook.stateOf, he, Option.map_some, Option.some.injEq] at hsubmitted
          have hcost : e.request.cost = request.cost := by
            rw [OrderRequest.cost, OrderRequest.cost, hdone.volumeEntrust,
              hdone.dpriceEntrust, hfee]
          have hmoved := hreserves.frozenFor hnew
          rw [hcompletes.tradeSide] at hmoved
          refine ⟨hqueued, e, hid ▸ he, hsubmitted, hdone.trans hcompletes, ?_⟩
          rw [hcost, hfrozen, hfund]
          exact hmoved
      rw [xor_iff_iff_not, iff_true_right hrefused, hadmitted, hstate]
      refine forall_congr' fun _ => ?_
      simp [haffords, hsends]
  -- Its reservation was taken back: it is refused in any case.
  | @takenBack e haffords hsends hentry hstate hfrozen hqueued hfund =>
      have hadmitted : ¬ w.Admitted index base v := fun hadmitted =>
        hlength (hqueued.symm.trans hadmitted.1)
      have hterminal : e.isTerminal = true := by
        rw [OrderEntry.isTerminal, hstate]
        rfl
      have hrefused : w.Refused base v :=
        ⟨hqueued, hfund, Or.inr ⟨hid ▸ hnone, e, hid ▸ hentry, hterminal, hfrozen⟩⟩
      exact ⟨fun _ _ => ⟨fun _ hsend => absurd hsend hsends, fun hno => absurd haffords hno⟩,
        fun _ => Or.inr ⟨hrefused, hadmitted⟩⟩
  -- It was rejected before the route, so it is not admitted; it is refused if the refresh leaves it
  -- terminal.
  | @rejected b haffords hcandidate hunlatched hbook hqueued hfund =>
      have hstate := hcandidate.rejected_iff htidy hnew hunlatched env.nowNs
      rw [← hbook] at hstate
      have hadmitted : ¬ w.Admitted index base v := fun hadmitted =>
        hlength (hqueued.symm.trans hadmitted.1)
      obtain ⟨e, he, -, -, -, -, hfrozen⟩ :=
        (hcandidate.updateState htidy hnew .riskControllerRejected env.nowNs).entry
      rw [← hbook] at he
      have hrefused : w.Refused base v ↔
          ∃ s, v.book.stateOf request.internalOrderId = some s ∧ s.isTerminal = true := by
        rw [OrderBook.stateOf, he, Option.map_some]
        constructor
        · rintro ⟨-, -, hsame | ⟨-, e', he', hterminal, -⟩⟩
          · exact absurd (hsame _ hnone) (by simp [he])
          · rw [← hid, he, Option.some.injEq] at he'
            exact ⟨_, rfl, he' ▸ hterminal⟩
        · rintro ⟨s, hs, hterminal⟩
          rw [← Option.some.inj hs] at hterminal
          exact ⟨hqueued, hfund, Or.inr ⟨hid ▸ hnone, e, hid ▸ he, hterminal, hfrozen⟩⟩
      rw [xor_iff_not_iff', iff_true_left hadmitted, hrefused, hstate]
      refine forall_congr' fun _ => ?_
      simp [haffords]

end World.Ends

/-- A request that changes neither the funds nor the queue and adds no order is refused. -/
theorem World.Beside.xor_of_findOrder {w v : World} (h : w.Beside v)
    (hfind : ∀ k, v.book.findOrder k = w.book.findOrder k) (index : OrderIndex)
    (base : OrderRequest) :
    Xor (w.Admitted index base v) (w.Refused base v) := by
  refine Or.inr ⟨⟨h.queued, congrArg PositionManager.fund h.positions, Or.inl fun k hk => ?_⟩, ?_⟩
  · rw [hfind k, hk]
  · rintro ⟨hqueued, -⟩
    rw [h.queued] at hqueued
    simp at hqueued

namespace Service

open Program

variable {w : World} {env : Env} {index : OrderIndex}

/-- An order that the book does not take leaves it as it was. -/
theorem xor_admitOrder_shut {cfg : Config} {base : OrderRequest}
    (hshut : ¬ w.Enters (w.identified cfg base)) (raw : OrderRequest) :
    Xor (w.Admitted index raw ((admitOrder cfg env index base).run w).2)
      (w.Refused raw ((admitOrder cfg env index base).run w).2) := by
  obtain ⟨hassigned, hbeside, -, next, hbook⟩ := run_assignOrderId env index base w
  rw [admitOrder]
  rw [run_bind, hassigned]
  generalize ((assignOrderId env index base).run w).2 = v at hbeside hbook ⊢
  have hrequest : prepareOrderEstimate cfg { base with internalOrderId := w.assignedId base } =
    w.identified cfg base := rfl
  simp only [hrequest]
  generalize w.identified cfg base = request at hshut ⊢
  have hok : ¬ (v.book.addOrder (requestEntry env index request) env.nowNs).ok = true := by
    rw [OrderBook.addOrder_ok_iff, hbook]
    exact hshut
  simp only [addOrder, run_bind, run_onBook, if_neg hok]
  generalize hu :
    v.applyBook env.nowNs (fun b => b.addOrder (requestEntry env index request) env.nowNs) = u
  have hubeside : w.Beside u := hu ▸ hbeside.applyBook env.nowNs _
  have hubook : u.book = { w.book with nextOrderId := next } := by
    rw [← hu, World.book_applyBook, OrderBook.addOrder_of_not_ok
      (Bool.eq_false_of_not_eq_true hok), hbook]
  refine ((hubeside.updateStage index .queuePushFailed env.nowNs).recordError _).xor_of_findOrder
    ?_ index raw
  intro k
  refine (congrArg (fun b => OrderBook.findOrder b k)
    (book_updateStage index .queuePushFailed env.nowNs u)).trans ?_
  rw [hubook]
  rfl

/-- The admission of a request whose key is known. -/
theorem xor_admitOrder_iff (htidy : w.book.Tidy) {cfg : Config} {base raw : OrderRequest}
    (hnew : base.orderType = .new) (hunmanaged : cfg.Unmanaged base)
    (hcompletes : base.Completes raw)
    (hid : w.assignedId base = w.assignedId raw) :
    Xor (w.Admitted index raw ((admitOrder cfg env index base).run w).2)
        (w.Refused raw ((admitOrder cfg env index base).run w).2) ↔
      (w.Enters (w.identified cfg base) →
        w.book.childToParent.lookup (w.identified cfg base).internalOrderId =
            some (w.identified cfg base).internalOrderId →
          (w.Affords env (w.identified cfg base) → w.Sends index →
            ∀ s, w.book.HasSibling (w.identified cfg base).internalOrderId s →
              s.progressRank ≤ OrderState.progressRank .traderSubmitted) ∧
          (¬ w.Affords env (w.identified cfg base) →
            ∀ s, w.book.HasSibling (w.identified cfg base).internalOrderId s →
              s.progressRank = 0)) := by
  by_cases henters : w.Enters (w.identified cfg base)
  · have hidentified := w.completes_identified cfg base
    rw [(ends_admitOrder htidy hnew hunmanaged henters).xor_iff htidy
      (hidentified.orderType.trans hnew)
      (hidentified.trans hcompletes) ((w.identified_internalOrderId cfg base).trans hid)
        henters.2.1]
    exact ⟨fun h _ => h, fun h => h henters⟩
  · exact ⟨fun _ h => absurd h henters, fun _ => xor_admitOrder_shut henters raw⟩

end Service

/-- Admission is atomic: a new order that the engine does not manage is either admitted or refused,
if and only if no sibling stands in the way of an order that is registered as its own child. -/
theorem admission_atomic_iff {cfg : Config} {w : World} (hw : w.Reachable cfg)
    {request : OrderRequest}
    (hnew : request.orderType = .new) (hunmanaged : cfg.Unmanaged request) (env : Env)
    (index : OrderIndex) :
    Xor (w.Admitted index request (w.step cfg (env, .orderRequest index request)))
        (w.Refused request (w.step cfg (env, .orderRequest index request))) ↔
      w.Undisturbed cfg env index request := by
  have htidy := hw.tidy
  have hstep : w.step cfg (env, .orderRequest index request) =
    ((Service.handleOrderRequest cfg env index request).run w).2 := rfl
  rw [hstep]
  rw [Service.handleOrderRequest, World.Undisturbed, World.completed]
  -- A request without a key gets one from its code, or is turned away before the book.
  by_cases hlacks : request.lacksKey = true
  · simp only [if_pos hlacks]
    cases buildInternalSecurityId request.market request.securityId.view with
    | none =>
        simp only [Option.map_none, reduceCtorEq, false_implies, implies_true, iff_true]
        have hsynced := (World.Beside.refl w).onOrdersShm (.writeSlot index) false fun shm =>
          shm.syncOrder index { request with orderState := .traderError } env.nowNs
        have hbook :
            ((Service.syncOrder index { request with orderState := .traderError } env.nowNs).run
            w).2.book = w.book := by
          obtain ⟨shm, hshm⟩ := w.onOrdersShm_eq (.writeSlot index) false fun shm =>
            shm.syncOrder index { request with orderState := .traderError } env.nowNs
          exact (congrArg World.book hshm).trans rfl
        refine ((hsynced.updateStage index .queuePushFailed env.nowNs).recordError
          _).xor_of_findOrder (fun k => ?_) index request
        exact congrArg (fun b => OrderBook.findOrder b k)
          ((book_updateStage index .queuePushFailed env.nowNs _).trans hbook)
    | some key =>
        simp only [Option.map_some, Option.some.injEq, forall_eq']
        exact Service.xor_admitOrder_iff htidy hnew hunmanaged (.withKey request key) rfl
  · simp only [if_neg hlacks, Option.some.injEq, forall_eq']
    exact Service.xor_admitOrder_iff htidy hnew hunmanaged (.refl request) rfl

/-! An id that was its own child once. The managed parent 4 has two clips, 1 and 2; its own id is
then archived, a cancel of 4 takes the freed id 4 and is registered under 4, and is archived in
turn. -/

def reuseConfig : Config := { clipConfig with archiveTerminalOrders := true }

def reusedParent : OrderRequest :=
  { OrderRequest.ofClient 4 .buy 200 10 with passiveExecutionAlgo := .fixedSize }

/-- A plain order under the id 4. -/
def reusingOrder : OrderRequest :=
  { OrderRequest.ofClient 4 .buy 10 10 with passiveExecutionAlgo := .none }

def reusedStart : World :=
  World.start { totalAsset := 10000, available := 10000 } {} (OrdersShm.ofClients [reusedParent])

def reusingCalls : List (Env × Event) :=
  [({}, .orderRequest 0 reusedParent),
   ({}, .tradeResponse
      { internalOrderId := 1, tradeSide := .buy, newState := .marketAccepted, volumeTraded := 100
        dpriceTraded := 10, dvalueTraded := 1000 }),
   ({}, .tradeResponse { internalOrderId := 1, tradeSide := .buy, newState := .marketAccepted }),
   ({}, .engineTick 0),
   ({}, .tradeResponse { internalOrderId := 4, newState := .finished }),
   ({}, .orderRequest 1 { OrderRequest.ofCancel 4 with internalOrderId := 0 }),
   ({}, .tradeResponse { internalOrderId := 4, newState := .finished })]

def reusedWorld : World := reusedStart.run reuseConfig reusingCalls

theorem reusedWorld_reachable : reusedWorld.Reachable reuseConfig :=
  (World.reachable_start _ _ _ _).run reusingCalls

/-- The plain order is rejected by the risk check, and the book has it as accepted by the market. -/
theorem rejected_order_accepted :
    reusedWorld.Reachable reuseConfig ∧ reusingOrder.orderType = .new ∧
      reuseConfig.Unmanaged reusingOrder ∧
      (reusedWorld.step reuseConfig ({}, .orderRequest 2 reusingOrder)).book.stateOf 4 =
        some .marketAccepted ∧
      ¬ Xor (reusedWorld.Admitted 2 reusingOrder
        (reusedWorld.step reuseConfig ({}, .orderRequest 2 reusingOrder)))
        (reusedWorld.Refused reusingOrder
          (reusedWorld.step reuseConfig ({}, .orderRequest 2 reusingOrder))) := by
  have hstate : (reusedWorld.step reuseConfig ({}, .orderRequest 2 reusingOrder)).book.stateOf 4 =
      some .marketAccepted := by decide
  have hnone : reusedWorld.book.findOrder 4 = none := by decide
  have hid : reusedWorld.assignedId reusingOrder = 4 := rfl
  refine ⟨reusedWorld_reachable, rfl, by decide, hstate, ?_⟩
  rw [OrderBook.stateOf] at hstate
  obtain ⟨e, he, haccepted⟩ := Option.map_eq_some_iff.1 hstate
  rintro (⟨⟨-, e', he', hsubmitted, -, -⟩, -⟩ | ⟨⟨-, -, hsame | ⟨-, e', he', hterminal, -⟩⟩, -⟩)
  · rw [hid, he, Option.some.injEq] at he'
    rw [← he', haccepted] at hsubmitted
    exact absurd hsubmitted (by decide)
  · exact absurd (hsame 4 hnone) (by simp [he])
  · rw [hid, he, Option.some.injEq] at he'
    rw [← he', OrderEntry.isTerminal, haccepted] at hterminal
    exact absurd hterminal (by decide)

/-- Before its id is its own child, the same order is admitted or refused. -/
theorem admission_atomic_fresh :
    reusedStart.Reachable reuseConfig ∧ reuseConfig.Unmanaged reusingOrder ∧
      Xor (reusedStart.Admitted 1 reusingOrder
        (reusedStart.step reuseConfig ({}, .orderRequest 1 reusingOrder)))
        (reusedStart.Refused reusingOrder
          (reusedStart.step reuseConfig ({}, .orderRequest 1 reusingOrder))) := by
  have hstart : reusedStart.Reachable reuseConfig := World.reachable_start _ _ _ _
  refine ⟨hstart, by decide, (admission_atomic_iff hstart rfl (by decide) {} 1).2 ?_⟩
  intro r _ _ hself
  exact absurd hself (by simp [reusedStart, World.start, OrderBook.empty])

end AccountServices
