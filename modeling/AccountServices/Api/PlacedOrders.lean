import Mathlib.Data.List.Perm.Subperm
import AccountServices.Api.DeskAtRest

/-!
# What a client was told

The ledger of a client follows from its calls and the replies to them: which orders were made, and
which were placed. It does not mention slots, queues or the service. Whatever the service and the
gateway do while the client makes its calls, the requests that the service receives and those in its
queue are the ones that were there when the client came, and after them the orders of the ledger.
-/

set_option autoImplicit false

namespace AccountServices

open Foundation

/-! ## The ledger -/

/-- The request that the arguments of an order describe, as it is sent. -/
def OrderArgs.request (args : OrderArgs) (mdTime : MdTime) (orderId : InternalOrderId) :
    Option OrderRequest :=
  args.securityId.bind fun securityId =>
    (resolvePassiveExecutionAlgo args.execOptions).bind fun algo =>
      (buildNewOrderRequest args securityId algo mdTime orderId).toOption.map OrderRequest.submitted

/-- The orders that a client has made and not sent, by their ids, and those that it has placed, in
order. -/
structure Ledger where
  drafts : InternalOrderId → Option OrderRequest := fun _ => none
  orders : List OrderRequest := []

/-- The ledger after a call that was answered. -/
def Ledger.record (l : Ledger) : ApiCall × ApiReply → Ledger
  | (call, reply) =>
      if reply.code ≠ .ok then l
      else
        match call with
        | .newOrder clock args =>
            { l with
              drafts := Function.update l.drafts (UInt32.ofNat reply.value)
                (args.request clock.mdTime (UInt32.ofNat reply.value)) }
        | .sendOrder _ orderId =>
            { drafts := Function.update l.drafts orderId none,
              orders := l.orders ++ (l.drafts orderId).toList }
        | .submitOrder clock args =>
            { l with
              orders := l.orders ++ (args.request clock.mdTime (UInt32.ofNat reply.value)).toList }
        | .cancelOrder clock origOrderId =>
            { l with
              orders := l.orders ++
                [(OrderRequest.initCancel (UInt32.ofNat reply.value) clock.mdTime
                  origOrderId).submitted] }
        | .queueSize => l

/-- A refused call leaves the ledger as it is. -/
theorem Ledger.record_refused {l : Ledger} (call : ApiCall) {reply : ApiReply}
    (h : reply.code ≠ .ok) : l.record (call, reply) = l := if_pos h

/-- The orders that a client has placed in the calls of a history. -/
def placedOrders (history : List (ApiCall × ApiReply)) : List OrderRequest :=
  (history.foldl Ledger.record {}).orders

/-! ## The client and its ledger -/

/-- The requests that the client keeps are the drafts of the ledger, and the ids of its orders are
among those that it has drawn; it has drawn the ids in `pending` for orders that are neither placed
nor kept yet. -/
structure AcctContext.Matches (ctx : AcctContext) (l : Ledger)
    (pending drawn : List InternalOrderId) : Prop where
  drafts : ∀ orderId, (ctx.cachedOrders.lookup orderId).map OrderRequest.submitted =
    l.drafts orderId
  named : ∀ orderId r, ctx.cachedOrders.lookup orderId = some r → r.internalOrderId = orderId
  drawn : (pending ++ (l.orders.map OrderRequest.internalOrderId ++ ctx.cachedOrders.keys)).Subperm
    drawn

theorem AcctContext.mem_keys (ctx : AcctContext) {orderId : InternalOrderId}
    {request : OrderRequest}
    (hcached : ctx.cachedOrders.lookup orderId = some request) :
    orderId ∈ ctx.cachedOrders.keys := by
  rw [← AList.mem_keys, ← AList.lookup_isSome, hcached]
  rfl

namespace AcctContext.Matches

variable {ctx : AcctContext} {l : Ledger} {pending drawn : List InternalOrderId}
  {orderId : InternalOrderId}

/-- The client draws an id. -/
theorem draw (h : ctx.Matches l pending drawn) (orderId : InternalOrderId) :
    ctx.Matches l (orderId :: pending) (drawn ++ [orderId]) := by
  refine ⟨h.drafts, h.named, ?_⟩
  rw [List.cons_append]
  refine ((List.subperm_cons orderId).2 h.drawn).trans ?_
  exact (List.perm_append_singleton orderId drawn).symm.subperm

/-- The client gives up an order. -/
theorem drop (h : ctx.Matches l (orderId :: pending) drawn) : ctx.Matches l pending drawn :=
  ⟨h.drafts, h.named, (List.sublist_cons_self _ _).subperm.trans h.drawn⟩

/-- The errors of the client are not in its ledger. -/
theorem congr {ctx' : AcctContext} (h : ctx.Matches l pending drawn)
    (heq : ctx'.cachedOrders = ctx.cachedOrders) : ctx'.Matches l pending drawn := by
  refine ⟨?_, ?_, ?_⟩
  all_goals rw [heq]
  · exact h.drafts
  · exact h.named
  · exact h.drawn

/-- A request is kept. -/
theorem keep (h : ctx.Matches l (orderId :: pending) drawn) {request : OrderRequest}
    (hname : request.internalOrderId = orderId) :
    AcctContext.Matches { ctx with cachedOrders := ctx.cachedOrders.insert orderId request }
      { l with drafts := Function.update l.drafts orderId (some request.submitted) }
        pending drawn := by
  refine ⟨fun id => ?_, fun id r hr => ?_, ?_⟩
  · by_cases hid : id = orderId
    · subst hid
      simp only [AList.lookup_insert, Function.update_self, Option.map_some]
    · simp only [AList.lookup_insert_ne hid, Function.update_of_ne hid]
      exact h.drafts id
  · by_cases hid : id = orderId
    · subst hid
      rw [AList.lookup_insert] at hr
      rw [← Option.some.inj hr]
      exact hname
    · rw [AList.lookup_insert_ne hid] at hr
      exact h.named id r hr
  · rw [AList.keys_insert]
    refine List.Subperm.trans ?_ h.drawn
    have hmove : (pending ++ l.orders.map OrderRequest.internalOrderId ++
        orderId :: ctx.cachedOrders.keys.erase orderId).Perm
          (orderId :: (pending ++ l.orders.map OrderRequest.internalOrderId ++
            ctx.cachedOrders.keys.erase orderId)) :=
      List.perm_middle
    rw [List.append_assoc, List.append_assoc] at hmove
    refine hmove.subperm.trans ((List.subperm_cons orderId).2 ?_)
    exact ((List.Sublist.refl _).append ((List.Sublist.refl _).append List.erase_sublist)).subperm

/-- A request is placed. -/
theorem place (h : ctx.Matches l (orderId :: pending) drawn) {request : OrderRequest}
    (hname : request.internalOrderId = orderId) :
    ctx.Matches { l with orders := l.orders ++ [request] } pending drawn := by
  refine ⟨h.drafts, h.named, List.Subperm.trans ?_ h.drawn⟩
  rw [List.map_append, List.map_singleton, hname, List.append_assoc, List.singleton_append]
  have hmove :
      (pending ++ l.orders.map OrderRequest.internalOrderId ++ orderId ::
      ctx.cachedOrders.keys).Perm
      (orderId :: (pending ++ l.orders.map OrderRequest.internalOrderId ++
        ctx.cachedOrders.keys)) :=
    List.perm_middle
  rw [List.append_assoc, List.append_assoc] at hmove
  exact hmove.subperm

/-- A request that was kept is marked. -/
theorem mark (h : ctx.Matches l pending drawn) {cached : OrderRequest}
    (hcached : ctx.cachedOrders.lookup orderId = some cached) :
    AcctContext.Matches { ctx with
      cachedOrders := ctx.cachedOrders.insert orderId cached.submitted } l pending drawn := by
  have hmem := ctx.mem_keys hcached
  refine ⟨fun id => ?_, fun id r hr => ?_, ?_⟩
  · by_cases hid : id = orderId
    · subst hid
      rw [AList.lookup_insert, ← h.drafts id, hcached]
      rfl
    · rw [AList.lookup_insert_ne hid]
      exact h.drafts id
  · by_cases hid : id = orderId
    · subst hid
      rw [AList.lookup_insert] at hr
      rw [← Option.some.inj hr]
      exact h.named id cached hcached
    · rw [AList.lookup_insert_ne hid] at hr
      exact h.named id r hr
  · rw [AList.keys_insert]
    refine List.Subperm.trans (List.Perm.subperm ?_) h.drawn
    exact (((List.perm_cons_erase hmem).symm.append_left _).append_left _)

/-- A request that was kept is placed. -/
theorem send (h : ctx.Matches l pending drawn) {cached : OrderRequest}
    (hcached : ctx.cachedOrders.lookup orderId = some cached) :
    AcctContext.Matches { ctx with cachedOrders := ctx.cachedOrders.erase orderId }
      { drafts := Function.update l.drafts orderId none, orders := l.orders ++ [cached.submitted] }
        pending drawn := by
  have hmem := ctx.mem_keys hcached
  have hname : cached.submitted.internalOrderId = orderId := h.named orderId cached hcached
  refine ⟨fun id => ?_, fun id r hr => ?_, ?_⟩
  · by_cases hid : id = orderId
    · subst hid
      simp only [AList.lookup_erase, Function.update_self, Option.map_none]
    · simp only [AList.lookup_erase_ne hid, Function.update_of_ne hid]
      exact h.drafts id
  · by_cases hid : id = orderId
    · subst hid
      rw [AList.lookup_erase] at hr
      exact absurd hr (by simp)
    · rw [AList.lookup_erase_ne hid] at hr
      exact h.named id r hr
  · rw [AList.keys_erase, List.map_append, List.map_singleton, hname, List.append_assoc,
      List.singleton_append]
    refine List.Subperm.trans (List.Perm.subperm ?_) h.drawn
    exact (((List.perm_cons_erase hmem).symm.append_left _).append_left _)

end AcctContext.Matches

/-! ## Calls among the turns of the service -/

/-- The desk while a client that has come to the desk `start` is in a call: it has the slots in
`mine`, with `wrote` in them, and has drawn the ids in `pending`. -/
structure Desk.Serves (start : Desk) (first : InternalOrderId) (ctx : AcctContext) (l : Ledger)
    (pending : List InternalOrderId) (mine : Set OrderIndex) (wrote : OrderIndex → OrderRequest)
    (d : Desk) :
    Prop where
  sound : d.Sound start.received mine wrote (start.waiting ++ l.orders)
  numbered : d.world.Numbered first d.drawn
  ledger : ctx.Matches l (pending ++ start.drawn) d.drawn

namespace Desk

variable {cfg : Config} {start : Desk} {first : InternalOrderId} {ctx : AcctContext} {l : Ledger}
  {pending : List InternalOrderId} {mine : Set OrderIndex} {wrote : OrderIndex → OrderRequest}

theorem steady_serves : Steady (Busy cfg) (Serves start first ctx l pending mine wrote) := by
  refine steady_busy fun d d' hturn h => ?_
  obtain ⟨hdrawn, hnumbered⟩ : d'.drawn = d.drawn ∧
      (d.world.Numbered first d.drawn → d'.world.Numbered first d.drawn) := numbered_turn hturn
  refine ⟨h.sound.turn hturn, ?_, ?_⟩
  · rw [hdrawn]
    exact hnumbered h.numbered
  · rw [hdrawn]
    exact h.ledger

/-- The client between two calls. -/
def Rests (start : Desk) (first : InternalOrderId) (ctx : AcctContext) (l : Ledger)
    (pending : List InternalOrderId) (d : Desk) :
    Prop := ∃ wrote, Serves start first ctx l pending ∅ wrote d

end Desk

namespace Client

open Program Desk

variable {cfg : Config} {start : Desk} {first : InternalOrderId} {ctx : AcctContext} {l : Ledger}
  {pending : List InternalOrderId} {mine : Set OrderIndex} {wrote : OrderIndex → OrderRequest}

theorem triple_fetchOrderId (ctx : AcctContext) (l : Ledger) :
    Triple (Busy cfg) (Serves start first ctx l pending mine wrote) fetchOrderId fun orderId =>
      Serves start first ctx l (orderId :: pending) mine wrote := by
  refine Triple.atomic steady_serves fun _ d _ h => ?_
  have hcounter := h.numbered.counter
  simp only [hcounter]
  set next := first + UInt32.ofNat (d.drawn.length + d.world.allocated.length)
  have hsound :=
    h.sound.aside (w := { d.world with upstreamNextOrderId := some (next + 1) }) rfl rfl rfl
  exact ⟨hsound.frame rfl rfl rfl, h.numbered.draw hcounter, h.ledger.draw _⟩

/-- The client has written a request to a slot of its own. -/
def Wrote (start : Desk) (first : InternalOrderId) (ctx : AcctContext) (l : Ledger)
    (pending : List InternalOrderId)
    (index : OrderIndex) (request : OrderRequest) (d : Desk) : Prop :=
  ∃ wrote, Serves start first ctx l pending {index} wrote d ∧ wrote index = request

theorem steady_wrote {index : OrderIndex} {request : OrderRequest} :
    Steady (Busy cfg) (Wrote start first ctx l pending index request) := by
  rintro label d d' hbusy ⟨wrote, h, hrequest⟩
  exact ⟨wrote, steady_serves label d d' hbusy h, hrequest⟩

theorem steady_rests : Steady (Busy cfg) (Rests start first ctx l pending) := by
  rintro label d d' hbusy ⟨wrote, h⟩
  exact ⟨wrote, steady_serves label d d' hbusy h⟩

theorem triple_append (ctx : AcctContext) (l : Ledger) (request : OrderRequest)
    (stage : OrderSlotState) (source : OrderSlotSource) (now : TimestampNs) :
    Triple (Busy cfg) (Rests start first ctx l pending) (append request stage source now)
      fun slot d =>
      slot.elim (Rests start first ctx l pending d) fun index =>
        Wrote start first ctx l pending index request d := by
  refine Triple.bind (R := fun slot d => slot.elim (Rests start first ctx l pending d) fun index =>
    ∃ wrote, Serves start first ctx l pending {index} wrote d) ?_ fun slot => ?_
  -- The allocation: a full pool changes nothing; otherwise the slot is this client's until it is
  -- pushed.
  · refine Triple.atomic steady_rests fun _ d _ h => ?_
    obtain ⟨wrote, h⟩ := h
    obtain ⟨shm, hshm⟩ := h.sound.attached
    simp only [hshm]
    by_cases hroom : shm.nextIndex < shm.capacity
    · rw [(OrdersShm.indexExists_tryAllocate hroom).1]
      obtain ⟨wrote', hsound⟩ := h.sound.allocate hshm hroom
      exact ⟨wrote', hsound, ⟨h.numbered.counter, h.numbered.ids⟩, h.ledger⟩
    · have hnone : shm.tryAllocate = (none, shm) := dif_neg hroom
      rw [hnone]
      exact ⟨wrote, h.sound.aside rfl hshm.symm rfl, ⟨h.numbered.counter, h.numbered.ids⟩, h.ledger⟩
  · cases slot with
    | none => exact Triple.pure fun _ h => h
    | some index =>
        refine Triple.bind (R := fun written d => written = true ∧
          Wrote start first ctx l pending index request d) ?_ fun written => Triple.pure_and ?_
        -- The write: the slot exists, and nobody else writes to it in between.
        · refine Triple.atomic (fun label d d' hbusy h => ?_) fun _ d _ h => ?_
          · exact h.imp fun wrote h => steady_serves label d d' hbusy h
          · obtain ⟨wrote, h⟩ := h
            obtain ⟨shm, hshm⟩ := h.sound.attached
            simp only [hshm]
            refine ⟨?_, _,
              ⟨h.sound.write hshm fun _ => rfl, ⟨h.numbered.counter, h.numbered.ids⟩, h.ledger⟩, ?_⟩
            · rw [OrdersShm.writeOrder, OrdersShm.mutateSlot_fst]
              exact h.sound.keeps.mirrored.exists_held hshm (Or.inl (Set.mem_singleton index))
            · rw [Function.update_self]
        · rintro rfl
          exact Triple.pure fun _ h => h

/-- A push of the slot that the client has written. -/
theorem triple_tryPush (ctx : AcctContext) (l : Ledger) {index : OrderIndex}
    {request : OrderRequest}
    {ctx' : AcctContext} {l' : Ledger} (horders : l'.orders = l.orders ++ [request])
    (hplace : ∀ drawn, ctx.Matches l (pending ++ start.drawn) drawn →
      ctx'.Matches l' start.drawn drawn) :
    Triple (Busy cfg) (Wrote start first ctx l pending index request)
      (tryPush index) fun pushed d =>
      if pushed then Rests start first ctx' l' [] d else Rests start first ctx l pending d := by
  refine Triple.atomic steady_wrote fun _ d _ h => ?_
  obtain ⟨wrote, h, rfl⟩ := h
  cases hok : (d.upstream.tryPush index).1 with
  | true =>
      rw [if_pos rfl]
      refine ⟨wrote, ?_, h.numbered, hplace _ h.ledger⟩
      rw [horders, ← List.append_assoc]
      exact h.sound.push hok
  | false =>
      rw [if_neg Bool.false_ne_true, SpscQueue.tryPush_of_false hok]
      exact ⟨wrote, h.sound.drop, h.numbered, h.ledger⟩

theorem triple_setStage (index : OrderIndex) (stage : OrderSlotState) (now : TimestampNs) :
    Triple (Busy cfg) (Rests start first ctx l pending)
      (onPool .setStage false fun shm => shm.updateStage index stage now) fun _ =>
        Rests start first ctx l pending := by
  refine Triple.atomic steady_rests fun _ d _ h => ?_
  obtain ⟨wrote, h⟩ := h
  obtain ⟨shm, hshm⟩ := h.sound.attached
  simp only [hshm]
  exact ⟨wrote, h.sound.stage hshm fun _ => rfl, ⟨h.numbered.counter, h.numbered.ids⟩, h.ledger⟩

theorem triple_queueSize :
    Triple (Busy cfg) (Rests start first ctx l pending) queueSize fun _ =>
      Rests start first ctx l pending :=
  Triple.read steady_rests fun _ h => h

end Client

namespace AcctContext

open Program Desk

variable {cfg : Config} {start : Desk} {first : InternalOrderId} {ctx : AcctContext} {l : Ledger}
  {pending : List InternalOrderId}

/-- How a request ends: it is placed, which the caller enters in the ledger, or refused. -/
def Placed (start : Desk) (first : InternalOrderId) (ctx ctx' : AcctContext) (l l' : Ledger)
    (pending : List InternalOrderId)
    (value : Nat) (out : ApiReply × AcctContext) (d : Desk) : Prop :=
  (out = (⟨.ok, value⟩, ctx) ∧ Rests start first ctx' l' [] d) ∨
    (out.1.code ≠ .ok ∧ out.2.cachedOrders = ctx.cachedOrders ∧ Rests start first ctx l pending d)

theorem triple_enqueueOrder (ctx : AcctContext) (l l' : Ledger) (now : TimestampNs)
    {request : OrderRequest}
    (value : Nat) {ctx' : AcctContext} (horders : l'.orders = l.orders ++ [request])
    (hplace : ∀ drawn, ctx.Matches l (pending ++ start.drawn) drawn →
      ctx'.Matches l' start.drawn drawn) :
    Triple (Busy cfg) (Rests start first ctx l pending) (ctx.enqueueOrder now request value)
      (Placed start first ctx ctx' l l' pending value) := by
  refine Triple.bind (Client.triple_append ctx l request .upstreamQueued .user now) fun slot => ?_
  cases slot with
  | none => exact Triple.pure fun d h => Or.inr ⟨by simp [apiError], rfl, h⟩
  | some index =>
      refine Triple.bind (Client.triple_tryPush ctx l horders hplace) fun pushed => ?_
      cases pushed with
      | true => exact Triple.pure fun d h => Or.inl ⟨rfl, h⟩
      | false =>
          refine Triple.bind (Client.triple_setStage index .queuePushFailed now) fun _ => ?_
          refine Triple.bind Client.triple_queueSize fun size => Triple.pure fun d h => ?_
          exact Or.inr ⟨by simp [apiError], rfl, h⟩

theorem Rests.congr {d : Desk} {ctx' : AcctContext} (h : Rests start first ctx l pending d)
    (heq : ctx'.cachedOrders = ctx.cachedOrders) : Rests start first ctx' l pending d := by
  obtain ⟨wrote, h⟩ := h
  exact ⟨wrote, h.sound, h.numbered, h.ledger.congr heq⟩

theorem Rests.drop {d : Desk} {orderId : InternalOrderId}
    (h : Rests start first ctx l (orderId :: pending) d) : Rests start first ctx l pending d := by
  obtain ⟨wrote, h⟩ := h
  exact ⟨wrote, h.sound, h.numbered, h.ledger.drop⟩

/-- A refused call. -/
theorem triple_apiError (call : ApiCall) (code : AcctError) (error : ErrorCode)
    (message : String) {d : Desk} (hcode : code ≠ .ok) (h : Rests start first ctx l [] d) :
    Rests start first (ctx.apiError code error message).2
      (l.record (call, (ctx.apiError code error message).1)) [] d := by
  rw [Ledger.record_refused call hcode]
  exact Rests.congr h rfl

/-- The id of a new request is the one that it was built with. -/
theorem internalOrderId_buildNewOrderRequest {args : OrderArgs} {securityId : Bytes}
    {algo : PassiveExecutionAlgo}
    {mdTime : MdTime} {orderId : InternalOrderId} {request : OrderRequest}
    (h : buildNewOrderRequest args securityId algo mdTime orderId = .ok request) :
    request.internalOrderId = orderId := by
  simp only [buildNewOrderRequest] at h
  split at h
  · exact absurd h (by simp)
  · split at h
    · exact absurd h (by simp)
    · split at h
      · exact absurd h (by simp)
      · split at h
        · exact absurd h (by simp)
        · rw [← Except.ok.inj h]
          rfl

theorem request_of_build {args : OrderArgs} {securityId : Bytes} {algo : PassiveExecutionAlgo}
    {mdTime : MdTime} {orderId : InternalOrderId} {request : OrderRequest}
    (hsecurity : args.securityId = some securityId)
    (halgo : resolvePassiveExecutionAlgo args.execOptions = some algo)
    (hbuild : buildNewOrderRequest args securityId algo mdTime orderId = .ok request) :
    args.request mdTime orderId = some request.submitted := by
  rw [OrderArgs.request, hsecurity, Option.bind_some, halgo, Option.bind_some, hbuild]
  rfl

theorem triple_draw (ctx : AcctContext) (l : Ledger) :
    Triple (Busy cfg) (Rests start first ctx l pending) Client.fetchOrderId fun orderId =>
      Rests start first ctx l (orderId :: pending) :=
  Triple.exists fun wrote => (Client.triple_fetchOrderId ctx l).mono (fun _ h => h)
    fun _ _ h => ⟨wrote, h⟩

theorem triple_newOrder (ctx : AcctContext) (l : Ledger) (clock : ApiClock) (args : OrderArgs) :
    Triple (Busy cfg) (Rests start first ctx l []) (ctx.newOrder clock args) fun out =>
      Rests start first out.2 (l.record (.newOrder clock args, out.1)) [] := by
  simp only [newOrder]
  cases hsecurity : args.securityId with
  | none => exact Triple.pure fun d h => triple_apiError _ _ _ _ (by decide) h
  | some securityId =>
      refine Triple.ite (fun _ => Triple.pure fun d h => triple_apiError _ _ _ _ (by decide) h)
        fun _ => ?_
      cases halgo : resolvePassiveExecutionAlgo args.execOptions with
      | none => exact Triple.pure fun d h => triple_apiError _ _ _ _ (by decide) h
      | some algo =>
          refine Triple.bind (triple_draw ctx l) fun orderId => ?_
          cases hbuild : buildNewOrderRequest args securityId algo clock.mdTime orderId with
          | error message => exact Triple.pure fun d h =>
              triple_apiError _ _ _ _ (by decide) (Rests.drop h)
          | ok request =>
              refine Triple.pure fun d h => ?_
              obtain ⟨wrote, h⟩ := h
              have hkeep := h.ledger.keep (internalOrderId_buildNewOrderRequest hbuild)
              rw [← request_of_build hsecurity halgo hbuild] at hkeep
              refine ⟨wrote, h.sound, h.numbered, ?_⟩
              simp only [Ledger.record, ne_eq, not_true_eq_false, if_false, UInt32.ofNat_toNat]
              exact hkeep

theorem triple_submitOrder (ctx : AcctContext) (l : Ledger) (clock : ApiClock) (args : OrderArgs) :
    Triple (Busy cfg) (Rests start first ctx l []) (ctx.submitOrder clock args) fun out =>
      Rests start first out.2 (l.record (.submitOrder clock args, out.1)) [] := by
  simp only [submitOrder]
  cases hsecurity : args.securityId with
  | none => exact Triple.pure fun d h => triple_apiError _ _ _ _ (by decide) h
  | some securityId =>
      cases halgo : resolvePassiveExecutionAlgo args.execOptions with
      | none => exact Triple.pure fun d h => triple_apiError _ _ _ _ (by decide) h
      | some algo =>
          refine Triple.bind (triple_draw ctx l) fun orderId => ?_
          cases hbuild : buildNewOrderRequest args securityId algo clock.mdTime orderId with
          | error message => exact Triple.pure fun d h =>
              triple_apiError _ _ _ _ (by decide) (Rests.drop h)
          | ok request =>
              have hrequest := request_of_build hsecurity halgo hbuild
              have hname : request.submitted.internalOrderId = orderId :=
                (internalOrderId_buildNewOrderRequest hbuild : request.internalOrderId = orderId)
              refine (triple_enqueueOrder ctx l
                { l with orders := l.orders ++ [request.submitted] } clock.nowNs
                orderId.toNat rfl fun drawn h => h.place hname).mono (fun _ h => h) fun out d h =>
                  ?_
              rcases h with ⟨rfl, h⟩ | ⟨hcode, hcached, h⟩
              · simp only [Ledger.record, ne_eq, not_true_eq_false, if_false,
                  UInt32.ofNat_toNat, hrequest]
                exact h
              · rw [Ledger.record_refused _ hcode]
                exact Rests.congr (Rests.drop h) hcached

theorem triple_cancelOrder (ctx : AcctContext) (l : Ledger) (clock : ApiClock)
    (origOrderId : InternalOrderId) :
    Triple (Busy cfg) (Rests start first ctx l []) (ctx.cancelOrder clock origOrderId) fun out =>
      Rests start first out.2 (l.record (.cancelOrder clock origOrderId, out.1)) [] := by
  refine Triple.bind (triple_draw ctx l) fun cancelId => ?_
  refine (triple_enqueueOrder ctx l
    { l with orders := l.orders ++
      [(OrderRequest.initCancel cancelId clock.mdTime origOrderId).submitted] }
    clock.nowNs cancelId.toNat rfl fun drawn h => h.place rfl).mono (fun _ h => h) fun out d h => ?_
  rcases h with ⟨rfl, h⟩ | ⟨hcode, hcached, h⟩
  · simp only [Ledger.record, ne_eq, not_true_eq_false, if_false, UInt32.ofNat_toNat]
    exact h
  · rw [Ledger.record_refused _ hcode]
    exact Rests.congr (Rests.drop h) hcached

theorem triple_sendOrder (ctx : AcctContext) (l : Ledger) (clock : ApiClock)
    (orderId : InternalOrderId) :
    Triple (Busy cfg) (Rests start first ctx l []) (ctx.sendOrder clock orderId) fun out =>
      Rests start first out.2 (l.record (.sendOrder clock orderId, out.1)) [] := by
  simp only [sendOrder]
  cases hcached : ctx.cachedOrders.lookup orderId with
  | none => exact Triple.pure fun d h => triple_apiError _ _ _ _ (by decide) h
  | some cached =>
      set marked : AcctContext :=
        { ctx with cachedOrders := ctx.cachedOrders.insert orderId cached.submitted }
        with hmarked
      have hlookup : marked.cachedOrders.lookup orderId = some cached.submitted :=
        AList.lookup_insert _
      -- the draft of the ledger is the request that is sent
      have hsend : ∀ drawn, marked.Matches l ([] ++ start.drawn) drawn → AcctContext.Matches
          { marked with cachedOrders := marked.cachedOrders.erase orderId }
          { drafts := Function.update l.drafts orderId none,
            orders := l.orders ++ [cached.submitted] } start.drawn drawn := by
        intro drawn h
        have hsent := h.send hlookup
        exact hsent
      have hstart : ∀ d, Rests start first ctx l [] d → l.drafts orderId = some cached.submitted ∧
          Rests start first marked l [] d := by
        rintro d ⟨wrote, h⟩
        refine ⟨?_, wrote, h.sound, h.numbered, h.ledger.mark hcached⟩
        rw [← h.ledger.drafts orderId, hcached, Option.map_some]
      refine Triple.mono (Triple.pure_and fun hdraft => ?_) hstart fun _ _ h => h
      refine Triple.bind (triple_enqueueOrder marked l _ clock.nowNs 0 rfl hsend) fun out =>
        Triple.pure fun d h => ?_
      rcases h with ⟨rfl, h⟩ | ⟨hcode, hkept, h⟩
      · simp only [Ledger.record, ne_eq, not_true_eq_false, if_false, if_true, hdraft]
        exact h
      · rw [if_neg hcode, Ledger.record_refused _ hcode]
        exact Rests.congr h hkept

/-- A call and its reply are entered in the ledger. -/
theorem triple_call (call : ApiCall) (ctx : AcctContext) (l : Ledger) :
    Triple (Busy cfg) (Rests start first ctx l []) (call.program ctx) fun out =>
      Rests start first out.2 (l.record (call, out.1)) [] := by
  cases call with
  | newOrder clock args => exact triple_newOrder ctx l clock args
  | sendOrder clock orderId => exact triple_sendOrder ctx l clock orderId
  | submitOrder clock args => exact triple_submitOrder ctx l clock args
  | cancelOrder clock origOrderId => exact triple_cancelOrder ctx l clock origOrderId
  | queueSize => exact Triple.bind Client.triple_queueSize fun size => Triple.pure fun _ h => h

theorem triple_clientSession (calls : List ApiCall) (ctx : AcctContext) (l : Ledger) :
    Triple (Busy cfg) (Rests start first ctx l []) (clientSession ctx calls) fun out =>
      Rests start first out.2 (out.1.foldl Ledger.record l) [] := by
  induction calls generalizing ctx l with
  | nil => exact Triple.pure fun _ h => h
  | cons call calls ih =>
      refine Triple.bind (triple_call call ctx l) fun out => ?_
      exact Triple.bind (ih out.2 (l.record (call, out.1))) fun rest => Triple.pure fun _ h => h

end AcctContext

/-! ## Whole sessions -/

/-- A client that has not made a call yet. -/
def AcctContext.fresh : AcctContext := { cachedOrders := ∅ }

theorem Desk.AtRest.rests {first : InternalOrderId} {d : Desk} (h : d.AtRest first) :
    Desk.Rests d first .fresh {} [] d := by
  obtain ⟨wrote, hsound⟩ := h.sound
  refine ⟨wrote, ?_, h.numbered, ⟨fun _ => rfl, fun _ _ hr => ?_, ?_⟩⟩
  · rw [List.append_nil]
    exact hsound
  · exact absurd hr (by simp [AcctContext.fresh])
  · have hnone : ([] ++ d.drawn) ++ (([] : List OrderRequest).map OrderRequest.internalOrderId ++
        AcctContext.fresh.cachedOrders.keys) = d.drawn := by
      simp [AcctContext.fresh]
    rw [hnone]

/-- A session of a client from its first call on, amid a schedule of the service and the gateway. -/
theorem Desk.AtRest.session {cfg : Config} {first : InternalOrderId} {d : Desk} (h : d.AtRest first)
    (env : Interference (Desk.Busy cfg)) (calls : List ApiCall) :
    Desk.Rests d first ((clientSession .fresh calls).runAmid env d).1.2
      (((clientSession .fresh calls).runAmid env d).1.1.foldl Ledger.record {}) []
      ((clientSession .fresh calls).runAmid env d).2.1 :=
  AcctContext.triple_clientSession calls .fresh {} env d h.rests

/-- When a client leaves, the next one may come. -/
theorem Desk.AtRest.left {cfg : Config} {first : InternalOrderId} {d : Desk} (h : d.AtRest first)
    (env : Interference (Desk.Busy cfg)) (calls : List ApiCall) :
    (((clientSession .fresh calls).runAmid env d).2.1).AtRest first := by
  obtain ⟨wrote, hserves⟩ := h.session env calls
  exact hserves.sound.atRest hserves.numbered

/-- The desks that clients find: turns of the service and the gateway, sessions of one client after
another and restarts of the service, from a new service on. -/
inductive Desk.Reached (cfg : Config) (first : InternalOrderId) : Desk → Prop
  | start {d : Desk} (hopen : d.Open first) : Reached cfg first d
  | turn {d d' : Desk} (h : Reached cfg first d) (hturn : Desk.Turn cfg d d') : Reached cfg first d'
  | session {d : Desk} (h : Reached cfg first d) (env : Interference (Desk.Busy cfg))
      (calls : List ApiCall) : Reached cfg first ((clientSession .fresh calls).runAmid env d).2.1
  | restart {d : Desk} (h : Reached cfg first d) (hrecoverable : d.Recoverable)
      (load : PositionManager → Bool × PositionManager) (now : TimestampNs) :
      Reached cfg first (d.restart load now)

/-- Every client finds a desk at rest. -/
theorem Desk.Reached.atRest {cfg : Config} {first : InternalOrderId} {d : Desk}
    (h : d.Reached cfg first) : d.AtRest first := by
  induction h with
  | start hopen => exact hopen.atRest
  | turn _ hturn ih => exact ih.turn hturn
  | session _ env calls ih => exact ih.left env calls
  | restart _ hrecoverable load now ih => exact ih.restart hrecoverable load now

/-- Whatever the service and the gateway do between the accesses of the client, the requests that
the service has been given, followed by those that wait in its queue, are those that it had been
given and that waited when the client came, and then the orders that the client was told are placed:
each once, in their order, as they were written. -/
theorem orders_received_once {cfg : Config} {first : InternalOrderId} {d : Desk}
    (hrest : d.AtRest first) (env : Interference (Desk.Busy cfg)) (calls : List ApiCall) :
    ((clientSession .fresh calls).runAmid env d).2.1.received ++
        ((clientSession .fresh calls).runAmid env d).2.1.waiting =
      d.received ++ d.waiting ++ placedOrders ((clientSession .fresh calls).runAmid env d).1.1 := by
  obtain ⟨wrote, h⟩ := hrest.session env calls
  rw [h.sound.waiting_eq, h.sound.orders, ← List.append_assoc]
  rfl

/-- A desk whose client has four slots of the pool to itself. -/
def quietDesk : Desk where
  world := World.start { totalAsset := 10000, available := 10000 } {} (OrdersShm.ofClients [])
  upstream := SpscQueue.init 0
  responses := SpscQueue.init {}

theorem quietDesk_open : quietDesk.Open 1 := ⟨rfl, rfl, rfl, rfl, rfl, rfl, rfl⟩

/-- Orders are split into clips of a hundred. -/
def clippingConfig : Config where
  hasExecutionEngine := true
  splitConfig := { strategy := .fixedSize, maxChildVolume := 100 }
  hasMarketDataService := true
  allowOrderPriceFallback := true

/-- Before every access of a client the service takes an order, and the execution engine works. -/
def servedAlways : Interference (Desk.Busy clippingConfig) where
  act _ _ d :=
    let d := (d.takeOrder clippingConfig {}).2
    { d with world := d.world.step clippingConfig ({}, .engineTick 0) }
  rely _ _ d := .tail (.single (.order d {})) (.call _ {} rfl)

/-- An order for a share, with the number of an algorithm. -/
def buyShares (volume : Volume) (algo : UInt8) : OrderArgs :=
  ⟨some (asciiBytes ['6', '0', '0', '0', '0', '0']), 1, 2, volume, 10, some algo⟩

/-- A client that submits an order and then looks at the queue. -/
def firstClient : List ApiCall := [.submitOrder {} (buyShares 100 1), .queueSize]

/-- A client that has an order split, and makes another one that it sends later. -/
def secondClient : List ApiCall :=
  [.submitOrder {} (buyShares 250 2), .newOrder {} (buyShares 200 1), .sendOrder {} 4, .queueSize]

/-- The first client has left. -/
def leftDesk : Desk := ((clientSession .fresh firstClient).runAmid servedAlways quietDesk).2.1

/-- The service has recovered the order of the first client. -/
def reopenedDesk : Desk := leftDesk.restart (fun m => (false, m)) 0

theorem leftDesk_recoverable : leftDesk.Recoverable := by
  intro shm hshm i hexists heligible
  have hpool : leftDesk.world.ordersShm.any (fun shm => decide (shm.nextIndex = 5) &&
      ([0, 1, 2, 3, 4] : List OrderIndex).all fun i => decide (shm.slots i).request.CountsRemain) =
        true := by
    decide +kernel
  have hqueue : leftDesk.upstream.toList = [] := by decide +kernel
  rw [hshm, Option.any_some, Bool.and_eq_true, decide_eq_true_eq, List.all_eq_true] at hpool
  have hlt : i.toNat < 5 := by
    have hlt := UInt32.lt_iff_toNat_lt.1 ((Recovery.indexExists_iff shm i).1 hexists)
    rw [hpool.1] at hlt
    exact hlt
  have hmem : i ∈ ([0, 1, 2, 3, 4] : List OrderIndex) := by
    simp only [List.mem_cons, ← UInt32.toNat_inj, List.not_mem_nil, or_false]
    have hnumbers : (0 : OrderIndex).toNat = 0 ∧ (1 : OrderIndex).toNat = 1 ∧
        (2 : OrderIndex).toNat = 2 ∧
        (3 : OrderIndex).toNat = 3 ∧ (4 : OrderIndex).toNat = 4 := by decide
    omega
  rw [hqueue]
  exact ⟨List.not_mem_nil, of_decide_eq_true (hpool.2 i hmem)⟩

theorem reopenedDesk_atRest : reopenedDesk.AtRest 1 :=
  (((Desk.Reached.start quietDesk_open).session servedAlways firstClient).restart
    leftDesk_recoverable _ 0).atRest

theorem second_client_received :
    (((clientSession .fresh secondClient).runAmid servedAlways reopenedDesk).2.1.received ++
      ((clientSession .fresh secondClient).runAmid servedAlways reopenedDesk).2.1.waiting).map
        OrderRequest.internalOrderId = [1, 2, 4] := by
  rw [orders_received_once reopenedDesk_atRest servedAlways secondClient]
  decide +kernel

/-- As long as not all ids are used up, the orders of the client and those of the service have
different ids, and none of them is an id that was drawn before the client came. -/
theorem order_ids_distinct {cfg : Config} {first : InternalOrderId} {d : Desk}
    (hrest : d.AtRest first) (env : Interference (Desk.Busy cfg)) (calls : List ApiCall)
    (hfew : ((clientSession .fresh calls).runAmid env d).2.1.drawn.length +
      ((clientSession .fresh calls).runAmid env d).2.1.world.allocated.length ≤ 2 ^ 32) :
    (d.drawn ++ (placedOrders ((clientSession .fresh calls).runAmid env d).1.1).map
      OrderRequest.internalOrderId ++
      ((clientSession .fresh calls).runAmid env d).2.1.world.allocated).Nodup := by
  obtain ⟨wrote, h⟩ := hrest.session env calls
  have hplaced : (d.drawn ++ (placedOrders ((clientSession .fresh calls).runAmid env d).1.1).map
      OrderRequest.internalOrderId).Subperm
        ((clientSession .fresh calls).runAmid env d).2.1.drawn := by
    refine List.Subperm.trans ?_ h.ledger.drawn
    rw [List.nil_append, ← List.append_assoc]
    exact (List.sublist_append_left _ _).subperm
  obtain ⟨ids, hperm, hsub⟩ := (List.subperm_append_right
    ((clientSession .fresh calls).runAmid env d).2.1.world.allocated).2 hplaced
  exact hperm.nodup_iff.1 ((h.numbered.nodup hfew).sublist hsub)

theorem second_client_ids_distinct :
    ((placedOrders ((clientSession .fresh secondClient).runAmid servedAlways reopenedDesk).1.1).map
        OrderRequest.internalOrderId = [2, 4] ∧
      ((clientSession .fresh secondClient).runAmid servedAlways reopenedDesk).2.1.world.allocated =
        [3]) ∧
    (reopenedDesk.drawn ++
      (placedOrders ((clientSession .fresh secondClient).runAmid servedAlways reopenedDesk).1.1).map
        OrderRequest.internalOrderId ++
          ((clientSession .fresh secondClient).runAmid servedAlways
            reopenedDesk).2.1.world.allocated).Nodup :=
  ⟨by decide +kernel, order_ids_distinct reopenedDesk_atRest servedAlways secondClient
    (by decide +kernel)⟩

/-- Whatever the client does, the slot of a live order holds its request, no two live orders share a
slot, and none has a slot that waits in the queue. -/
theorem desk_mirrors_book {cfg : Config} {first : InternalOrderId} {d : Desk}
    (hrest : d.AtRest first) (env : Interference (Desk.Busy cfg)) (calls : List ApiCall) :
    ∃ shm, ((clientSession .fresh calls).runAmid env d).2.1.world.ordersShm = some shm ∧
      ∀ orderId e, ((clientSession .fresh calls).runAmid env d).2.1.world.book.findOrder
        orderId = some e →
        e.HasSlot → (shm.readSnapshot e.shmOrderIndex).map OrderSlot.request = some e.request ∧
          e.shmOrderIndex ∉ ((clientSession .fresh calls).runAmid env d).2.1.upstream.toList ∧
          ∀ orderId' e', ((clientSession .fresh calls).runAmid env d).2.1.world.book.findOrder
            orderId' = some e' → e'.shmOrderIndex = e.shmOrderIndex → orderId' = orderId := by
  obtain ⟨wrote, h⟩ := hrest.session env calls
  obtain ⟨shm, hmirrored⟩ := h.sound.keeps.mirrored
  refine ⟨shm, hmirrored.attached, fun orderId e he hhas =>
    ⟨?_, fun hin => ?_, fun orderId' e' he' heq => ?_⟩⟩
  · rw [OrdersShm.readSnapshot, if_pos (hmirrored.slot_exists orderId e he hhas), Option.map_some,
      hmirrored.request orderId e (Set.notMem_empty orderId) he hhas]
  · exact hmirrored.slot_private orderId e he hhas (Or.inr hin)
  · exact (hmirrored.slot_distinct orderId orderId' e e' he he' hhas heq.symm).symm

/-- The orders of both clients and the clip, with their slots. -/
def liveOrders : List (InternalOrderId × OrderIndex) := [(1, 4), (3, 6), (4, 7)]

theorem second_client_mirrored :
    ∃ shm, ((clientSession .fresh secondClient).runAmid servedAlways
      reopenedDesk).2.1.world.ordersShm = some shm ∧ ∀ live ∈ liveOrders,
        (shm.readSnapshot live.2).map (fun slot => slot.request.internalOrderId) = some live.1 := by
  obtain ⟨shm, hshm, hmirror⟩ := desk_mirrors_book reopenedDesk_atRest servedAlways secondClient
  have hlive : (liveOrders.all fun live => decide (live.2 ≠ kInvalidOrderIndex ∧
      (((clientSession .fresh secondClient).runAmid servedAlways
        reopenedDesk).2.1.world.book.findOrder live.1).map
        (fun e => (e.shmOrderIndex, e.request.internalOrderId)) = some (live.2, live.1))) =
          true := by
    decide +kernel
  rw [List.all_eq_true] at hlive
  refine ⟨shm, hshm, fun live hmem => ?_⟩
  obtain ⟨hvalid, hentry⟩ := of_decide_eq_true (hlive live hmem)
  obtain ⟨e, he, hslot⟩ := Option.map_eq_some_iff.1 hentry
  obtain ⟨hindex, hid⟩ := Prod.ext_iff.1 hslot
  simp only at hindex hid
  have hread := (hmirror live.1 e he (by rw [OrderEntry.HasSlot, hindex]; exact hvalid)).1
  rw [hindex] at hread
  obtain ⟨slot, hsome, hrequest⟩ := Option.map_eq_some_iff.1 hread
  rw [hsome, Option.map_some, hrequest, hid]

end AccountServices
