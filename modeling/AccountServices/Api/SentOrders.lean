import AccountServices.Api.PlacedOrders

/-!
# From the client to the gateway

Every order that a client was told is placed has a slot of its own, in every later state: the
service takes it once, and its index goes into the downstream queue at most once and not before.
Until the execution engine takes the order for a parent of its children, what the gateway would make
of the slot is what it would make of the order as the client placed it.
-/

set_option autoImplicit false

namespace AccountServices

open Foundation

/-! ## The key of a placed order -/

/-- A key that could be built is not empty. -/
theorem isEmpty_buildInternalSecurityId {market : Market} {code : Bytes} {key : InternalSecurityId}
    (h : buildInternalSecurityId market code = some key) : key.isEmpty = false := by
  simp only [buildInternalSecurityId] at h
  split at h
  · exact absurd h (by simp)
  split at h
  · exact absurd h (by simp)
  next hmic _ =>
    obtain rfl := Option.some.inj h
    cases market with
    | notSet => exact absurd rfl hmic
    | sz => rfl
    | sh => rfl
    | bj => rfl
    | hk => rfl
    | unknown => exact absurd rfl hmic

/-- The service takes a request of the interface as it is. -/
theorem lacksKey_request {args : OrderArgs} {mdTime : MdTime} {orderId : InternalOrderId}
    {r : OrderRequest} (h : args.request mdTime orderId = some r) : r.lacksKey = false := by
  obtain ⟨securityId, -, h⟩ := Option.bind_eq_some_iff.1 h
  obtain ⟨algo, -, h⟩ := Option.bind_eq_some_iff.1 h
  obtain ⟨request, hbuild, rfl⟩ := Option.map_eq_some_iff.1 h
  rw [buildNewOrderRequest] at hbuild
  split at hbuild
  · exact absurd hbuild (by simp [Except.toOption])
  split at hbuild
  · exact absurd hbuild (by simp [Except.toOption])
  split at hbuild
  · exact absurd hbuild (by simp [Except.toOption])
  split at hbuild
  · exact absurd hbuild (by simp [Except.toOption])
  next key hkey =>
    obtain rfl := Option.some.inj hbuild
    simp [OrderRequest.lacksKey, OrderRequest.submitted, OrderRequest.initNew,
      isEmpty_buildInternalSecurityId hkey]

/-- No order of the ledger waits for its key. -/
def Ledger.Keyed (l : Ledger) : Prop :=
  (∀ orderId r, l.drafts orderId = some r → r.lacksKey = false) ∧ ∀ r ∈ l.orders, r.lacksKey = false

theorem Ledger.Keyed.record {l : Ledger} (h : l.Keyed) (answered : ApiCall × ApiReply) :
    (l.record answered).Keyed := by
  obtain ⟨call, reply⟩ := answered
  obtain ⟨hdrafts, horders⟩ := h
  have hplaced : ∀ placed : Option OrderRequest, (∀ r, placed = some r → r.lacksKey = false) →
      ∀ r ∈ l.orders ++ placed.toList, r.lacksKey = false := by
    intro placed hkeyed r hr
    rcases List.mem_append.1 hr with hr | hr
    · exact horders r hr
    · exact hkeyed r (Option.mem_toList.1 hr)
  simp only [Ledger.record]
  split
  · exact ⟨hdrafts, horders⟩
  cases call with
  | newOrder clock args =>
      refine ⟨fun orderId r hr => ?_, horders⟩
      simp only [Function.update_apply] at hr
      split at hr
      · exact lacksKey_request hr
      · exact hdrafts orderId r hr
  | sendOrder clock orderId =>
      refine ⟨fun id r hr => ?_, hplaced _ fun r hr => hdrafts orderId r hr⟩
      simp only [Function.update_apply] at hr
      split at hr
      · exact absurd hr (by simp)
      · exact hdrafts id r hr
  | submitOrder clock args => exact ⟨hdrafts, hplaced _ fun r hr => lacksKey_request hr⟩
  | cancelOrder clock origOrderId =>
      exact ⟨hdrafts, hplaced (some _) fun r hr => Option.some.inj hr ▸ rfl⟩
  | queueSize => exact ⟨hdrafts, horders⟩

theorem lacksKey_placedOrders (history : List (ApiCall × ApiReply)) :
    ∀ r ∈ placedOrders history, r.lacksKey = false := by
  have hkeyed : ∀ l : Ledger, l.Keyed → (history.foldl Ledger.record l).Keyed := by
    induction history with
    | nil => exact fun l h => h
    | cons answered history ih => exact fun l h => ih _ (h.record answered)
  exact (hkeyed {} ⟨fun _ _ h => absurd h (by simp), fun _ h => absurd h List.not_mem_nil⟩).2

/-! ## The slot of an order -/

/-- The slot holds the order: the gateway would make of it what it would make of the order, unless
the engine has marked it as the parent of children. -/
def OrderSlot.Holds (slot : OrderSlot) (r : OrderRequest) : Prop :=
  slot.request.executionState = .none →
    mapOrderRequestToBroker slot.request = mapOrderRequestToBroker r

/-- Whatever the service, the gateway and the client do between their accesses, the orders that
waited when the client came and those that it was told are placed have slots of their own, in order.
A slot holds its order, as long as the order has its id and its key, and the placed ones have their
keys. No slot is sent twice, and none that the service has not taken. -/
theorem orders_sent_once {cfg : Config} {first : InternalOrderId} {d : Desk}
    (hrest : d.AtRest first) (env : Interference (Desk.Busy cfg)) (calls : List ApiCall) :
    let out := (clientSession .fresh calls).runAmid env d
    ∃ shm taken, out.2.1.world.ordersShm = some shm ∧ (taken ++ out.2.1.upstream.toList).Nodup ∧
      List.Forall₂ (fun i r => ∃ slot, shm.readSnapshot i = some slot ∧ (r.Complete → slot.Holds r))
        (taken ++ out.2.1.upstream.toList) (d.waiting ++ placedOrders out.1.1) ∧
      (∀ r ∈ placedOrders out.1.1, r.lacksKey = false) ∧
      out.2.1.world.pushed.Nodup ∧ ∀ i ∈ out.2.1.world.pushed, i ∉ out.2.1.upstream.toList := by
  intro out
  obtain ⟨wrote, hserves⟩ := hrest.session env calls
  have hsound := hserves.sound
  obtain ⟨shm, hmirrored⟩ := hsound.keeps.mirrored
  obtain ⟨taken, hsent⟩ := hsound.sent
  have horders :
      d.waiting ++ placedOrders out.1.1 = (taken ++ out.2.1.upstream.toList).map wrote := by
    have hall := hsound.orders
    rw [hsent.received, List.append_assoc] at hall
    rw [List.map_append]
    exact (List.append_cancel_left hall).symm
  refine ⟨shm, taken, hmirrored.attached, hsent.once, ?_, lacksKey_placedOrders out.1.1,
    hsent.sends.once, fun i hi hin => hsent.sends.apart i hi (Or.inr hin)⟩
  rw [horders, List.forall₂_map_right_iff, List.forall₂_same]
  intro i hi
  rcases List.mem_append.1 hi with hi | hi
  · refine ⟨shm.slots i, ?_, fun hcomplete hnone => ?_⟩
    · rw [OrdersShm.readSnapshot,
        if_pos (hsent.sends.known shm hmirrored.attached i (Or.inr (Or.inr hi)))]
    · exact (hsent.sends.carried shm hmirrored.attached i hi hcomplete hnone).2
  · have hheld : i ∈ out.2.1.held ∅ := Or.inr hi
    refine ⟨shm.slots i, ?_, fun _ _ => ?_⟩
    · rw [OrdersShm.readSnapshot, if_pos (hmirrored.held_exists i hheld)]
    · rw [hsound.keeps.contents shm hmirrored.attached i hheld]

theorem second_client_sent_once :
    ((clientSession .fresh secondClient).runAmid servedAlways reopenedDesk).2.1.world.pushed =
      [4, 6, 7] ∧
      ((clientSession .fresh secondClient).runAmid servedAlways
        reopenedDesk).2.1.world.pushed.Nodup := by
  obtain ⟨shm, taken, -, -, -, -, honce, -⟩ :=
    orders_sent_once reopenedDesk_atRest servedAlways secondClient
  exact ⟨by decide +kernel, honce⟩

end AccountServices
