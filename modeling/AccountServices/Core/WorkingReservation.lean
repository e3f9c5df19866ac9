import AccountServices.Core.FundReservation

/-!
# The reservation of a working order

A buy order that works at the broker keeps what it has reserved, less what its own fills have cost.
Its reservation is released when it becomes terminal itself, and also when a cancel that names it
becomes terminal: finished or failed. A failed cancel leaves the order at the broker without a
reservation.
-/

set_option autoImplicit false

namespace AccountServices

open Foundation

/-! ## Fills and cancels of one order -/

/-- The fill is settled: it is paid from the frozen money, or from the cash once nothing is
reserved. -/
def FundInfo.Settles (f : FundInfo) (frozen : DValue) (r : TradeResponse) : Prop :=
  r.volumeTraded > 0 ∧ r.tradeSide = .buy ∧
    if frozen = 0 then (f.applyBuyTradeFund r.dvalueTraded r.dfee).isSome = true else f.Pays r

instance (f : FundInfo) (frozen : DValue) (r : TradeResponse) : Decidable (f.Settles frozen r) :=
  inferInstanceAs (Decidable (_ ∧ _))

/-- What a call settles for the order `orderId`. A response without an order id settles nothing. -/
def Event.settles (w : World) (orderId : InternalOrderId) : Event → Nat
  | .tradeResponse r =>
      match w.book.findOrder orderId with
      | none => 0
      | some e =>
          if r.internalOrderId = orderId ∧ orderId ≠ 0 ∧
            w.positions.fund.Settles e.fundFrozen r then r.total
          else 0
  | _ => 0

/-- What a run settles for the order. -/
def settledFills (cfg : Config) (orderId : InternalOrderId) : World → List (Env × Event) → Nat
  | _, [] => 0
  | w, call :: calls =>
      call.2.settles w orderId + settledFills cfg orderId (w.step cfg call) calls

/-- The response is for a cancel that names the order. -/
def TradeResponse.NamedBy (r : TradeResponse) (w : World) (orderId : InternalOrderId)
    (cancel : OrderEntry) : Prop :=
  w.book.findOrder r.internalOrderId = some cancel ∧ cancel.request.orderType = .cancel ∧
    cancel.request.origInternalOrderId = orderId

/-- The call finishes a cancel that names the order: by its state, by a fill that leaves nothing
open, or by the aggregation of a cancel that is registered as its own child. -/
def Event.FinishesCancel (w : World) (orderId : InternalOrderId) : Event → Prop
  | .tradeResponse r => ∃ cancel, r.NamedBy w orderId cancel ∧
      (r.newState = .finished ∨
        (r.volumeTraded > 0 ∧ cancel.request.volumeRemain ≤ r.volumeTraded) ∨
        w.book.childToParent.lookup r.internalOrderId = some r.internalOrderId)
  | _ => False

/-- The call brings a cancel that names the order to a failure. -/
def Event.FailsCancel (w : World) (orderId : InternalOrderId) : Event → Prop
  | .tradeResponse r => ∃ cancel, r.NamedBy w orderId cancel ∧
      r.newState.isTerminal = true ∧ r.newState ≠ .finished
  | _ => False

theorem fillEffect_settles {f : FundInfo} {frozen : DValue} {r : TradeResponse}
    (hvol : r.volumeTraded > 0) :
    (fillEffect f frozen r).2.toNat = frozen.toNat - if f.Settles frozen r then r.total else 0 := by
  by_cases hzero : frozen = 0
  · have hleft : (fillEffect f frozen r).2 = 0 :=
      Classical.byContradiction fun hne => fillEffect_ne_zero hne hzero
    rw [hleft, hzero, UInt64.toNat_zero, Nat.zero_sub]
  · by_cases hpaid : r.tradeSide = .buy ∧ f.Pays r
    · have hsettles : f.Settles frozen r := ⟨hvol, hpaid.1, by rw [if_neg hzero]; exact hpaid.2⟩
      rw [if_pos hsettles]
      exact (fillEffect_paid hzero hpaid.1 hpaid.2).2.2
    · have hnot : ¬ f.Settles frozen r := by
        rintro ⟨-, hbuy, hpays⟩
        rw [if_neg hzero] at hpays
        exact hpaid ⟨hbuy, hpays⟩
      rw [if_neg hnot, Nat.sub_zero, (fillEffect_unpaid fun h => hpaid h.2).2]

/-! ## Effects on other orders -/

namespace World

variable {w : World} {orderId id : InternalOrderId}

theorem terms_settle_of_ne (h : id ≠ orderId) (out : FundInfo × DValue) :
    (w.settle orderId out).book.terms id = w.book.terms id :=
  (OrderBook.terms_setFrozen w.book orderId out.2 id).trans (if_neg h)

theorem terms_settleFill_of_ne {r : TradeResponse} (h : id ≠ r.internalOrderId) :
    (w.settleFill r).book.terms id = w.book.terms id := by
  rw [settleFill]
  split
  · rfl
  · split
    · exact terms_settle_of_ne h _
    · rfl

/-- A fill changes no term but the reservation. -/
theorem terms_of_settleFill {r : TradeResponse} {t' : OrderTerms}
    (h : (w.settleFill r).book.terms id = some t') :
    ∃ t, w.book.terms id = some t ∧ t' = { t with fundFrozen := t'.fundFrozen } := by
  rw [settleFill] at h
  split at h
  · exact ⟨t', h, rfl⟩
  · split at h
    · have hset := (OrderBook.terms_setFrozen w.book r.internalOrderId _ id).symm.trans h
      split at hset
      next heq =>
        obtain ⟨t, ht, rfl⟩ := Option.map_eq_some_iff.1 hset
        exact ⟨t, heq ▸ ht, rfl⟩
      next => exact ⟨t', hset, rfl⟩
    · exact ⟨t', h, rfl⟩

theorem terms_release_of_ne (h : id ≠ orderId) :
    (w.release orderId).book.terms id = w.book.terms id := by
  rw [release]
  split
  · rfl
  · exact terms_settle_of_ne h _

theorem terms_archive_of_ne (h : id ≠ orderId) :
    (w.archive orderId).book.terms id = w.book.terms id :=
  (OrderBook.terms_archiveOrder w.book orderId id).trans (if_neg h)

/-- The releases after a response reach no order but its own and the one that a cancel names. -/
theorem terms_releaseAfter_of_ne (h : id ≠ orderId)
    (hcancel : ∀ e, w.book.findOrder orderId = some e → e.isTerminal = true →
      e.request.orderType = .cancel → e.request.origInternalOrderId ≠ id) :
    (w.releaseAfter orderId).book.terms id = w.book.terms id := by
  rw [releaseAfter]
  split
  · rfl
  next e he =>
    split
    next hterminal =>
      split
      next hnames =>
        rw [terms_release_of_ne (hcancel e he hterminal hnames.1).symm, terms_release_of_ne h]
      next => exact terms_release_of_ne h
    next => rfl

/-- An open order releases nothing. -/
theorem releaseAfter_of_open (h : ∀ e, w.book.findOrder orderId = some e → e.isTerminal = false) :
    w.releaseAfter orderId = w := by
  rw [releaseAfter]
  split
  · rfl
  next e he => rw [if_neg (by simp [h e he])]

end World

/-! ## One call -/

/-- The reservation of the order after a call: what it was, less what the call settles for the
order. -/
def KeepsReservation (w v : World) (orderId : InternalOrderId) (settled : Nat) : Prop :=
  ∀ t, w.book.terms orderId = some t → ∃ frozen : DValue,
    v.book.terms orderId = some { t with fundFrozen := frozen } ∧
      frozen.toNat = t.fundFrozen.toNat - settled

theorem KeepsReservation.of_terms {w v : World} {orderId : InternalOrderId}
    (h : v.book.terms orderId = w.book.terms orderId) : KeepsReservation w v orderId 0 :=
  fun t ht => ⟨t.fundFrozen, h.trans ht, (Nat.sub_zero _).symm⟩

namespace Service

open Program

variable {cfg : Config} {env : Env} {w : World} {orderId : InternalOrderId}

/-- A response for another order, which does not end a cancel of this one. -/
theorem keepsReservation_other {r : TradeResponse} (hid : r.internalOrderId ≠ 0)
    (hne : orderId ≠ r.internalOrderId)
    (hfinish : ¬ (Event.tradeResponse r).FinishesCancel w orderId)
    (hfail : ¬ (Event.tradeResponse r).FailsCancel w orderId) :
    KeepsReservation w ((handleTradeResponse cfg env r).run w).2 orderId 0 := by
  refine KeepsReservation.of_terms ?_
  rw [run_handleTradeResponse cfg env hid]
  have hquiet := quiet_respond cfg env r w
  -- Nothing that the response ends is a cancel of the order, so nothing of it is released.
  have hcancel : ∀ e, ((respond cfg env r).run w).2.book.findOrder r.internalOrderId = some e →
      e.isTerminal = true → e.request.orderType = .cancel →
      e.request.origInternalOrderId ≠ orderId := by
    intro e he hterminal htype horig
    have hterms : ((respond cfg env r).run w).2.book.terms r.internalOrderId = some e.terms := by
      rw [OrderBook.terms, he, Option.map_some]
    rw [hquiet.terms.terms] at hterms
    obtain ⟨t, ht, hsame⟩ := World.terms_of_settleFill hterms
    obtain ⟨e₀, he₀, rfl⟩ := Option.map_eq_some_iff.1 ht
    have hnamed : r.NamedBy w orderId e₀ :=
      ⟨he₀, (congrArg OrderTerms.orderType hsame).symm.trans htype,
        (congrArg OrderTerms.origInternalOrderId hsame).symm.trans horig⟩
    -- The response itself does not end the cancel, or it would fail or finish it.
    have hopen : r.newState.isTerminal = false := by
      by_contra hstate
      rw [Bool.not_eq_false] at hstate
      exact hfail ⟨e₀, hnamed, hstate, fun hfinished => hfinish ⟨e₀, hnamed, Or.inl hfinished⟩⟩
    -- Nor does a refresh: it writes the state only of a parent.
    obtain ⟨s, hs, hsopen⟩ := stateOf_respond_open cfg env he₀
      (fun hself => hfinish ⟨e₀, hnamed, Or.inr (Or.inr hself)⟩) hopen
      (fun hfill => hfinish ⟨e₀, hnamed, Or.inr (Or.inl hfill)⟩)
    rw [OrderBook.stateOf, he, Option.map_some, Option.some.injEq] at hs
    rw [OrderEntry.isTerminal, hs, hsopen] at hterminal
    exact absurd hterminal Bool.false_ne_true
  set w₂ := ((respond cfg env r).run w).2
  have hterms₂ : w₂.book.terms orderId = w.book.terms orderId := by
    rw [hquiet.terms.terms, World.terms_settleFill_of_ne hne]
  have hterms₃ := World.terms_releaseAfter_of_ne hne hcancel
  have harchive :=
    (quiet_archiveAfterResponse cfg env r (w₂.releaseAfter r.internalOrderId)).terms.terms
    orderId
  rw [harchive]
  split
  · rw [World.terms_archive_of_ne hne, hterms₃, hterms₂]
  · rw [hterms₃, hterms₂]

/-- A response for the order itself, after which it is still open. -/
theorem keepsReservation_self {r : TradeResponse} (hid : r.internalOrderId ≠ 0) {e : OrderEntry}
    (he : w.book.findOrder r.internalOrderId = some e) (hnew : e.request.orderType = .new)
    (hopen : ∃ e', ((handleTradeResponse cfg env r).run w).2.book.findOrder
      r.internalOrderId = some e' ∧ e'.isTerminal = false) :
    KeepsReservation w ((handleTradeResponse cfg env r).run w).2 r.internalOrderId
      ((Event.tradeResponse r).settles w r.internalOrderId) := by
  have hquiet := quiet_respond cfg env r w
  rw [run_handleTradeResponse cfg env hid] at hopen ⊢
  obtain ⟨harchived, -⟩ :=
    run_archiveAfterResponse cfg env r
      (((respond cfg env r).run w).2.releaseAfter r.internalOrderId)
  set w₂ := ((respond cfg env r).run w).2
  -- The order is live and open at the end, so it was neither archived nor released.
  have hkept : ¬ r.archives cfg := by
    intro harchives
    obtain ⟨e', he', -⟩ := hopen
    rw [harchived, if_pos harchives, World.archive, OrderBook.findOrder_archiveOrder,
      if_pos rfl] at he'
    exact absurd he' (by simp)
  rw [if_neg hkept] at harchived
  have hopen₂ : ∀ e₂, w₂.book.findOrder r.internalOrderId = some e₂ → e₂.isTerminal = false := by
    intro e₂ he₂
    obtain ⟨e', he', hopen'⟩ := hopen
    have hstate := World.stateOf_releaseAfter w₂ r.internalOrderId r.internalOrderId
    rw [OrderBook.stateOf, ← harchived, he', OrderBook.stateOf, he₂,
      Option.map_some, Option.map_some, Option.some.injEq] at hstate
    rw [OrderEntry.isTerminal, ← hstate]
    exact hopen'
  rw [World.releaseAfter_of_open hopen₂] at harchived
  intro t ht
  rw [OrderBook.terms, he, Option.map_some, Option.some.injEq] at ht
  subst ht
  have hsettles : (Event.tradeResponse r).settles w r.internalOrderId =
      if w.positions.fund.Settles e.fundFrozen r then r.total else 0 := by
    simp only [Event.settles, he, true_and, ne_eq, hid, not_false_eq_true]
  rw [hsettles, World.releaseAfter_of_open hopen₂, OrderBook.terms, harchived, ← OrderBook.terms,
    hquiet.terms.terms]
  rw [World.settleFill]
  rw [he]
  simp only
  by_cases hvol : r.volumeTraded > 0
  · refine ⟨(fillEffect w.positions.fund e.fundFrozen r).2, ?_, fillEffect_settles hvol⟩
    rw [if_pos ⟨hvol, hnew⟩]
    refine (OrderBook.terms_setFrozen w.book r.internalOrderId _ _).trans ?_
    rw [if_pos rfl, OrderBook.terms, he]
    rfl
  · refine ⟨e.fundFrozen, ?_, ?_⟩
    · rw [if_neg fun h => hvol h.1, OrderBook.terms, he]
      rfl
    · rw [if_neg fun h => hvol h.1]
      rfl

/-- An order request leaves the orders that were live before alone. -/
theorem live_handleOrderRequest {t : OrderTerms} (h : World.Live orderId t w) (index : OrderIndex)
    (request : OrderRequest) :
    World.Live orderId t ((handleOrderRequest cfg env index request).run w).2 := by
  have hstable := stable_live orderId t
  refine ensures_handleOrderRequest hstable (fun _ _ _ => trivial) ?_ h
  intro complete w₀ v _ hw₀ hfresh hv hlive
  obtain ⟨active, hactive, hterms⟩ := hlive.exists_entry
  have hid : active.request.internalOrderId = complete.internalOrderId :=
    congrArg OrderTerms.internalOrderId hterms
  have hne : orderId ≠ active.request.internalOrderId := by
    rw [hid]
    rintro rfl
    rw [World.Live, OrderBook.terms, hfresh] at hw₀
    exact absurd hw₀ (by simp)
  rw [dispatchOrder]
  rw [run_bind, run_findOrder, hactive]
  simp only
  split
  · exact preserves_manageOrder hstable (fun _ _ _ => trivial) cfg env index _ v hv
  · refine ensures_routeNewOrder (World.Live orderId t) hstable (fun _ hu => hu) ?_ ?_ ?_ hv
    · exact fun u total g hu _ _ => (World.terms_settle_of_ne hne _).trans hu
    · exact hstable.toStable.routerRules.routeOrder (fun _ _ _ => trivial)
        (fun _ _ _ => trivial) _ _
    · exact fun u hu => (World.terms_release_of_ne hne).trans hu

end Service

/-- One call, after which the order is live and open, and which ends no cancel of it. -/
theorem keepsReservation_step (cfg : Config) {w : World} {orderId : InternalOrderId}
    {call : Env × Event}
    {e : OrderEntry} (he : w.book.findOrder orderId = some e) (hnew : e.request.orderType = .new)
    (hopen : ∃ e', (w.step cfg call).book.findOrder orderId = some e' ∧ e'.isTerminal = false)
    (hfinish : ¬ call.2.FinishesCancel w orderId) (hfail : ¬ call.2.FailsCancel w orderId) :
    KeepsReservation w (w.step cfg call) orderId (call.2.settles w orderId) := by
  obtain ⟨env, event⟩ := call
  have hterms : w.book.terms orderId = some e.terms := by rw [OrderBook.terms, he, Option.map_some]
  have hstable := stable_live orderId e.terms
  cases event with
  -- A new request registers another order, and leaves the terms of the live ones.
  | orderRequest index request =>
      exact KeepsReservation.of_terms
        ((Service.live_handleOrderRequest hterms index request).trans hterms.symm)
  | tradeResponse r =>
      -- Responses without an id change nothing; those of the order settle its fills; those of other
      -- orders only matter when they end a cancel of it.
      by_cases hid : r.internalOrderId = 0
      · have hzero : (Event.tradeResponse r).settles w orderId = 0 := by
          simp only [Event.settles, he]
          exact if_neg fun h => h.2.1 (h.1.symm.trans hid)
        rw [hzero]
        refine KeepsReservation.of_terms ?_
        exact congrArg (OrderBook.terms · orderId)
          (Service.run_handleTradeResponse_zero cfg env hid w).1
      · by_cases hself : r.internalOrderId = orderId
        · subst hself
          exact Service.keepsReservation_self hid he hnew hopen
        · have hzero : (Event.tradeResponse r).settles w orderId = 0 := by
            simp only [Event.settles, he]
            exact if_neg fun h => hself h.1
          rw [hzero]
          exact Service.keepsReservation_other hid (Ne.symm hself) hfinish hfail
  | engineTick nowNs =>
      refine KeepsReservation.of_terms (Eq.trans ?_ hterms.symm)
      exact hstable.toEngineStable.engineRules.tickEngine
        (fun _ _ _ => trivial) cfg env nowNs w hterms
  -- Only the calls above write terms; archiving removes the order, which is still live here.
  | pendingArchives nowNs =>
      obtain ⟨e', he', -⟩ := hopen
      refine KeepsReservation.of_terms ?_
      rw [OrderBook.terms, OrderBook.terms, he',
        Service.findOrder_processPendingArchives env nowNs he']
  | routeCancel origId cancelId time =>
      refine KeepsReservation.of_terms (Eq.trans ?_ hterms.symm)
      exact Program.Preserves.bind (hstable.toStable.routerRules.routeCancel (fun _ _ _ => trivial)
        (fun _ _ _ => trivial) env.nowNs origId cancelId time)
          (fun _ => Program.Preserves.pure _) w hterms

/-! ## Runs -/

/-- In every run in which the order stays live and open, no cancel of it finishes and none fails,
its reservation is what it was, less the cost of its settled fills. -/
theorem reservation_kept (cfg : Config) {w : World} {orderId : InternalOrderId} {e : OrderEntry}
    (he : w.book.findOrder orderId = some e) (hnew : e.request.orderType = .new)
    {calls : List (Env × Event)}
    (hopen : ∀ v ∈ trace (World.step cfg) w calls, ∃ e', v.book.findOrder orderId = some e' ∧
      e'.isTerminal = false)
    (hfinish : StepsMeet (World.step cfg) (fun v call => ¬ call.2.FinishesCancel v orderId) w calls)
    (hfail : StepsMeet (World.step cfg) (fun v call => ¬ call.2.FailsCancel v orderId) w calls) :
    ∃ e', (w.run cfg calls).book.findOrder orderId = some e' ∧
      e'.fundFrozen.toNat = e.fundFrozen.toNat - settledFills cfg orderId w calls := by
  induction calls generalizing w e with
  | nil => exact ⟨e, he, rfl⟩
  | cons call calls ih =>
      have hterms :
          w.book.terms orderId = some e.terms := by rw [OrderBook.terms, he, Option.map_some]
      have hnext : w.step cfg call ∈ trace (World.step cfg) w (call :: calls) := by
        cases calls <;> simp [trace]
      obtain ⟨frozen, hfrozen, hleft⟩ := keepsReservation_step cfg he hnew (hopen _ hnext) hfinish.1
        hfail.1 e.terms hterms
      obtain ⟨e₁, he₁, hterms₁⟩ := Option.map_eq_some_iff.1 hfrozen
      have hshare : e₁.fundFrozen = frozen := congrArg OrderTerms.fundFrozen hterms₁
      obtain ⟨e', he', heq⟩ := ih he₁ ((congrArg OrderTerms.orderType hterms₁).trans hnew)
        (fun v hv => hopen v (List.mem_cons_of_mem _ hv)) hfinish.2 hfail.2
      refine ⟨e', he', ?_⟩
      rw [heq, hshare, hleft, settledFills, Nat.sub_sub]
      rfl

/-- A cancel of the order is sent, and a fill of 300 arrives. -/
def cancelThenFill : List (Env × Event) :=
  [({}, .routeCancel 7 9 0),
    ({}, .tradeResponse
      { internalOrderId := 7, tradeSide := .buy, newState := .marketAccepted, volumeTraded := 30
        dpriceTraded := 10, dvalueTraded := 300 })]

theorem OrderBook.exists_open {b : OrderBook} {orderId : InternalOrderId} {s : OrderState}
    (hs : b.stateOf orderId = some s) (hopen : s.isTerminal = false) :
    ∃ e, b.findOrder orderId = some e ∧ e.isTerminal = false := by
  obtain ⟨e, he, rfl⟩ := Option.map_eq_some_iff.1 hs
  exact ⟨e, he, hopen⟩

/-- A fill of a working order, with a cancel under way. -/
theorem reservation_kept_partial_fill :
    settledFills {} 7 workingBuy cancelThenFill = 300 ∧
      ∃ e, (workingBuy.run {} cancelThenFill).book.findOrder 7 = some e ∧
        e.fundFrozen.toNat = 1000 - settledFills {} 7 workingBuy cancelThenFill := by
  refine ⟨by decide, ?_⟩
  have hnamed : ∀ cancel, ¬ TradeResponse.NamedBy { internalOrderId := 7 }
      (workingBuy.run {} (cancelThenFill.take 1)) 7 cancel := by
    rintro cancel ⟨hfind, htype, -⟩
    have hall : (((workingBuy.run {} (cancelThenFill.take 1)).book.findOrder 7).all fun e =>
        decide (e.request.orderType = .new)) = true := by decide
    rw [hfind, Option.all_some, decide_eq_true_eq] at hall
    rw [hall] at htype
    exact absurd htype (by decide)
  cases he : workingBuy.book.findOrder 7 with
  | none => exact absurd he (by decide)
  | some e =>
      have hall : ((workingBuy.book.findOrder 7).all fun e =>
          decide (e.request.orderType = .new ∧ e.fundFrozen = 1000)) = true := by decide
      rw [he, Option.all_some, decide_eq_true_eq] at hall
      rw [show (1000 : Nat) = e.fundFrozen.toNat by rw [hall.2]; rfl]
      refine reservation_kept {} he hall.1 ?_
        ⟨id, fun ⟨cancel, hc, _⟩ => hnamed cancel hc, trivial⟩
        ⟨id, fun ⟨cancel, hc, _⟩ => hnamed cancel hc, trivial⟩
      · simp only [cancelThenFill, trace, List.forall_mem_cons]
        exact ⟨OrderBook.exists_open (s := .traderSubmitted) (by decide) rfl,
          OrderBook.exists_open (s := .traderSubmitted) (by decide) rfl,
          OrderBook.exists_open (s := .marketAccepted) (by decide) rfl, by simp⟩

/-- A cancel that the broker rejects releases the reservation of the order that still works
there. -/
theorem reservation_lost_after_failed_cancel :
    let w := workingBuy.run {} [({}, .routeCancel 7 9 0),
      ({}, .tradeResponse { internalOrderId := 9, newState := .brokerRejected })]
    w.book.stateOf 7 = some .traderSubmitted ∧ w.book.stateOf 9 = some .brokerRejected ∧
      (workingBuy.book.findOrder 7).map (·.fundFrozen) = some 1000 ∧
      (w.book.findOrder 7).map (·.fundFrozen) = some 0 := by
  decide

end AccountServices
