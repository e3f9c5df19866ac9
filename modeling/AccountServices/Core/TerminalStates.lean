import AccountServices.Order.BookStates
import AccountServices.Core.Response

/-!
# Terminal states

A terminal order stays terminal while it is live unless a trade response reopens it: `update_state`
stores the state of the response without a look at the current one, and the aggregation of an
unmanaged parent takes the state of the child that has come furthest.
-/

set_option autoImplicit false

namespace AccountServices

open Foundation

/-! ## Settled orders along a response -/

/-- The property of the book does not look at reservations. -/
def IgnoresFunds (P : OrderBook → Prop) : Prop :=
  ∀ (b : OrderBook) orderId (f : OrderEntry → OrderEntry), (∀ e, (f e).request = e.request) → P b →
    P (b.modifyOrder orderId f)

theorem OrderBook.StaysSettled.ignoresFunds (orderId id : InternalOrderId) :
    IgnoresFunds fun b => b.StaysSettled orderId id := by
  intro b target f hf h
  cases he : b.findOrder target with
  | none =>
      have hsame : b.modifyOrder target f = b := by
        rw [OrderBook.modifyOrder]
        rw [SlotTable.modify_of_eq]
        intro v hv
        exact absurd (hv.symm.trans he) (by simp)
      rw [hsame]
      exact h
  | some e => exact h.modifyOrder he (by rw [hf]) (Or.inr (by rw [hf]))

theorem OrderBook.stateOf_ignoresFunds (id : InternalOrderId) (s : Option OrderState) :
    IgnoresFunds fun b => b.stateOf id = s := by
  intro b target f hf h
  rw [← h]
  rw [stateOf]
  rw [findOrder_modifyOrder]
  split
  next heq =>
    rw [heq, Option.map_map]
    congr 1
    funext e
    rw [Function.comp_apply, hf]
  next => rfl

/-- The book after the state and the fill of a response. -/
def OrderBook.booked (b : OrderBook) (r : TradeResponse) (now : TimestampNs) : OrderBook :=
  ((b.updateState r.internalOrderId r.newState now).book.updateTrade
    r.internalOrderId r.volumeTraded r.dpriceTraded r.dvalueTraded r.dfee now).book

theorem OrderBook.findOrder_booked {b : OrderBook} {r : TradeResponse} {e : OrderEntry}
    (hself : b.childToParent.lookup r.internalOrderId ≠ some r.internalOrderId)
    (he : b.findOrder r.internalOrderId = some e) (now : TimestampNs) :
    (b.booked r now).findOrder r.internalOrderId =
      some (withTrade (withState e r.newState now) r.volumeTraded r.dpriceTraded
        r.dvalueTraded r.dfee now) := by
  have hlinks := links_updateState b r.internalOrderId r.newState now
  refine findOrder_updateTrade_self ?_
    (findOrder_updateState_self hself he r.newState now) _ _ _ _ now
  rw [show (b.updateState r.internalOrderId r.newState now).book.childToParent = b.childToParent
    from congrArg Prod.fst hlinks]
  exact hself

namespace Service

open Program

/-- A property of the world that the settlement of a fill keeps: it does not look at the positions
or the error log, and it survives a change of a reservation. -/
structure SettleStable (Inv : World → Prop) : Prop where
  positions : ∀ (w : World) positions, Inv w → Inv { w with positions := positions }
  errors : ∀ (w : World) errors, Inv w → Inv { w with errors := errors }
  reserve : ∀ (w : World) orderId (f : OrderEntry → OrderEntry), (∀ e, (f e).request = e.request) →
    Inv w → Inv { w with book := w.book.modifyOrder orderId f }

theorem settleStable_book {P : OrderBook → Prop} (hP : IgnoresFunds P) :
    SettleStable fun w => P w.book where
  positions _ _ h := h
  errors _ _ h := h
  reserve w orderId f hf h := hP w.book orderId f hf h

/-- What the settlement of a fill preserves. -/
theorem SettleStable.settleTrade {Inv : World → Prop} (hstable : SettleStable Inv)
    (r : TradeResponse) (order : OrderEntry) : Preserves Inv (settleTrade r order) := by
  have hrecord : ∀ error, Preserves Inv (recordError error) :=
    fun error => Preserves.modify fun w h => hstable.errors w _ h
  have hcash : ∀ op, Preserves Inv (onFund op) :=
    fun op => Preserves.atomic fun w h => hstable.positions w _ h
  have hrows : ∀ {α : Type} (op : PositionManager → α × PositionManager),
      Preserves Inv (onPositions op) :=
    fun op => Preserves.atomic fun w h => hstable.positions w _ h
  -- A buy pays from its reservation, which is the only field that the settlement writes in the
  -- book.
  have hbuy : Preserves Inv (settleBuyTradeFund r.internalOrderId r.dvalueTraded r.dfee) := by
    refine Preserves.bind Preserves.read fun found => ?_
    split
    · exact Preserves.pure _
    · refine Preserves.ite (hcash _) ?_
      split
      · exact Preserves.pure _
      · refine Preserves.bind (hcash _) fun deducted =>
          Preserves.ite (Preserves.bind (Preserves.modify fun w h => ?_) fun _ => Preserves.pure _)
            (Preserves.pure _)
        exact hstable.reserve w _ _ (fun _ => rfl) h
  -- The fund first, then the row, then the position; an error of one is recorded and ends it.
  have hfund : Preserves Inv (settleFund r) := by
    rw [settleFund]
    split
    · exact Preserves.bind hbuy fun _ => Preserves.ite (Preserves.pure _) (hrecord _)
    · exact Preserves.bind (hcash _) fun _ => Preserves.ite (Preserves.pure _) (hrecord _)
    · exact Preserves.pure _
  have hrow : ∀ securityId, Preserves Inv (ensurePositionRow order securityId) := by
    intro securityId
    refine Preserves.bind Preserves.read fun known => Preserves.ite (Preserves.pure _) ?_
    refine Preserves.bind (hrows _) fun added => ?_
    split
    · exact hrecord _
    · exact Preserves.ite (Preserves.pure _) (hrecord _)
  have hposition : ∀ securityId, Preserves Inv (updatePosition r securityId) := by
    intro securityId
    rw [updatePosition]
    split
    · exact Preserves.bind (hrows _) fun _ => Preserves.ite (Preserves.pure _) (hrecord _)
    · exact Preserves.bind (hrows _) fun _ => Preserves.ite (Preserves.pure _) (hrecord _)
    · exact Preserves.pure _
  exact Preserves.bind hfund fun _ => Preserves.ite (Preserves.pure _)
    (Preserves.bind (hrow _) fun _ => hposition _)

/-- The book after the state and the fill of a response, before any settlement. -/
theorem stateOf_respond (cfg : Config) (env : Env) {r : TradeResponse} (hvol : r.volumeTraded > 0)
    (w : World) (id : InternalOrderId) :
    ((respond cfg env r).run w).2.book.stateOf id = (w.book.booked r env.nowNs).stateOf id := by
  have hengine := (run_engineOnTradeResponse cfg r w).1
  rw [respond, applyFill]
  simp only [run_bind, if_pos hvol]
  set w₁ := ((if cfg.hasExecutionEngine = true then engineOnTradeResponse r
      else pure () : Service Unit).run w).2
  simp only [updateState, updateTrade, run_onBook, run_findOrder, World.book_applyBook, hengine]
  set b := w.book.booked r env.nowNs with hb
  split
  · rw [run_pure, World.book_applyBook, World.book_applyBook, hengine]
    rfl
  · refine Preserves.ite ((settleStable_book (OrderBook.stateOf_ignoresFunds id _)).settleTrade r _)
      (Preserves.pure _) _ ?_
    beta_reduce
    rw [World.book_applyBook, World.book_applyBook, hengine]
    rfl

/-- The first half of a response keeps a settled order settled unless the new state reopens it. -/
theorem settledAt_respond (cfg : Config) (env : Env) {r : TradeResponse} {w : World}
    {id : InternalOrderId} (h : id = r.internalOrderId ∨ w.book.SettledAt id)
    (hkeep : ¬ w.book.Reopens r.internalOrderId r.newState id) :
    ((respond cfg env r).run w).2.book.SettledAt id := by
  have hengine := (run_engineOnTradeResponse cfg r w).1
  rw [respond]
  simp only [run_bind]
  set w₁ := ((if cfg.hasExecutionEngine = true then engineOnTradeResponse r
      else pure () : Service Unit).run w).2
  set w₂ := ((updateState env.nowNs r.internalOrderId r.newState).run w₁).2 with hw₂
  have hbook₂ : w₂.book = (w.book.updateState r.internalOrderId r.newState env.nowNs).book := by
    rw [hw₂, updateState, run_onBook, World.book_applyBook, hengine]
  -- An unknown order: the response changes nothing in the book.
  cases he : w.book.findOrder r.internalOrderId with
  | none =>
      have hsame :
          ((if r.volumeTraded > 0 then applyFill env r else pure () : Service Unit).run w₂).2.book =
          w.book := by
        have hstate : w₂.book = w.book := by
          rw [hbook₂, OrderBook.updateState, he]
        split
        · have htrade : (w.book.updateTrade r.internalOrderId r.volumeTraded r.dpriceTraded
              r.dvalueTraded r.dfee env.nowNs).book = w.book := by
            rw [OrderBook.updateTrade, he]
          rw [applyFill]
          simp only [run_bind, updateTrade, run_onBook, run_findOrder, World.book_applyBook, hstate,
            htrade, he]
          rw [run_pure, World.book_applyBook, hstate, htrade]
        · exact hstate
      rw [hsame]
      rcases h with rfl | hsettled
      · intro s hs
        rw [OrderBook.stateOf, he] at hs
        exact absurd hs (by simp)
      · exact hsettled
  -- The new state keeps the order settled, and then so does the fill, which writes no state.
  | some e =>
      have hsettled := OrderBook.staysSettled_updateState h he hkeep env.nowNs
      rw [← hbook₂] at hsettled
      have hfill : Preserves (fun w => w.book.StaysSettled r.internalOrderId id)
          (applyFill env r) := by
        refine Preserves.bind (fun v hv => ?_) fun _ =>
          Preserves.bind Preserves.read fun found => ?_
        · rw [updateTrade, run_onBook]
          simp only [World.book_applyBook]
          exact hv.updateTrade _ _ _ _ _
        · split
          · exact Preserves.pure _
          · exact Preserves.ite
              ((settleStable_book (OrderBook.StaysSettled.ignoresFunds _ _)).settleTrade _ _)
              (Preserves.pure _)
      exact (Preserves.ite hfill (Preserves.pure _) w₂ hsettled).settled

/-- The order of a response stays open when the new state is open and the fill leaves something. -/
theorem stateOf_respond_open (cfg : Config) (env : Env) {r : TradeResponse}
    {w : World} {e : OrderEntry} (he : w.book.findOrder r.internalOrderId = some e)
    (hself : w.book.childToParent.lookup r.internalOrderId ≠ some r.internalOrderId)
    (hstate : r.newState.isTerminal = false)
    (hfill : ¬ (r.volumeTraded > 0 ∧ e.request.volumeRemain ≤ r.volumeTraded)) :
    ∃ s, ((respond cfg env r).run w).2.book.stateOf r.internalOrderId = some s ∧
      s.isTerminal = false := by
  by_cases hvol : r.volumeTraded > 0
  · have hopen := OrderBook.isTerminal_tradedRequest
      (show (OrderBook.withState e r.newState env.nowNs).request.orderState.isTerminal = false
        from hstate)
      (fun hle => hfill ⟨hvol, hle⟩) r.dpriceTraded r.dvalueTraded r.dfee
    refine ⟨_, ?_, hopen⟩
    rw [stateOf_respond cfg env hvol, OrderBook.stateOf, OrderBook.findOrder_booked hself he]
    rfl
  · refine ⟨r.newState, ?_, hstate⟩
    rw [respond]
    simp only [run_bind, if_neg hvol, run_pure, updateState, run_onBook, World.book_applyBook,
      (run_engineOnTradeResponse cfg r w).1]
    rw [OrderBook.stateOf, OrderBook.findOrder_updateState_self hself he]
    rfl

end Service

namespace World

variable {w : World} {id : InternalOrderId}

/-- A release changes no state. -/
theorem stateOf_release (w : World) (orderId id : InternalOrderId) :
    (w.release orderId).book.stateOf id = w.book.stateOf id := by
  rw [release]
  split
  · rfl
  next e he =>
    rw [OrderBook.stateOf, World.settle]
    simp only
    rw [OrderBook.findOrder_setFrozen]
    split
    next heq => rw [heq, Option.map_map]; rfl
    next => rfl

theorem stateOf_releaseAfter (w : World) (orderId id : InternalOrderId) :
    (w.releaseAfter orderId).book.stateOf id = w.book.stateOf id := by
  rw [releaseAfter]
  split
  · rfl
  · split
    · split
      · rw [stateOf_release, stateOf_release]
      · exact stateOf_release w orderId id
    · rfl

theorem settledAt_archive (h : w.book.SettledAt id) (orderId : InternalOrderId) :
    (w.archive orderId).book.SettledAt id := by
  intro s hs
  rw [archive, OrderBook.stateOf, OrderBook.findOrder_archiveOrder] at hs
  split at hs
  · exact absurd hs (by simp)
  · exact h s hs

end World

/-- One response keeps a settled order settled unless its state reopens the order. -/
theorem Service.settledAt_handleTradeResponse {cfg : Config} {env : Env}
    {r : TradeResponse} {w : World} {id : InternalOrderId} (h : w.book.SettledAt id)
    (hkeep : ¬ w.book.Reopens r.internalOrderId r.newState id) :
    ((handleTradeResponse cfg env r).run w).2.book.SettledAt id := by
  by_cases hid : r.internalOrderId = 0
  · rw [(run_handleTradeResponse_zero cfg env hid w).1]
    exact h
  · rw [run_handleTradeResponse cfg env hid, (run_archiveAfterResponse cfg env r _).1]
    have hreleased :
        (((respond cfg env r).run w).2.releaseAfter r.internalOrderId).book.SettledAt id := by
      intro s hs
      rw [World.stateOf_releaseAfter] at hs
      exact settledAt_respond cfg env (Or.inr h) hkeep s hs
    split
    · exact World.settledAt_archive hreleased _
    · exact hreleased

/-! ## Runs of trade responses -/

/-- One trade response. -/
def World.respond (cfg : Config) (w : World) (call : Env × TradeResponse) : World :=
  w.step cfg (call.1, .tradeResponse call.2)

/-- A terminal order stays terminal until it is archived, in every run of trade responses none of
which reopens it. -/
theorem terminal_until_archived (cfg : Config) {w : World} {id : InternalOrderId} {e : OrderEntry}
    (hlive : w.book.findOrder id = some e) (hterminal : e.isTerminal = true)
    {calls : List (Env × TradeResponse)}
    (hmeet : StepsMeet (World.respond cfg)
      (fun v call => ¬ v.book.Reopens call.2.internalOrderId call.2.newState id) w calls) :
    ∀ v ∈ trace (World.respond cfg) w calls, ∀ e', v.book.findOrder id = some e' →
      e'.isTerminal = true := by
  have hstart : w.book.SettledAt id := by
    intro s hs
    rw [OrderBook.stateOf, hlive, Option.map_some, Option.some.injEq] at hs
    exact hs ▸ hterminal
  intro v hv e' he'
  refine trace_invariant (fun v => v.book.SettledAt id) ?_ hstart hmeet v hv _ ?_
  · exact fun u call hu hkeep => Service.settledAt_handleTradeResponse hu hkeep
  · rw [OrderBook.stateOf, he', Option.map_some]

/-- A buy order that was placed and completely filled. -/
def filledBuy : World :=
  (World.start { totalAsset := 10000, available := 10000 } {}
    (OrdersShm.ofClients [.ofClient 7 .buy 100 10])).run {}
    [({}, .orderRequest 0 (.ofClient 7 .buy 100 10)),
      ({}, .tradeResponse
        { internalOrderId := 7, tradeSide := .buy, newState := .finished, volumeTraded := 100
          dpriceTraded := 10, dvalueTraded := 1000 })]

/-- A repeated report of the end keeps the order terminal. -/
theorem terminal_until_archived_repeated :
    ((filledBuy.respond {} ({}, { internalOrderId := 7, newState := .finished })).book.findOrder
      7).all OrderEntry.isTerminal = true := by
  have hlookup : filledBuy.book.childToParent.lookup 7 = none := by decide
  cases hlive : filledBuy.book.findOrder 7 with
  | none => exact absurd hlive (by decide)
  | some e =>
      have hterminal : e.isTerminal = true := by
        have : (filledBuy.book.findOrder 7).all OrderEntry.isTerminal = true := by decide
        rw [hlive] at this
        exact this
      have hstays :
          ∀ v ∈ trace (World.respond {}) filledBuy
              [({}, { internalOrderId := 7, newState := .finished })],
          ∀ e, v.book.findOrder 7 = some e → e.isTerminal = true := by
        refine terminal_until_archived {} hlive hterminal ⟨?_, trivial⟩
        rintro (⟨-, hopen⟩ | ⟨hparent, -⟩)
        · exact absurd hopen (by decide)
        · exact absurd (hlookup.symm.trans hparent) (by simp)
      have hlast := hstays _ (foldl_mem_trace _ _ _)
      simp only [List.foldl_cons, List.foldl_nil] at hlast
      cases hafter :
        (filledBuy.respond {} ({}, { internalOrderId := 7, newState := .finished })).book.findOrder
        7 with
      | none => rfl
      | some e => exact hlast e hafter

/-- An acknowledgement that arrives after the last fill reopens the order. -/
theorem terminal_order_reopened :
    filledBuy.book.stateOf 7 = some .finished ∧
      (filledBuy.respond {}
        ({}, { internalOrderId := 7, newState := .brokerAccepted })).book.stateOf 7 =
        some .brokerAccepted := by
  decide

end AccountServices
