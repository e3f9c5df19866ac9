import AccountServices.Order.RecoveredBook
import AccountServices.Core.FundReservation

/-!
# Reservations over a restart

The frozen money survives a restart in the shared memory, and the shares of the orders do not: they
live in the entries of the book, and recovery builds new entries without one. A restart is harmless
exactly when nothing is reserved and recovery finds the new orders that were live.
-/

set_option autoImplicit false

namespace AccountServices

open Foundation

/-- The order is live and new. -/
def World.NewAt (w : World) (orderId : InternalOrderId) : Prop :=
  ∃ t, w.book.terms orderId = some t ∧ t.orderType = .new

/-- The pool holds the order as a new order that recovery takes. -/
def World.RecoverableNew (w : World) (orderId : InternalOrderId) : Prop :=
  ∃ shm index, w.ordersShm = some shm ∧ shm.RecoversFrom orderId index ∧
    (shm.slots index).request.orderType = .new

/-! ## What a restart keeps -/

namespace PositionManager

theorem fund_indexRow (m : PositionManager) (row : Nat) : (m.indexRow row).2.fund = m.fund := by
  simp only [indexRow]
  split
  · rfl
  · split <;> rfl

theorem fund_indexRows (m : PositionManager) (rows : List Nat) :
    (m.indexRows rows).2.fund = m.fund := by
  induction rows generalizing m with
  | nil => rfl
  | cons row rest ih =>
      have hrow := m.fund_indexRow row
      simp only [indexRows]
      split
      next m' heq =>
        rw [heq] at hrow
        exact (ih m').trans hrow
      next m' heq =>
        rw [heq] at hrow
        exact hrow

/-- The FUND row of an initialised table is kept. -/
theorem fund_initializePositions {m : PositionManager} (hinit : m.header.initState = 1)
    (load : PositionManager → Bool × PositionManager) :
    (m.initializePositions load).2.fund = m.fund := by
  simp only [initializePositions]
  split
  · rfl
  split
  next hfresh => exact absurd hinit hfresh
  next =>
    have hrows :=
      fund_indexRows
      { m with securityToRow := ∅, positionCount := clampSecurityCount m.positionCount }
      (List.range' 1 (clampSecurityCount m.positionCount))
    split
    next m' heq =>
      rw [heq] at hrows
      exact hrows
    next m' heq =>
      rw [heq] at hrows
      exact hrows

end PositionManager

/-- No order holds a share. -/
def World.AllFree (w : World) : Prop := ∀ orderId t, w.book.terms orderId = some t →
    t.fundFrozen = 0

namespace World

variable (load : PositionManager → Bool × PositionManager) (now : TimestampNs) {w : World}

/-- No recovered order holds a share. -/
theorem allFree_restart (w : World) : (w.restart load now).AllFree := by
  intro orderId t ht
  simp only [restart] at ht
  cases hshm : w.ordersShm with
  | none =>
      rw [hshm] at ht
      exact absurd ht (by simp [OrderBook.terms, OrderBook.findOrder, OrderBook.empty])
  | some shm =>
      rw [hshm] at ht
      obtain ⟨index, -, rfl⟩ := (recoveredFrom_recover shm _ now).sound orderId t ht
      rfl

theorem newAt_restart_iff (orderId : InternalOrderId) :
    (w.restart load now).NewAt orderId ↔ w.RecoverableNew orderId := by
  simp only [NewAt, RecoverableNew, restart]
  cases hshm : w.ordersShm with
  | none => simp [OrderBook.terms, OrderBook.findOrder, OrderBook.empty]
  | some shm =>
      have hrecovered := recoveredFrom_recover shm w.upstreamNextOrderId now
      constructor
      · rintro ⟨t, ht, hnew⟩
        obtain ⟨index, hindex, rfl⟩ := hrecovered.sound orderId t ht
        exact ⟨shm, index, rfl, hindex, hnew⟩
      · rintro ⟨shm', index, heq, hindex, hnew⟩
        cases heq
        exact ⟨_, hrecovered.found orderId index hindex, hnew⟩

/-- Recovery restores no order with the id 0. -/
theorem not_recoverableNew_zero (w : World) : ¬ w.RecoverableNew 0 := by
  rintro ⟨shm, index, -, ⟨⟨-, heligible, hid⟩, -⟩, -⟩
  simp only [Recovery.eligible, Bool.and_eq_true, decide_eq_true_eq] at heligible
  exact heligible.1.2 hid

theorem AllFree.reserved (h : w.AllFree) : w.book.reserved = 0 := by
  change w.book.table.total (fun e => e.terms.fundFrozen.toNat) = 0
  apply SlotTable.total_eq_zero
  intro orderId e he
  have hfree : e.terms.fundFrozen = 0 :=
    h orderId e.terms (by rw [OrderBook.terms, OrderBook.findOrder, he, Option.map_some])
  rw [hfree, UInt64.toNat_zero]

theorem AllFree.of_reserved (h : w.book.reserved = 0) : w.AllFree := by
  intro orderId t ht
  obtain ⟨e, he, rfl⟩ := Option.map_eq_some_iff.1 ht
  have hle := OrderBook.le_reserved he
  apply (Word.eq_iff _ _).2
  rw [UInt64.toNat_zero]
  change e.fundFrozen.toNat = 0
  omega

theorem AllFree.entry (h : w.AllFree) {orderId : InternalOrderId} {e : OrderEntry}
    (he : w.book.findOrder orderId = some e) : e.fundFrozen = 0 :=
  h orderId e.terms (by rw [OrderBook.terms, he, Option.map_some])

/-! ## Responses in a world without shares -/

theorem AllFree.release (h : w.AllFree) (orderId : InternalOrderId) : w.release orderId = w := by
  simp only [World.release]
  split
  · rfl
  next e he =>
    have hzero := h.entry he
    have heffect : releaseEffect w.positions.fund e = (w.positions.fund, e.fundFrozen) :=
      if_neg fun hgo => hgo.2 hzero
    rw [heffect]
    simp only [World.settle]
    rw [OrderBook.setFrozen_of_eq he]

theorem AllFree.releaseAfter (h : w.AllFree) (orderId : InternalOrderId) :
    w.releaseAfter orderId = w := by
  simp only [World.releaseAfter]
  split
  · rfl
  · split
    · split
      · rw [h.release, h.release]
      · exact h.release orderId
    · rfl

/-- The fill of a new order is paid from the cash, and no other fill is settled. -/
theorem AllFree.settleFill (h : w.AllFree) (r : TradeResponse) :
    (w.settleFill r).book = w.book ∧
      (r.volumeTraded > 0 ∧ w.NewAt r.internalOrderId →
        (w.settleFill r).positions.fund = (fillEffect w.positions.fund 0 r).1) ∧
      (¬ (r.volumeTraded > 0 ∧ w.NewAt r.internalOrderId) →
        (w.settleFill r).positions.fund = w.positions.fund) := by
  simp only [World.settleFill]
  cases he : w.book.findOrder r.internalOrderId with
  | none =>
      refine ⟨rfl, ?_, fun _ => rfl⟩
      rintro ⟨-, t, ht, -⟩
      rw [OrderBook.terms, he] at ht
      exact absurd ht (by simp)
  -- The order holds nothing, so the fill leaves its zero, and moves only the fund.
  | some e =>
      have hterms : w.book.terms r.internalOrderId = some e.terms := by
        rw [OrderBook.terms, he, Option.map_some]
      have hzero := h.entry he
      have hleft : (fillEffect w.positions.fund e.fundFrozen r).2 = e.fundFrozen :=
        (fillEffect_unpaid fun hpaid => hpaid.1 hzero).2
      simp only
      split
      next hfill =>
        refine ⟨?_, ?_, ?_⟩
        · simp only [World.settle]
          rw [hleft, OrderBook.setFrozen_of_eq he]
        · intro _
          simp only [World.settle, hzero]
        · intro hnot
          exact absurd ⟨hfill.1, e.terms, hterms, hfill.2⟩ hnot
      next hskip =>
        refine ⟨rfl, ?_, fun _ => rfl⟩
        rintro ⟨hvol, t, ht, hnew⟩
        rw [hterms, Option.some.injEq] at ht
        subst ht
        exact absurd ⟨hvol, hnew⟩ hskip

/-- What a response does in a world without shares. -/
structure FreeResponse (cfg : Config) (r : TradeResponse) (w v : World) : Prop where
  settled : r.internalOrderId ≠ 0 → r.volumeTraded > 0 → w.NewAt r.internalOrderId →
    v.positions.fund = (fillEffect w.positions.fund 0 r).1
  unsettled : ¬ (r.internalOrderId ≠ 0 ∧ r.volumeTraded > 0 ∧ w.NewAt r.internalOrderId) →
    v.positions.fund = w.positions.fund
  terms : ∀ id, v.book.terms id =
    if r.internalOrderId ≠ 0 ∧ r.archives cfg ∧ id = r.internalOrderId then
      none else w.book.terms id

theorem AllFree.respond (h : w.AllFree) (cfg : Config) (env : Env) (r : TradeResponse) :
    FreeResponse cfg r w (w.respond cfg (env, r)) := by
  have hrun : w.respond cfg (env, r) = ((Service.handleTradeResponse cfg env r).run w).2 := rfl
  rw [hrun]
  -- A response without an id is dropped before the book.
  by_cases hid : r.internalOrderId = 0
  · obtain ⟨hbook, hpositions⟩ := Service.run_handleTradeResponse_zero cfg env hid w
    refine ⟨fun hne => absurd hid hne, fun _ => by rw [hpositions], fun id => ?_⟩
    rw [hbook, if_neg fun hcond => hcond.1 hid]
  -- Nothing is reserved, so the fill moves only the fund, and there is nothing to release.
  · obtain ⟨hbook, hsettled, hunsettled⟩ := h.settleFill r
    have hquiet := Service.quiet_respond cfg env r w
    rw [Service.run_handleTradeResponse cfg env hid]
    set w₂ := ((Service.respond cfg env r).run w).2
    have hterms₂ : ∀ id, w₂.book.terms id = w.book.terms id := by
      intro id
      rw [hquiet.terms.terms, hbook]
    have hfree₂ : w₂.AllFree := fun id t ht => h id t ((hterms₂ id).symm.trans ht)
    rw [hfree₂.releaseAfter]
    obtain ⟨harchived, hpositions⟩ := Service.run_archiveAfterResponse cfg env r w₂
    refine ⟨?_, ?_, ?_⟩
    · intro _ hvol hnew
      rw [hpositions, hquiet.fund, hsettled ⟨hvol, hnew⟩]
    · intro hnot
      rw [hpositions, hquiet.fund, hunsettled fun hfill => hnot ⟨hid, hfill⟩]
    · intro id
      rw [OrderBook.terms, harchived, ← OrderBook.terms]
      by_cases harchives : r.archives cfg
      · rw [if_pos harchives]
        refine (OrderBook.terms_archiveOrder w₂.book r.internalOrderId id).trans ?_
        by_cases heq : id = r.internalOrderId
        · rw [if_pos heq, if_pos ⟨hid, harchives, heq⟩]
        · rw [if_neg heq, if_neg fun hcond => heq hcond.2.2, hterms₂]
      · rw [if_neg harchives, if_neg fun hcond => harchives hcond.2.1, hterms₂]

/-! ## Two worlds that responses cannot tell apart -/

/-- Both worlds are without shares and have the same FUND row and the same live new orders. -/
structure Agree (w v : World) : Prop where
  left : w.AllFree
  right : v.AllFree
  fund : v.positions.fund = w.positions.fund
  orders : ∀ orderId, v.NewAt orderId ↔ w.NewAt orderId

theorem Agree.respond {v : World} (h : Agree w v) (cfg : Config) (env : Env) (r : TradeResponse) :
    Agree (w.respond cfg (env, r)) (v.respond cfg (env, r)) := by
  have hw := h.left.respond cfg env r
  have hv := h.right.respond cfg env r
  have hfree : ∀ {u : World}, u.AllFree → FreeResponse cfg r u (u.respond cfg (env, r)) →
      (u.respond cfg (env, r)).AllFree := by
    intro u hu hresponse id t ht
    rw [hresponse.terms] at ht
    split at ht
    · exact absurd ht (by simp)
    · exact hu id t ht
  have hnew : ∀ {u : World} (id : InternalOrderId), FreeResponse cfg r u (u.respond cfg (env, r)) →
      ((u.respond cfg (env, r)).NewAt id ↔
        ¬ (r.internalOrderId ≠ 0 ∧ r.archives cfg ∧ id = r.internalOrderId) ∧ u.NewAt id) := by
    intro u id hresponse
    simp only [NewAt]
    rw [hresponse.terms]
    split
    next hgone => simp [hgone]
    next hkept => simp [hkept]
  refine ⟨hfree h.left hw, hfree h.right hv, ?_, fun id => ?_⟩
  · by_cases hfill : r.internalOrderId ≠ 0 ∧ r.volumeTraded > 0 ∧ w.NewAt r.internalOrderId
    · obtain ⟨hid, hvol, horder⟩ := hfill
      rw [hw.settled hid hvol horder, hv.settled hid hvol ((h.orders _).2 horder), h.fund]
    · have hfill' : ¬ (r.internalOrderId ≠ 0 ∧ r.volumeTraded > 0 ∧ v.NewAt r.internalOrderId) := by
        rw [h.orders]
        exact hfill
      rw [hw.unsettled hfill, hv.unsettled hfill', h.fund]
  · rw [hnew id hv, hnew id hw, h.orders]

/-- The same responses lead to the same FUND row. -/
theorem Agree.fund_run {v : World} (h : Agree w v) (cfg : Config)
    (calls : List (Env × TradeResponse)) : (calls.foldl (World.respond cfg) v).positions.fund =
      (calls.foldl (World.respond cfg) w).positions.fund := by
  induction calls generalizing w v with
  | nil => exact h.fund
  | cons call calls ih => exact ih (h.respond cfg call.1 call.2)

end World

/-! ## Restarts -/

/-- A sell fill that every FUND row notices: it takes one unit of cash, or brings one where there is
none. -/
def probe (f : FundInfo) (orderId : InternalOrderId) : TradeResponse :=
  { internalOrderId := orderId
    tradeSide := .sell
    newState := .marketAccepted
    volumeTraded := 1
    dvalueTraded := if f.available = 0 then 1 else 0
    dfee := if f.available = 0 then 0 else 1 }

theorem fillEffect_probe (f : FundInfo) (orderId : InternalOrderId) :
    (fillEffect f 0 (probe f orderId)).1 ≠ f := by
  have heffect : (fillEffect f 0 (probe f orderId)).1 =
      (f.applySellTradeFund (probe f orderId).dvalueTraded (probe f orderId).dfee).getD f := rfl
  rw [heffect]
  have havail := f.available.toNat_lt
  cases hop : f.applySellTradeFund (probe f orderId).dvalueTraded (probe f orderId).dfee with
  | none =>
      -- The row takes the fill: with cash the fee is covered, and without cash nothing overflows.
      exfalso
      have hrefused := (FundInfo.availableAfterSell_eq_none_iff f _ _).1
        ((FundInfo.applySellTradeFund_eq_none_iff f _ _).1 hop)
      simp only [probe] at hrefused
      by_cases hzero : f.available = 0
      · simp [hzero] at hrefused
      · have hpos : f.available.toNat ≠ 0 := fun h => hzero ((Word.eq_iff _ _).2 h)
        simp only [if_neg hzero, UInt64.toNat_zero, UInt64.toNat_one] at hrefused
        omega
  | some g =>
      have hcash := (FundInfo.applySellTradeFund_facts hop).2.2.2
      intro heq
      rw [Option.getD_some] at heq
      subst heq
      simp only [probe] at hcash
      split at hcash
      · simp at hcash
      · simp at hcash

/-- A restart keeps the reservations: the frozen money is what was frozen at the start plus the
shares of the recovered orders, and no later responses tell the FUND row from that of a service
without restart. -/
def World.RestartPreserves (cfg : Config) (load : PositionManager → Bool × PositionManager)
    (now : TimestampNs) (frozen : Nat) (w : World) : Prop :=
  (w.restart load now).positions.fund.frozen.toNat = frozen + (w.restart load now).book.reserved ∧
    ∀ calls : List (Env × TradeResponse),
      (calls.foldl (World.respond cfg) (w.restart load now)).positions.fund =
        (calls.foldl (World.respond cfg) w).positions.fund

/-- In every state that a service with ordinary orders and covered fills reaches, a restart keeps
the reservations exactly when nothing is frozen beyond the start and the pool gives back the new
orders that are live. -/
theorem restart_preserves_iff (cfg : Config) (load : PositionManager → Bool × PositionManager)
    (now : TimestampNs) {w₀ w : World} (hempty : w₀.book = OrderBook.empty)
    {calls : List (Env × Event)} (hordinary : ∀ call ∈ calls, call.2.Ordinary cfg)
    (hcovered : StepsMeet (World.step cfg) (fun v call => call.2.FillCovered v) w₀ calls)
    (hreached : w = w₀.run cfg calls) (hinit : w.positions.header.initState = 1) :
    w.RestartPreserves cfg load now w₀.positions.fund.frozen.toNat ↔
      w.positions.fund.frozen = w₀.positions.fund.frozen ∧
        ∀ orderId, w.NewAt orderId ↔ w.RecoverableNew orderId := by
  -- Before the restart the frozen money is what the live orders hold, besides a base that only
  -- grows.
  have hreach : ∃ base, w₀.positions.fund.frozen.toNat ≤ base ∧ FundsAccounted base w := by
    have hinv := trace_invariant
      (fun v => ∃ base, w₀.positions.fund.frozen.toNat ≤ base ∧ FundsAccounted base v) ?_
      ⟨_, Nat.le_refl _, fundsAccounted_of_empty hempty⟩ (hcovered.and_mem hordinary)
    · exact hinv w (hreached ▸ foldl_mem_trace _ _ _)
    · rintro v ⟨env, event⟩ ⟨base, hle, hv⟩ ⟨hevent, hcovered⟩
      obtain ⟨share, hshare, -⟩ := fundsAccounted_step cfg hv env hevent hcovered
      exact ⟨base + share, Nat.le_add_right_of_le hle, hshare⟩
  obtain ⟨base, hle, haccounted⟩ := hreach
  have hfund : (w.restart load now).positions.fund = w.positions.fund :=
    PositionManager.fund_initializePositions hinit load
  have hrestart := World.allFree_restart load now w
  have hbalance := haccounted.balance
  constructor
  -- A restart that preserves everything finds nothing reserved, and then a fill of any order tells
  -- whether it is live: the probe changes the fund only then.
  · rintro ⟨hfrozen, hruns⟩
    rw [hfund, hrestart.reserved, Nat.add_zero] at hfrozen
    have hfree : w.AllFree := World.AllFree.of_reserved (by omega)
    refine ⟨(Word.eq_iff _ _).2 hfrozen, fun orderId => ?_⟩
    rw [← World.newAt_restart_iff load now]
    have hprobe := hruns [({}, probe w.positions.fund orderId)]
    have hw := hfree.respond cfg {} (probe w.positions.fund orderId)
    have hr := hrestart.respond cfg {} (probe w.positions.fund orderId)
    have hne := fillEffect_probe w.positions.fund orderId
    have hvol : (probe w.positions.fund orderId).volumeTraded > 0 := (by decide : (1 : Volume) > 0)
    simp only [List.foldl_cons, List.foldl_nil] at hprobe
    constructor
    · intro hnew
      by_contra hgone
      have hid : orderId ≠ 0 := by
        rintro rfl
        obtain ⟨t, ht, -⟩ := hnew
        exact absurd (haccounted.zero.symm.trans ht) (by simp)
      rw [hr.unsettled fun hfill => hgone hfill.2.2, hfund, hw.settled hid hvol hnew] at hprobe
      exact hne hprobe.symm
    · intro hnew
      by_contra hgone
      have hid : orderId ≠ 0 := by
        rintro rfl
        exact World.not_recoverableNew_zero w ((World.newAt_restart_iff load now 0).1 hnew)
      rw [hr.settled hid hvol hnew, hfund, hw.unsettled fun hfill => hgone hfill.2.2] at hprobe
      exact hne hprobe
  -- With nothing reserved on either side, and the same new orders, responses act alike on both.
  · rintro ⟨hfrozen, horders⟩
    have hfree : w.AllFree := by
      apply World.AllFree.of_reserved
      rw [hfrozen] at hbalance
      omega
    refine ⟨?_, fun calls => ?_⟩
    · rw [hfund, hrestart.reserved, hfrozen, Nat.add_zero]
    · apply World.Agree.fund_run
      exact ⟨hfree, hrestart, hfund, fun orderId =>
        by rw [World.newAt_restart_iff load now, horders]⟩

/-- A book without orders has no new ones. -/
theorem World.not_newAt_of_empty {w : World} (h : w.book.table.index.entries = [])
    (orderId : InternalOrderId) : ¬ w.NewAt orderId := by
  rintro ⟨t, ht, -⟩
  obtain ⟨e, he, -⟩ := Option.map_eq_some_iff.1 ht
  obtain ⟨i, hi, -⟩ := Option.map_eq_some_iff.1 he
  have hentry := Map.mem_entries_iff.2 hi
  rw [h] at hentry
  exact absurd hentry (by simp)

/-- A service that archives at once, and a buy order that is placed and completely filled. -/
def archivingConfig : Config := { archiveTerminalOrders := true }

def placeAndFinish : List (Env × Event) :=
  [({}, .orderRequest 0 (.ofClient 7 .buy 100 10)),
    ({}, .tradeResponse
      { internalOrderId := 7, tradeSide := .buy, newState := .finished, volumeTraded := 100
        dpriceTraded := 10, dvalueTraded := 1000 })]

/-- After the end of its only order a service can be restarted. -/
theorem restart_preserves_after_finish :
    (twoBuys.run archivingConfig placeAndFinish).RestartPreserves archivingConfig
      (fun m => (false, m)) 0 0 := by
  have hordinary : ∀ call ∈ placeAndFinish, call.2.Ordinary archivingConfig := by
    simp only [placeAndFinish, List.forall_mem_cons]
    exact ⟨(by decide : archivingConfig.Unmanaged (.ofClient 7 .buy 100 10)), trivial, by simp⟩
  have hcovered : StepsMeet (World.step archivingConfig)
      (fun v call => call.2.FillCovered v) twoBuys placeAndFinish := by
    refine ⟨trivial, ?_, trivial⟩
    rintro e he ⟨-, -, -, -, hlt⟩
    have hshare :
        (((twoBuys.run archivingConfig (placeAndFinish.take 1)).book.findOrder 7).all fun e =>
        decide (e.fundFrozen = 1000)) = true := by decide
    rw [show (twoBuys.run archivingConfig (placeAndFinish.take 1)).book.findOrder 7 =
      some e from he, Option.all_some, decide_eq_true_eq] at hshare
    rw [hshare] at hlt
    exact absurd hlt (by decide)
  apply (restart_preserves_iff archivingConfig (fun m => (false, m)) 0 rfl hordinary hcovered rfl
    (by decide)).2
  refine ⟨by decide, fun orderId => ?_⟩
  rw [← World.newAt_restart_iff (fun m => (false, m)) 0]
  exact iff_of_false (World.not_newAt_of_empty (by decide) orderId)
    (World.not_newAt_of_empty (by decide) orderId)

/-- A buy order is working when the service restarts: it is recovered, and its reservation is
not. -/
theorem restart_loses_reservation :
    let w := workingBuy.restart (fun m => (false, m)) 0
    w.book.terms 7 = (workingBuy.book.terms 7).map (fun t => { t with fundFrozen := 0 }) ∧
      w.positions.fund.frozen.toNat = 1000 ∧ w.book.reserved = 0 ∧
      ¬ workingBuy.RestartPreserves {} (fun m => (false, m)) 0 0 := by
  refine ⟨by decide, by decide, by decide, ?_⟩
  rintro ⟨hfrozen, -⟩
  exact absurd hfrozen (by decide)

end AccountServices
