import AccountServices.Core.Settlement

/-!
# What a trade response does to funds and reservations

A handler of the event loop touches many parts of the world, and most of its steps are quiet: they
keep the FUND row, the terms of every live order and the links between orders. Up to quiet steps,
`handle_trade_response` settles the fill, releases what a terminal order holds and archives, and the
three effects are functions of the FUND row and of the terms.
-/

set_option autoImplicit false

namespace AccountServices

open Foundation

/-! ## Quiet steps -/

/-- The worlds agree on the FUND row, on the terms of the live orders and on the links. -/
structure World.Quiet (w v : World) : Prop where
  fund : v.positions.fund = w.positions.fund
  terms : OrderBook.SameTerms w.book v.book
  links : v.book.links = w.book.links

namespace World.Quiet

variable {w v u : World}

theorem refl (w : World) : w.Quiet w := ⟨rfl, OrderBook.SameTerms.refl _, rfl⟩

theorem trans (h : w.Quiet v) (h' : v.Quiet u) : w.Quiet u :=
  ⟨h'.fund.trans h.fund, h.terms.trans h'.terms, h'.links.trans h.links⟩

/-- A book operation that keeps terms and links is quiet. -/
theorem withBook (h : w.Quiet v) {b : OrderBook} (hterms : OrderBook.SameTerms v.book b)
    (hlinks : b.links = v.book.links) : w.Quiet { v with book := b } :=
  ⟨h.fund, h.terms.trans hterms, hlinks.trans h.links⟩

/-- Apart from new orders, reservations and the archive, every step of the event loop is quiet. -/
theorem stable (w : World) : LoopStable (fun _ => False) w.Quiet where
  shared _ _ _ _ _ h := ⟨h.fund, h.terms, h.links⟩
  nextOrderId v h := by
    obtain ⟨_, _, _, heq⟩ := v.allocateOrderId_eq
    rw [heq]
    exact ⟨h.fund, h.terms.trans (OrderBook.sameTerms_of_table rfl), h.links⟩
  addOrder _ _ _ hadds _ := hadds.elim
  updateState _ _ _ _ h :=
    h.withBook (OrderBook.sameTerms_updateState _ _ _ _) (OrderBook.links_updateState _ _ _ _)
  engine _ _ _ h := ⟨h.fund, h.terms, h.links⟩
  markManagedParent _ _ h :=
    h.withBook (OrderBook.sameTerms_markManagedParent _ _) (OrderBook.links_markManagedParent _ _)
  syncManagedParentView _ _ _ _ _ h :=
    h.withBook (OrderBook.sameTerms_syncManagedParentView _ _ _ _ _)
      (OrderBook.links_syncManagedParentView _ _ _ _ _)
  beside _ _ _ _ hstep h := ⟨hstep.fund.trans h.fund, h.terms, h.links⟩
  annotate v orderId _ hf h := h.withBook (v.book.sameTerms_annotate orderId hf) rfl
  updateTrade _ _ _ _ _ _ _ h :=
    h.withBook (OrderBook.sameTerms_updateTrade _ _ _ _ _ _ _)
      (OrderBook.links_updateTrade _ _ _ _ _ _ _)

/-- A program that preserves quietness is quiet. -/
theorem of_preserves {α : Type} {p : Service α} (hp : Program.Preserves w.Quiet p) :
    w.Quiet (p.run w).2 := hp w (refl w)

theorem findOrder_none (h : w.Quiet v) {orderId : InternalOrderId}
    (hnone : w.book.findOrder orderId = none) : v.book.findOrder orderId = none := by
  have := h.terms.terms orderId
  rw [OrderBook.terms, OrderBook.terms, hnone, Option.map_none, Option.map_eq_none_iff] at this
  exact this

theorem findOrder_some (h : w.Quiet v) {orderId : InternalOrderId} {e : OrderEntry}
    (he : w.book.findOrder orderId = some e) :
    ∃ e', v.book.findOrder orderId = some e' ∧ e'.terms = e.terms := by
  have := h.terms.terms orderId
  rw [OrderBook.terms, OrderBook.terms, he, Option.map_some, Option.map_eq_some_iff] at this
  exact this

end World.Quiet

/-- A property that quiet steps keep needs to be checked for new orders only. -/
theorem LoopStable.of_quiet {Adds : OrderEntry → Prop} {Inv : World → Prop}
    (hquiet : ∀ w v : World, w.Quiet v → Inv w → Inv v)
    (hadd : ∀ (w : World) entry now, Adds entry → Inv w →
      Inv { w with book := (w.book.addOrder entry now).book }) : LoopStable Adds Inv where
  shared w _ _ _ _ h := hquiet w _ ((World.Quiet.stable w).shared w _ _ _ _ (World.Quiet.refl w)) h
  nextOrderId w h := hquiet w _ ((World.Quiet.stable w).nextOrderId w (World.Quiet.refl w)) h
  addOrder w entry now hadds h := hadd w entry now hadds h
  updateState w _ _ _ h :=
    hquiet w _ ((World.Quiet.stable w).updateState w _ _ _ (World.Quiet.refl w)) h
  engine w _ _ h := hquiet w _ ((World.Quiet.stable w).engine w _ _ (World.Quiet.refl w)) h
  markManagedParent w _ h :=
    hquiet w _ ((World.Quiet.stable w).markManagedParent w _ (World.Quiet.refl w)) h
  syncManagedParentView w _ _ _ _ h :=
    hquiet w _ ((World.Quiet.stable w).syncManagedParentView w _ _ _ _ (World.Quiet.refl w)) h
  beside w _ _ _ hstep h :=
    hquiet w _ ((World.Quiet.stable w).beside w _ _ _ hstep (World.Quiet.refl w)) h
  annotate w _ _ hf h :=
    hquiet w _ ((World.Quiet.stable w).annotate w _ _ hf (World.Quiet.refl w)) h
  updateTrade w _ _ _ _ _ _ h :=
    hquiet w _ ((World.Quiet.stable w).updateTrade w _ _ _ _ _ _ (World.Quiet.refl w)) h

namespace OrderBook

variable {b b' : OrderBook}

theorem terms_setFrozen (b : OrderBook) (orderId : InternalOrderId) (frozen : DValue)
    (id : InternalOrderId) :
    (b.setFrozen orderId frozen).terms id =
      if id = orderId then (b.terms orderId).map fun t => { t with fundFrozen := frozen }
      else b.terms id := by
  simp only [terms]
  rw [findOrder_setFrozen]
  split
  · rw [Option.map_map, Option.map_map]
    rfl
  · rfl

theorem SameTerms.setFrozen (h : SameTerms b b') (orderId : InternalOrderId) (frozen : DValue) :
    SameTerms (b.setFrozen orderId frozen) (b'.setFrozen orderId frozen) where
  terms id := by
    rw [terms_setFrozen, terms_setFrozen, h.terms, h.terms]
  total g := by
    have hterms := h.terms orderId
    -- An unknown order is not written in either book.
    cases he : b.findOrder orderId with
    | none =>
        have he' : b'.findOrder orderId = none := by
          rw [OrderBook.terms, OrderBook.terms, he, Option.map_none,
            Option.map_eq_none_iff] at hterms
          exact hterms
        have hskip : ∀ c : OrderBook, c.findOrder orderId = none →
            c.setFrozen orderId frozen = c := by
          intro c hc
          rw [OrderBook.setFrozen, modifyOrder]
          rw [SlotTable.modify_of_eq]
          intro v hv
          exact absurd (hv.symm.trans hc) (by simp)
        rw [hskip b he, hskip b' he', h.total]
    -- In both books the entry is replaced by one with the same terms, so the totals move alike.
    | some e =>
        rw [OrderBook.terms, OrderBook.terms, he, Option.map_some, Option.map_eq_some_iff] at hterms
        obtain ⟨e', he', heq⟩ := hterms
        have h₁ := SlotTable.total_modify (fun e => { e with fundFrozen := frozen })
          (fun e => g e.terms) he
        have h₂ := SlotTable.total_modify (fun e => { e with fundFrozen := frozen })
          (fun e => g e.terms) he'
        have hset : ({ e' with fundFrozen := frozen } : OrderEntry).terms =
            ({ e with fundFrozen := frozen } : OrderEntry).terms :=
          congrArg (fun t => ({ t with fundFrozen := frozen } : OrderTerms)) heq
        have htotal : b'.table.total (fun e => g e.terms) = b.table.total fun e =>
            g e.terms := h.total g
        rw [hset, heq, htotal] at h₂
        exact Nat.add_right_cancel (h₂.trans h₁.symm)

end OrderBook

theorem World.Quiet.settle {w v : World} (h : w.Quiet v) (orderId : InternalOrderId)
    (out : FundInfo × DValue) : (w.settle orderId out).Quiet (v.settle orderId out) :=
  ⟨rfl, h.terms.setFrozen orderId out.2, h.links⟩

/-! ## The three effects of a response -/

/-- The world after the settlement of the fill of a response: only new orders are settled. -/
def World.settleFill (w : World) (r : TradeResponse) : World :=
  match w.book.findOrder r.internalOrderId with
  | none => w
  | some e =>
      if r.volumeTraded > 0 ∧ e.request.orderType = .new then
        w.settle r.internalOrderId (fillEffect w.positions.fund e.fundFrozen r)
      else w

/-- The settlement of a fill looks at the FUND row and at the terms only. -/
theorem World.Quiet.settleFill {w v : World} (h : w.Quiet v) (r : TradeResponse) :
    (w.settleFill r).Quiet (v.settleFill r) := by
  simp only [World.settleFill]
  cases he : w.book.findOrder r.internalOrderId with
  | none =>
      rw [h.findOrder_none he]
      exact h
  | some e =>
      obtain ⟨e', he', hterms⟩ := h.findOrder_some he
      rw [he']
      simp only
      rw [show e'.request.orderType = e.request.orderType from congrArg OrderTerms.orderType hterms,
        show e'.fundFrozen = e.fundFrozen from congrArg OrderTerms.fundFrozen hterms, h.fund]
      split
      · exact h.settle _ _
      · exact h

/-- The world after a release. -/
def World.release (w : World) (orderId : InternalOrderId) : World :=
  match w.book.findOrder orderId with
  | none => w
  | some e => w.settle orderId (releaseEffect w.positions.fund e)

/-- The world after the releases that follow a response. -/
def World.releaseAfter (w : World) (orderId : InternalOrderId) : World :=
  match w.book.findOrder orderId with
  | none => w
  | some e =>
      if e.isTerminal then
        if e.request.orderType = .cancel ∧ e.request.origInternalOrderId ≠ 0 then
          (w.release orderId).release e.request.origInternalOrderId
        else w.release orderId
      else w

/-- Whether `handle_trade_response` archives at once. -/
def TradeResponse.archives (r : TradeResponse) (cfg : Config) : Prop :=
  r.newState.isTerminal = true ∧ cfg.archiveTerminalOrders = true ∧ cfg.terminalArchiveDelayMs = 0

instance (r : TradeResponse) (cfg : Config) : Decidable (r.archives cfg) :=
  inferInstanceAs (Decidable (_ ∧ _))

/-- The world after an archive. -/
def World.archive (w : World) (orderId : InternalOrderId) : World :=
  { w with book := (w.book.archiveOrder orderId).book }

/-- The first half of `handle_trade_response`: the state and the fill. -/
def Service.respond (cfg : Config) (env : Env) (r : TradeResponse) : Service Unit := do
  (if cfg.hasExecutionEngine then engineOnTradeResponse r else pure ())
  let _ ← updateState env.nowNs r.internalOrderId r.newState
  if r.volumeTraded > 0 then applyFill env r else pure ()

namespace Service

open Program

variable {w : World}

theorem run_release (w : World) (orderId : InternalOrderId) :
    (releaseOrderResources orderId).run w = ((), w.release orderId) := by
  rw [World.release]
  cases he : w.book.findOrder orderId with
  | none => exact run_releaseOrderResources_none he
  | some e => exact run_releaseOrderResources he

theorem run_releaseAfterResponse (w : World) (orderId : InternalOrderId) :
    (releaseAfterResponse orderId).run w = ((), w.releaseAfter orderId) := by
  rw [releaseAfterResponse, World.releaseAfter]
  rw [run_bind, run_findOrder]
  cases he : w.book.findOrder orderId with
  | none => rfl
  | some e =>
      simp only
      split
      next =>
        rw [run_bind, run_release]
        split
        · rw [run_release]
        · rfl
      next => rfl

/-- The archive tail changes the book by an archive or not at all, and no position. -/
theorem run_archiveAfterResponse (cfg : Config) (env : Env) (r : TradeResponse) (w : World) :
    ((archiveAfterResponse cfg env r).run w).2.book =
        (if r.archives cfg then w.archive r.internalOrderId else w).book ∧
      ((archiveAfterResponse cfg env r).run w).2.positions = w.positions := by
  rw [archiveAfterResponse]
  by_cases hkeep : ¬ (r.newState.isTerminal = true) ∨ ¬ (cfg.archiveTerminalOrders = true)
  · have hnot : ¬ r.archives cfg := fun h => hkeep.elim (· h.1) (· h.2.1)
    rw [if_pos hkeep, if_neg hnot]
    exact ⟨rfl, rfl⟩
  · rw [if_neg hkeep]
    by_cases hdelay : cfg.terminalArchiveDelayMs = 0
    · have harchives : r.archives cfg := by
        refine ⟨?_, ?_, hdelay⟩
        · exact Classical.byContradiction fun h => hkeep (Or.inl h)
        · exact Classical.byContradiction fun h => hkeep (Or.inr h)
      rw [if_pos hdelay, if_pos harchives, run_bind, archiveOrder, run_onBook]
      exact ⟨w.book_applyBook _ _, w.positions_applyBook _ _⟩
    · rw [if_neg hdelay, if_neg fun h => hdelay h.2.2]
      exact ⟨rfl, rfl⟩

/-- The archive tail archives or is quiet. -/
theorem quiet_archiveAfterResponse (cfg : Config) (env : Env) (r : TradeResponse) (w : World) :
    (if r.archives cfg then w.archive r.internalOrderId else w).Quiet
      ((archiveAfterResponse cfg env r).run w).2 := by
  obtain ⟨hbook, hpositions⟩ := run_archiveAfterResponse cfg env r w
  refine ⟨?_, ?_, congrArg OrderBook.links hbook⟩
  · rw [hpositions]
    split <;> rfl
  · rw [hbook]
    exact OrderBook.SameTerms.refl _

/-- The fill of a response is settled; the other steps of the first half are quiet. -/
theorem quiet_applyFill (env : Env) (r : TradeResponse) (hvol : r.volumeTraded > 0) (w : World) :
    (w.settleFill r).Quiet ((applyFill env r).run w).2 := by
  rw [applyFill]
  rw [run_bind, run_bind, run_findOrder]
  set w₁ := ((updateTrade env.nowNs r.internalOrderId r.volumeTraded r.dpriceTraded r.dvalueTraded
    r.dfee).run w).2 with hw₁
  -- The fill itself writes no terms and no fund.
  have hquiet : w.Quiet w₁ :=
    World.Quiet.of_preserves (preserves_onBook (World.Quiet.stable w).toStable _
      fun v h => (World.Quiet.stable w).updateTrade v _ _ _ _ _ _ h)
  rw [World.settleFill]
  cases he : w.book.findOrder r.internalOrderId with
  | none =>
      rw [hquiet.findOrder_none he]
      exact hquiet
  | some e =>
      obtain ⟨e₁, he₁, hterms⟩ := hquiet.findOrder_some he
      have htype : e₁.request.orderType = e.request.orderType :=
        congrArg OrderTerms.orderType hterms
      have hfrozen : e₁.fundFrozen = e.fundFrozen := congrArg OrderTerms.fundFrozen hterms
      rw [he₁]
      simp only
      rw [htype]
      -- Only a new order is settled: the fund first, and behind it nothing that terms or fund
      -- depend on.
      by_cases hnew : e.request.orderType = .new
      · rw [if_pos hnew, if_pos ⟨hvol, hnew⟩]
        obtain ⟨errors, hsettle⟩ := run_settleFund r he₁
        rw [hquiet.fund, hfrozen] at hsettle
        set out := fillEffect w.positions.fund e.fundFrozen r
        have hstable := World.Quiet.stable (w.settle r.internalOrderId out)
        have hafter : (w.settle r.internalOrderId out).Quiet ((settleFund r).run w₁).2 := by
          rw [hsettle]
          exact hstable.shared _ _ _ _ _ (hquiet.settle r.internalOrderId out)
        rw [settleTrade]
        rw [run_bind]
        refine Preserves.ite (Preserves.pure _) ?_ _ hafter
        exact Preserves.bind (preserves_ensurePositionRow hstable _ _) fun _ =>
          preserves_updatePosition hstable _ _
      · rw [if_neg hnew, if_neg fun h => hnew h.2]
        exact hquiet

/-- The engine keeps its own books: a response leaves the order book and the positions to the
loop. -/
theorem run_engineOnTradeResponse (cfg : Config) (r : TradeResponse) (w : World) :
    ((if cfg.hasExecutionEngine = true then engineOnTradeResponse r
        else pure () : Service Unit).run w).2.book = w.book ∧
      ((if cfg.hasExecutionEngine = true then engineOnTradeResponse r
        else pure () : Service Unit).run w).2.positions = w.positions := by
  split
  · rw [engineOnTradeResponse]
    rw [run_modify]
    simp only
    split
    · exact ⟨rfl, rfl⟩
    · split <;> exact ⟨rfl, rfl⟩
  · exact ⟨rfl, rfl⟩

theorem quiet_respond (cfg : Config) (env : Env) (r : TradeResponse) (w : World) :
    (w.settleFill r).Quiet ((respond cfg env r).run w).2 := by
  have hfront : Preserves w.Quiet (do
      (if cfg.hasExecutionEngine then engineOnTradeResponse r else pure ())
      updateState env.nowNs r.internalOrderId r.newState) :=
    Preserves.bind (Preserves.ite
      ((World.Quiet.stable w).toEngineStable.engineRules.engineOnTradeResponse r)
        (Preserves.pure _))
      fun _ => preserves_updateState (World.Quiet.stable w).toStable _ _ _
  have hquiet := World.Quiet.of_preserves hfront
  rw [respond]
  simp only [run_bind] at hquiet ⊢
  by_cases hvol : r.volumeTraded > 0
  · rw [if_pos hvol]
    exact (hquiet.settleFill r).trans (quiet_applyFill env r hvol _)
  · have hskip : w.settleFill r = w := by
      rw [World.settleFill]
      split
      · rfl
      · rw [if_neg fun h => hvol h.1]
    rw [if_neg hvol, hskip]
    exact hquiet

/-- A response without an order id stops after the engine. -/
theorem run_handleTradeResponse_zero (cfg : Config) (env : Env) {r : TradeResponse}
    (hid : r.internalOrderId = 0) (w : World) :
    ((handleTradeResponse cfg env r).run w).2.book = w.book ∧
      ((handleTradeResponse cfg env r).run w).2.positions = w.positions := by
  rw [handleTradeResponse]
  rw [if_pos hid, run_bind]
  exact run_engineOnTradeResponse cfg r w

/-- The parts of `handle_trade_response`. -/
theorem run_handleTradeResponse (cfg : Config) (env : Env) {r : TradeResponse}
    (hid : r.internalOrderId ≠ 0) (w : World) :
    ((handleTradeResponse cfg env r).run w).2 =
      ((archiveAfterResponse cfg env r).run
        (((respond cfg env r).run w).2.releaseAfter r.internalOrderId)).2 := by
  rw [handleTradeResponse, respond]
  rw [if_neg hid]
  simp only [run_bind, run_releaseAfterResponse]

end Service

end AccountServices
