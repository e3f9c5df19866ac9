import AccountServices.Core.FundReservation
import AccountServices.Core.TerminalStates

/-!
# The archive of terminal orders

The archive tail of `handle_trade_response` and `process_pending_archives`. A deadline says that the
last response for its order was terminal and that `terminal_archive_delay_ms` may not have passed
since then. It is dropped by the next response that is not terminal, so an order is archived in a
terminal state only, and never too early.

Two inputs are outside this: a deadline that does not fit the 64 bits of the clock, and an order
that is its own split parent, which the aggregation may reopen while its terminal response is
handled.
-/

set_option autoImplicit false

namespace AccountServices

open Foundation Program

namespace World

variable (w : World) (orderId : InternalOrderId)

@[simp] theorem pendingArchiveDeadlines_release :
    (w.release orderId).pendingArchiveDeadlines = w.pendingArchiveDeadlines := by
  simp only [release]
  split <;> rfl

@[simp] theorem pendingArchiveDeadlines_releaseAfter :
    (w.releaseAfter orderId).pendingArchiveDeadlines = w.pendingArchiveDeadlines := by
  simp only [releaseAfter]
  split
  · rfl
  · split
    · split
      · rw [pendingArchiveDeadlines_release, pendingArchiveDeadlines_release]
      · exact w.pendingArchiveDeadlines_release orderId
    · rfl

/-- A release ends no order. -/
theorem isSome_releaseAfter (id : InternalOrderId) :
    ((w.releaseAfter orderId).book.findOrder id).isSome = (w.book.findOrder id).isSome := by
  have hstate := congrArg Option.isSome (w.stateOf_releaseAfter orderId id)
  simp only [OrderBook.stateOf, Option.isSome_map] at hstate
  exact hstate

end World

/-- Whether a response leaves a deadline. -/
def TradeResponse.defers (r : TradeResponse) (cfg : Config) : Prop :=
  r.newState.isTerminal = true ∧ cfg.archiveTerminalOrders = true ∧ cfg.terminalArchiveDelayMs ≠ 0

instance (r : TradeResponse) (cfg : Config) : Decidable (r.defers cfg) :=
  inferInstanceAs (Decidable (_ ∧ _))

namespace Service

variable {w : World}

/-! ## The deadlines -/

theorem deadlines_engineOnTradeResponse (cfg : Config) (r : TradeResponse) (w : World) :
    ((if cfg.hasExecutionEngine = true then engineOnTradeResponse r
        else pure () : Service Unit).run w).2.pendingArchiveDeadlines =
          w.pendingArchiveDeadlines := by
  split
  · simp only [engineOnTradeResponse, run_modify]
    split
    · rfl
    · split <;> rfl
  · rfl

/-- The first half of a response leaves the deadlines alone. -/
theorem deadlines_respond (cfg : Config) (env : Env) (r : TradeResponse) (w : World) :
    ((respond cfg env r).run w).2.pendingArchiveDeadlines = w.pendingArchiveDeadlines := by
  have hengine : Preserves (fun v => v.pendingArchiveDeadlines = w.pendingArchiveDeadlines)
      (if cfg.hasExecutionEngine then engineOnTradeResponse r else pure ()) :=
    fun v hv => (deadlines_engineOnTradeResponse cfg r v).trans hv
  have hbook : ∀ now (op : OrderBook → BookOutcome),
      Preserves (fun v => v.pendingArchiveDeadlines = w.pendingArchiveDeadlines)
        (onBook now op) := by
    intro now op v hv
    rw [run_onBook, World.pendingArchiveDeadlines_applyBook]
    exact hv
  have hsettle : SettleStable fun v => v.pendingArchiveDeadlines = w.pendingArchiveDeadlines :=
    ⟨fun _ _ h => h, fun _ _ h => h, fun _ _ _ _ h => h⟩
  have hfill : Preserves (fun v => v.pendingArchiveDeadlines = w.pendingArchiveDeadlines)
      (applyFill env r) := by
    refine Preserves.bind (hbook _ _) fun _ => Preserves.bind Preserves.read fun found => ?_
    split
    · exact Preserves.pure _
    · exact Preserves.ite (hsettle.settleTrade r _) (Preserves.pure _)
  exact Preserves.bind hengine (fun _ => Preserves.bind (hbook _ _) fun _ =>
    Preserves.ite hfill (Preserves.pure _)) w rfl

/-- The first half of a response adds and ends no order. -/
theorem isSome_respond (cfg : Config) (env : Env) (r : TradeResponse) (w : World)
    (id : InternalOrderId) :
    (((respond cfg env r).run w).2.book.findOrder id).isSome = (w.book.findOrder id).isSome := by
  have hengine : Preserves (fun v => (v.book.findOrder id).isSome = (w.book.findOrder id).isSome)
      (if cfg.hasExecutionEngine then engineOnTradeResponse r else pure ()) := by
    intro v hv
    rw [(run_engineOnTradeResponse cfg r v).1]
    exact hv
  -- Only archiving removes an order, and none of these calls archives.
  have hbook : ∀ now (op : OrderBook → BookOutcome), (∀ b, OrderBook.SameTerms b (op b).book) →
      Preserves (fun v => (v.book.findOrder id).isSome = (w.book.findOrder id).isSome)
        (onBook now op) := by
    intro now op hop v hv
    have hterms := congrArg Option.isSome ((hop v.book).terms id)
    simp only [OrderBook.terms, Option.isSome_map] at hterms
    rw [run_onBook, World.book_applyBook, hterms]
    exact hv
  have hsettle : SettleStable fun v =>
      (v.book.findOrder id).isSome = (w.book.findOrder id).isSome := by
    refine ⟨fun _ _ h => h, fun _ _ h => h, fun v orderId f _ h => ?_⟩
    rw [OrderBook.findOrder_modifyOrder]
    split
    next heq => rwa [Option.isSome_map, ← heq]
    next => exact h
  have hfill : Preserves (fun v => (v.book.findOrder id).isSome = (w.book.findOrder id).isSome)
      (applyFill env r) := by
    refine Preserves.bind (hbook _ _ fun b => OrderBook.sameTerms_updateTrade b _ _ _ _ _ _)
      fun _ =>
      Preserves.bind Preserves.read fun found => ?_
    split
    · exact Preserves.pure _
    · exact Preserves.ite (hsettle.settleTrade r _) (Preserves.pure _)
  exact Preserves.bind hengine (fun _ =>
    Preserves.bind (hbook _ _ fun b => OrderBook.sameTerms_updateState b _ _ _) fun _ =>
      Preserves.ite hfill (Preserves.pure _)) w rfl

/-- The archive tail writes the deadline of its order, or drops it. -/
theorem deadlines_archiveAfterResponse (cfg : Config) (env : Env) (r : TradeResponse) (w : World) :
    ((archiveAfterResponse cfg env r).run w).2.pendingArchiveDeadlines =
      if r.defers cfg then
        w.pendingArchiveDeadlines.insert r.internalOrderId
          (env.nowNs + UInt64.ofNat cfg.terminalArchiveDelayMs.toNat * 1000000)
      else w.pendingArchiveDeadlines.erase r.internalOrderId := by
  simp only [archiveAfterResponse]
  by_cases hkeep : ¬ (r.newState.isTerminal = true) ∨ ¬ (cfg.archiveTerminalOrders = true)
  · have hnot : ¬ r.defers cfg := fun h => hkeep.elim (· h.1) (· h.2.1)
    rw [if_pos hkeep, if_neg hnot]
    rfl
  · rw [if_neg hkeep]
    rw [not_or, not_not, not_not] at hkeep
    by_cases hdelay : cfg.terminalArchiveDelayMs = 0
    · rw [if_pos hdelay, if_neg (fun h : r.defers cfg => h.2.2 hdelay), run_bind,
        archiveOrder, run_onBook]
      simp only [clearArchiveDeadline, run_modify, World.pendingArchiveDeadlines_applyBook]
    · have hdefers : r.defers cfg := ⟨hkeep.1, hkeep.2, hdelay⟩
      rw [if_neg hdelay, if_pos hdefers]
      rfl

/-- Every turn of the archive loop drops the deadline it was due for. -/
theorem deadlines_archiveDueOrder (env : Env) (orderId : InternalOrderId) (w : World) :
    ((archiveDueOrder env orderId).run w).2.pendingArchiveDeadlines =
      w.pendingArchiveDeadlines.erase orderId := by
  simp only [archiveDueOrder]
  rw [run_bind, run_findOrder]
  cases w.book.findOrder orderId with
  | none => rfl
  | some e =>
      simp only
      split
      · rw [run_bind, archiveOrder, run_onBook]
        simp only [clearArchiveDeadline, run_modify, World.pendingArchiveDeadlines_applyBook]
      · rfl

/-! ## What the two calls archive -/

/-- The order ids that are due. -/
def dueOrders (w : World) (nowNs : TimestampNs) : List InternalOrderId :=
  (w.pendingArchiveDeadlines.entries.filter fun e => decide (nowNs ≥ e.2)).map (·.1)

theorem exists_of_mem_dueOrders {nowNs : TimestampNs} {id : InternalOrderId}
    (h : id ∈ dueOrders w nowNs) :
    ∃ deadline, w.pendingArchiveDeadlines.lookup id = some deadline ∧ deadline ≤ nowNs := by
  obtain ⟨⟨id', deadline⟩, hmem, rfl⟩ := List.mem_map.1 h
  obtain ⟨hentry, hdue⟩ := List.mem_filter.1 hmem
  exact ⟨deadline, Map.mem_entries_iff.1 hentry, of_decide_eq_true hdue⟩

/-- The archive loop adds no deadline, and what it archives was terminal and due. -/
theorem processPendingArchives_spec (env : Env) (nowNs : TimestampNs) (w : World) :
    Ensures (processPendingArchives env nowNs) w fun _ v =>
      (∀ id deadline, v.pendingArchiveDeadlines.lookup id = some deadline →
        w.pendingArchiveDeadlines.lookup id = some deadline) ∧
      (∀ id e, v.book.findOrder id = some e → w.book.findOrder id = some e) ∧
      ∀ id e, w.book.findOrder id = some e → v.book.findOrder id = none →
        e.isTerminal = true ∧
          ∃ deadline, w.pendingArchiveDeadlines.lookup id = some deadline ∧ deadline ≤ nowNs := by
  refine Ensures.bind (Ensures.read (Ensures.forEach ?_
    ⟨fun _ _ h => h, fun _ _ h => h, fun _ _ hbefore hafter =>
      absurd (hbefore.symm.trans hafter) (by simp)⟩))
  rintro orderId hdue v ⟨hdeadlines, hsub, harchived⟩
  simp only [Ensures]
  have hbook := (quiet_archiveDueOrder env orderId v).1
  refine ⟨fun id deadline hlookup => ?_, fun id e he =>
    hsub id e (findOrder_archiveDueOrder env he), fun id e hbefore hafter => ?_⟩
  · rw [deadlines_archiveDueOrder, Map.lookup_erase_eq] at hlookup
    split at hlookup
    · exact absurd hlookup (by simp)
    · exact hdeadlines id deadline hlookup
  · cases hv : v.book.findOrder id with
    | none => exact harchived id e hbefore hv
    | some e' =>
        -- this turn has archived the order
        obtain rfl : e' = e := Option.some.inj ((hsub id e' hv).symm.trans hbefore)
        rw [hbook] at hafter
        by_cases hany : (v.book.findOrder orderId).any OrderEntry.isTerminal = true
        · rw [if_pos hany, World.archive, OrderBook.findOrder_archiveOrder] at hafter
          by_cases hid : id = orderId
          · subst hid
            rw [hv] at hany
            exact ⟨hany, exists_of_mem_dueOrders hdue⟩
          · rw [if_neg hid, hv] at hafter
            exact absurd hafter (by simp)
        · rw [if_neg hany, hv] at hafter
          exact absurd hafter (by simp)

end Service

/-! ## Runs of responses and archive calls -/

/-- A response for an order: whether its state was terminal, and when it came. -/
structure LastResponse where
  terminal : Bool
  time : TimestampNs

/-- The calls of `handle_trade_response` and `process_pending_archives`, and between them whatever
else the service does: no other function of the source touches the deadlines. -/
inductive ArchiveCall where
  | response (env : Env) (response : TradeResponse)
  | pending (env : Env) (nowNs : TimestampNs)
  | rest (world : World)

/-- The time of a call. -/
def ArchiveCall.time : ArchiveCall → TimestampNs
  | .response env _ => env.nowNs
  | .pending _ nowNs => nowNs
  | .rest _ => 0

/-- The world, with the most recent response for every order. -/
structure ArchiveRun where
  world : World
  last : InternalOrderId → Option LastResponse := fun _ => none

namespace ArchiveRun

/-- The state after a call. -/
def step (cfg : Config) (run : ArchiveRun) : ArchiveCall → ArchiveRun
  | .response env r =>
      { world := ((Service.handleTradeResponse cfg env r).run run.world).2
        last := Function.update run.last r.internalOrderId
          (some ⟨r.newState.isTerminal, env.nowNs⟩) }
  | .pending env nowNs =>
      { run with world := ((Service.processPendingArchives env nowNs).run run.world).2 }
  | .rest world =>
      { run with world :=
        { world with pendingArchiveDeadlines := run.world.pendingArchiveDeadlines } }

/-- The world in which a call archives: a response is booked and releases its funds before. -/
def stage (cfg : Config) (run : ArchiveRun) : ArchiveCall → World
  | .response env r => ((Service.respond cfg env r).run run.world).2.releaseAfter r.internalOrderId
  | .pending _ _ => run.world
  | .rest _ => run.world

/-- Whether the order is in the book. -/
def present (id : InternalOrderId) (run : ArchiveRun) : Bool := (run.world.book.findOrder id).isSome

/-- Whether the event loop archives the order in the call. -/
def archives (cfg : Config) (id : InternalOrderId) (run : ArchiveRun) : ArchiveCall → Bool
  | .rest _ => false
  | call => run.present id && !(run.step cfg call).present id

/-- Whether the order is added between the calls of the event loop. -/
def adds (cfg : Config) (id : InternalOrderId) (run : ArchiveRun) : ArchiveCall → Bool
  | .rest world => !run.present id && (run.step cfg (.rest world)).present id
  | _ => false

/-- What a call may do to orders: it archives terminal orders only, when archiving is enabled, and
not before the delay since the most recent response, a terminal one, has passed; and after a
response that is not terminal there is no deadline. -/
structure ArchivesSafely (cfg : Config) (run : ArchiveRun) (call : ArchiveCall) : Prop where
  terminal : ∀ id, run.archives cfg id call = true →
    ∃ e, (run.stage cfg call).book.findOrder id = some e ∧ e.isTerminal = true
  enabled : ∀ id, run.archives cfg id call = true → cfg.archiveTerminalOrders = true
  due : ∀ id, run.archives cfg id call = true → ∃ time,
    (run.step cfg call).last id = some ⟨true, time⟩ ∧
      time.toNat + cfg.terminalArchiveDelayMs.toNat * 1000000 ≤ call.time.toNat
  cleared : ∀ id time, (run.step cfg call).last id = some ⟨false, time⟩ →
    (run.step cfg call).world.pendingArchiveDeadlines.lookup id = none

/-- The deadline of a terminal response fits the clock, and a terminal response that archives at
once does not reopen its own order. -/
def Clear (cfg : Config) (run : ArchiveRun) : ArchiveCall → Prop
  | .response env r =>
      (r.defers cfg → env.nowNs.toNat + cfg.terminalArchiveDelayMs.toNat * 1000000 < 2 ^ 64) ∧
        (r.archives cfg → ¬ run.world.book.Reopens r.internalOrderId r.newState r.internalOrderId)
  | _ => True

/-- Every deadline stands for a terminal response, and lies the delay after it. -/
def Scheduled (cfg : Config) (run : ArchiveRun) : Prop :=
  ∀ id deadline, run.world.pendingArchiveDeadlines.lookup id = some deadline →
    id ≠ 0 ∧ cfg.archiveTerminalOrders = true ∧ ∃ time, run.last id = some ⟨true, time⟩ ∧
      deadline.toNat = time.toNat + cfg.terminalArchiveDelayMs.toNat * 1000000

variable {cfg : Config} {run : ArchiveRun}

/-- A call that adds nothing to the deadlines keeps them scheduled. -/
theorem Scheduled.keep (h : run.Scheduled cfg) {next : ArchiveRun} (hlast : next.last = run.last)
    (hsub : ∀ id deadline, next.world.pendingArchiveDeadlines.lookup id = some deadline →
      run.world.pendingArchiveDeadlines.lookup id = some deadline) : next.Scheduled cfg := by
  intro id deadline hlookup
  rw [hlast]
  exact h id deadline (hsub id deadline hlookup)

/-- The deadlines after a response. -/
theorem deadlines_response (env : Env) {r : TradeResponse} (hid : r.internalOrderId ≠ 0) :
    (run.step cfg (.response env r)).world.pendingArchiveDeadlines =
      if r.defers cfg then
        run.world.pendingArchiveDeadlines.insert r.internalOrderId
          (env.nowNs + UInt64.ofNat cfg.terminalArchiveDelayMs.toNat * 1000000)
      else run.world.pendingArchiveDeadlines.erase r.internalOrderId := by
  simp only [step]
  rw [Service.run_handleTradeResponse cfg env hid, Service.deadlines_archiveAfterResponse,
    World.pendingArchiveDeadlines_releaseAfter, Service.deadlines_respond]

/-- A response without an order id leaves the deadlines alone. -/
theorem deadlines_response_zero (env : Env) {r : TradeResponse} (hid : r.internalOrderId = 0) :
    (run.step cfg (.response env r)).world.pendingArchiveDeadlines =
      run.world.pendingArchiveDeadlines := by
  simp only [step, Service.handleTradeResponse]
  rw [if_pos hid, run_bind]
  exact Service.deadlines_engineOnTradeResponse cfg r run.world

/-- Every call that meets the condition keeps the deadlines scheduled. -/
theorem Scheduled.step (h : run.Scheduled cfg) {call : ArchiveCall} (hclear : run.Clear cfg call) :
    (run.step cfg call).Scheduled cfg := by
  cases call with
  | rest world => exact h.keep rfl fun _ _ hlookup => hlookup
  | pending env nowNs =>
      exact h.keep rfl (Service.processPendingArchives_spec env nowNs run.world).1
  | response env r =>
      have hlast : (run.step cfg (.response env r)).last =
          Function.update run.last r.internalOrderId (some ⟨r.newState.isTerminal, env.nowNs⟩) :=
            rfl
      by_cases hzero : r.internalOrderId = 0
      · intro id deadline hlookup
        rw [deadlines_response_zero env hzero] at hlookup
        obtain ⟨hid, hrest⟩ := h id deadline hlookup
        rw [hlast, Function.update_of_ne (by rwa [hzero])]
        exact ⟨hid, hrest⟩
      · intro id deadline hlookup
        rw [deadlines_response env hzero] at hlookup
        rw [hlast]
        by_cases hid : id = r.internalOrderId
        · subst hid
          rw [Function.update_self]
          split at hlookup
          case isTrue hdefers =>
            -- the deadline was written just now, and it did not wrap
            rw [Map.lookup_insert_eq, if_pos rfl, Option.some.injEq] at hlookup
            have hfits := hclear.1 hdefers
            refine ⟨hzero, hdefers.2.1, env.nowNs, by rw [hdefers.1], ?_⟩
            have hdelay := cfg.terminalArchiveDelayMs.toNat_lt
            rw [← hlookup, UInt64.toNat_add, UInt64.toNat_mul,
              UInt64.toNat_ofNat_of_lt' (show _ < 2 ^ 64 by omega),
                show (1000000 : UInt64).toNat = 1000000 from rfl]
            omega
          case isFalse =>
            rw [Map.lookup_erase_eq, if_pos rfl] at hlookup
            exact absurd hlookup (by simp)
        · rw [Function.update_of_ne hid]
          split at hlookup
          · rw [Map.lookup_insert_eq, if_neg hid] at hlookup
            exact h id deadline hlookup
          · rw [Map.lookup_erase_eq, if_neg hid] at hlookup
            exact h id deadline hlookup

/-! ## One call -/

/-- A response archives its own order or none. -/
theorem archives_response {env : Env} {r : TradeResponse} {id : InternalOrderId}
    (h : run.archives cfg id (.response env r) = true) :
    id = r.internalOrderId ∧ r.archives cfg ∧
      ((run.stage cfg (.response env r)).book.findOrder id).isSome = true := by
  simp only [archives, present, Bool.and_eq_true, Bool.not_eq_true', step] at h
  obtain ⟨hbefore, hafter⟩ := h
  have hstage : ((run.stage cfg (.response env r)).book.findOrder id).isSome = true := by
    simp only [stage]
    rwa [World.isSome_releaseAfter, Service.isSome_respond]
  by_cases hzero : r.internalOrderId = 0
  · rw [(Service.run_handleTradeResponse_zero cfg env hzero run.world).1, hbefore] at hafter
    exact absurd hafter (by simp)
  · rw [Service.run_handleTradeResponse cfg env hzero,
      (Service.run_archiveAfterResponse cfg env r _).1] at hafter
    simp only [stage] at hstage
    by_cases harchives : r.archives cfg
    · rw [if_pos harchives, World.archive, OrderBook.findOrder_archiveOrder] at hafter
      by_cases hid : id = r.internalOrderId
      · exact ⟨hid, harchives, hstage⟩
      · rw [if_neg hid, hstage] at hafter
        exact absurd hafter (by simp)
    · rw [if_neg harchives, hstage] at hafter
      exact absurd hafter (by simp)

/-- The archive loop archives what is terminal and due. -/
theorem archives_pending {env : Env} {nowNs : TimestampNs} {id : InternalOrderId}
    (h : run.archives cfg id (.pending env nowNs) = true) :
    (∃ e, run.world.book.findOrder id = some e ∧ e.isTerminal = true) ∧
      ∃ deadline, run.world.pendingArchiveDeadlines.lookup id = some deadline ∧
        deadline ≤ nowNs := by
  simp only [archives, present, Bool.and_eq_true, Bool.not_eq_true', step,
    Option.isSome_eq_false_iff, Option.isNone_iff_eq_none] at h
  obtain ⟨hbefore, hafter⟩ := h
  obtain ⟨e, he⟩ := Option.isSome_iff_exists.1 hbefore
  obtain ⟨-, -, hspec⟩ := Service.processPendingArchives_spec env nowNs run.world
  obtain ⟨hterminal, hdue⟩ := hspec id e he hafter
  exact ⟨⟨e, he, hterminal⟩, hdue⟩

/-- A call that meets the condition archives safely. -/
theorem Scheduled.archivesSafely (h : run.Scheduled cfg) {call : ArchiveCall}
    (hclear : run.Clear cfg call) : run.ArchivesSafely cfg call where
  terminal := by
    intro id harchives
    -- What is archived is terminal: after its delay the deadline says so, without one the response
    -- that was just applied.
    cases call with
    | rest world => exact absurd harchives Bool.false_ne_true
    | pending env nowNs => exact (archives_pending harchives).1
    | response env r =>
        obtain ⟨rfl, hnow, hstage⟩ := archives_response harchives
        obtain ⟨e, he⟩ := Option.isSome_iff_exists.1 hstage
        refine ⟨e, he, ?_⟩
        -- The response left the order terminal, and taking it from its parent changes no state of
        -- its own.
        have hsettled := Service.settledAt_respond cfg env (Or.inl rfl) (hclear.2 hnow)
        apply hsettled
        rw [← World.stateOf_releaseAfter, OrderBook.stateOf]
        exact congrArg (Option.map _) he
  enabled := by
    intro id harchives
    -- Without the switch no deadline is ever entered.
    cases call with
    | rest world => exact absurd harchives Bool.false_ne_true
    | pending env nowNs =>
        obtain ⟨deadline, hlookup, -⟩ := (archives_pending harchives).2
        exact (h id deadline hlookup).2.1
    | response env r => exact (archives_response harchives).2.1.2.1
  due := by
    intro id harchives
    -- A deadline is the time of the terminal report and the delay; a delay of zero is over at once.
    cases call with
    | rest world => exact absurd harchives Bool.false_ne_true
    | pending env nowNs =>
        obtain ⟨deadline, hlookup, hdue⟩ := (archives_pending harchives).2
        obtain ⟨-, -, time, hlast, heq⟩ := h id deadline hlookup
        refine ⟨time, hlast, ?_⟩
        rw [← heq]
        exact (Word.le_iff _ _).1 hdue
    | response env r =>
        obtain ⟨rfl, hnow, -⟩ := archives_response harchives
        refine ⟨env.nowNs, ?_, ?_⟩
        · simp only [ArchiveRun.step, Function.update_self, hnow.1]
        · rw [hnow.2.2]
          exact Nat.le_refl _
  cleared := by
    intro id time hlast
    -- An order without a terminal report has no deadline.
    cases hlookup : (run.step cfg call).world.pendingArchiveDeadlines.lookup id with
    | none => rfl
    | some deadline =>
        obtain ⟨-, -, time', hterminal, -⟩ := h.step hclear id deadline hlookup
        rw [hlast] at hterminal
        exact absurd hterminal (by simp)

/-- Archives end presence, and only additions begin it. -/
theorem present_of_adds {id : InternalOrderId} {call : ArchiveCall}
    (hbefore : run.present id = false)
    (hafter : (run.step cfg call).present id = true) : run.adds cfg id call = true := by
  cases call with
  | rest world => simp only [adds, hbefore, hafter, Bool.not_false, Bool.and_self]
  | pending env nowNs =>
      obtain ⟨e, he⟩ := Option.isSome_iff_exists.1 hafter
      have hfound := Service.findOrder_processPendingArchives env nowNs he
      simp only [present, hfound, Option.isSome_some] at hbefore
      exact absurd hbefore (by simp)
  | response env r =>
      simp only [present, step] at hbefore hafter
      by_cases hzero : r.internalOrderId = 0
      · rw [(Service.run_handleTradeResponse_zero cfg env hzero run.world).1, hbefore] at hafter
        exact absurd hafter (by simp)
      · rw [Service.run_handleTradeResponse cfg env hzero,
          (Service.run_archiveAfterResponse cfg env r _).1] at hafter
        have hstage := (World.isSome_releaseAfter ((Service.respond cfg env r).run run.world).2
          r.internalOrderId id).trans (Service.isSome_respond cfg env r run.world id)
        rw [hbefore] at hstage
        split at hafter
        · rw [World.archive, OrderBook.findOrder_archiveOrder] at hafter
          split at hafter
          · exact absurd hafter (by simp)
          · rw [hstage] at hafter
            exact absurd hafter (by simp)
        · rw [hstage] at hafter
          exact absurd hafter (by simp)

end ArchiveRun

/-! ## Every run -/

/-- No response is known. -/
def ArchiveRun.start (w : World) : ArchiveRun := { world := w }

/-- In every run without a deadline at its start, in which every deadline fits the clock and no
response reopens the order it archives, the event loop archives safely, and every order at most once
per time it was added. -/
theorem archives_safely (cfg : Config) {w : World} (hnone : w.pendingArchiveDeadlines = ∅)
    {calls : List ArchiveCall}
    (hclear : StepsMeet (ArchiveRun.step cfg) (ArchiveRun.Clear cfg) (ArchiveRun.start w) calls) :
    StepsMeet (ArchiveRun.step cfg) (ArchiveRun.ArchivesSafely cfg) (ArchiveRun.start w) calls ∧
      ∀ id, stepCount (ArchiveRun.step cfg) (ArchiveRun.archives cfg id)
        (ArchiveRun.start w) calls ≤ (if (w.book.findOrder id).isSome then 1 else 0) +
          stepCount (ArchiveRun.step cfg) (ArchiveRun.adds cfg id) (ArchiveRun.start w) calls := by
  have hstart : (ArchiveRun.start w).Scheduled cfg := by
    intro id deadline hlookup
    rw [show (ArchiveRun.start w).world.pendingArchiveDeadlines = ∅ from hnone] at hlookup
    exact absurd hlookup (by simp)
  have hleave : ∀ id (run : ArchiveRun) call, run.archives cfg id call = true →
      run.present id = true ∧ (run.step cfg call).present id = false := by
    intro id run call harchives
    cases call with
    | rest world => exact absurd harchives Bool.false_ne_true
    | pending env nowNs =>
        simp only [ArchiveRun.archives, Bool.and_eq_true, Bool.not_eq_true'] at harchives
        exact harchives
    | response env r =>
        simp only [ArchiveRun.archives, Bool.and_eq_true, Bool.not_eq_true'] at harchives
        exact harchives
  refine ⟨stepsMeet_of_invariant (ArchiveRun.Scheduled cfg) (fun run call h hcall => h.step hcall)
    (fun run call h hcall => h.archivesSafely hcall) hstart hclear, fun id => ?_⟩
  exact stepCount_leave_le (hleave id) (fun run call => ArchiveRun.present_of_adds)
    (ArchiveRun.start w) calls

/-- Terminal orders stay in the book for one millisecond. -/
def Config.archiving : Config := { archiveTerminalOrders := true, terminalArchiveDelayMs := 1 }

/-- A service with one open order. -/
def oneOrder : World :=
  { World.start {} {} (OrdersShm.ofClients []) with
    book := (OrderBook.empty.addOrder
      { request := { internalOrderId := 7, orderType := .new, volumeEntrust := 10 } } 1).book }

/-- A report of the end of an order at a time. -/
def reportEnd (orderId : InternalOrderId) (nowNs : TimestampNs) : ArchiveCall :=
  .response { nowNs := nowNs } { internalOrderId := orderId, newState := .finished }

/-- The archive call before the delay leaves the order, and the one after it takes it. -/
theorem archives_safely_after_delay :
    StepsMeet (ArchiveRun.step .archiving) (ArchiveRun.ArchivesSafely .archiving)
        (ArchiveRun.start oneOrder) [reportEnd 7 5, .pending {} 1000004, .pending {} 1000005] ∧
      stepCount (ArchiveRun.step .archiving) (ArchiveRun.archives .archiving 7)
        (ArchiveRun.start oneOrder) [reportEnd 7 5, .pending {} 1000004] = 0 ∧
      stepCount (ArchiveRun.step .archiving) (ArchiveRun.archives .archiving 7)
        (ArchiveRun.start oneOrder)
        [reportEnd 7 5, .pending {} 1000004, .pending {} 1000005] = 1 := by
  have hclear : StepsMeet (ArchiveRun.step .archiving) (ArchiveRun.Clear .archiving)
      (ArchiveRun.start oneOrder) [reportEnd 7 5, .pending {} 1000004, .pending {} 1000005] := by
    refine ⟨⟨fun _ => by decide, ?_⟩, trivial, trivial, trivial⟩
    rintro ⟨-, -, hdelay⟩
    exact absurd hdelay (by decide)
  exact ⟨(archives_safely .archiving rfl hclear).1, by decide, by decide⟩

/-- An order that is its own split parent, with a child at the market. -/
def ownParentOrder : World :=
  { World.start {} {} (OrdersShm.ofClients []) with
    book := (((OrderBook.empty.addOrder
      { request := { internalOrderId := 7, orderType := .new, volumeEntrust := 10 }
        isSplitChild := true, parentOrderId := 7 } 1).book.addOrder
      { request :=
          { internalOrderId := 8, orderType := .new, volumeEntrust := 5
            orderState := .traderSubmitted }
        isSplitChild := true, parentOrderId := 7 } 2).book) }

/-- A deadline that wraps around is due at once, and an order that its own response reopens is
archived while it is open. -/
theorem archives_early_and_open :
    ¬ StepsMeet (ArchiveRun.step .archiving) (ArchiveRun.ArchivesSafely .archiving)
        (ArchiveRun.start oneOrder)
        [reportEnd 7 0xFFFFFFFFFFFFFFFF, .pending {} 0xFFFFFFFFFFFFFFFF] ∧
      ¬ StepsMeet (ArchiveRun.step { archiveTerminalOrders := true })
        (ArchiveRun.ArchivesSafely { archiveTerminalOrders := true })
        (ArchiveRun.start ownParentOrder)
        [reportEnd 7 5] := by
  constructor
  · rintro ⟨-, hsafe, -⟩
    obtain ⟨time, hlast, hdue⟩ := hsafe.due 7 (by decide)
    have htime : time = 0xFFFFFFFFFFFFFFFF := by
      have heq := Option.some.inj hlast
      exact (congrArg LastResponse.time heq).symm
    subst htime
    exact absurd hdue (by decide)
  · rintro ⟨hsafe, -⟩
    obtain ⟨e, he, hterminal⟩ := hsafe.terminal 7 (by decide)
    have hopen : ((ArchiveRun.start ownParentOrder).stage { archiveTerminalOrders := true }
        (reportEnd 7 5)).book.stateOf 7 = some .traderSubmitted := by decide
    rw [OrderBook.stateOf, he, Option.map_some, Option.some.injEq] at hopen
    rw [OrderEntry.isTerminal, hopen] at hterminal
    exact absurd hterminal (by decide)

end AccountServices
