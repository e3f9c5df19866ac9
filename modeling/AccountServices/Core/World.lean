import AccountServices.Foundation.Program
import AccountServices.Shm.SpscQueue
import AccountServices.Shm.OrdersShm
import AccountServices.Risk.RiskManager
import AccountServices.Execution.SessionState

/-!
# The state of the service and its atomic steps

`World` holds what the event loop, the router and the execution engine share: the book, the
positions, the risk manager, the sessions, the deadlines of the archive, and the shared memory that
the gateway sees. A handler is a `Service` program over it; a step of the program is one mutation of
the book, of the FUND row, of an order slot or of a queue. The change callback of the book is a
sequence of slot writes that follows the book step.

The clock, the market data and the decisions of the active strategy are an `Env` that every call of
a handler receives; they are arbitrary functions. The clock stands still within one call.
-/

set_option autoImplicit false

namespace AccountServices

open Foundation

/-! ## Configuration and environment -/

/-- `EventLoopConfig` and the collaborators that the service was built with. The fee model computes
in floating point and stays a parameter. -/
structure Config where
  archiveTerminalOrders : Bool := false
  terminalArchiveDelayMs : UInt32 := 0
  hasExecutionEngine : Bool := false
  splitConfig : SplitConfig := {}
  hasMarketDataService : Bool := false
  allowOrderPriceFallback : Bool := false
  hasActiveStrategy : Bool := false
  calculateFee : TradeSide → DValue → DValue := fun _ _ => 0

/-- `SnapshotLevel`. -/
structure SnapshotLevel where
  price : DPrice := 0
  volume : Volume := 0

/-- `is_valid_level`. -/
def SnapshotLevel.isValid (l : SnapshotLevel) : Bool := decide (l.price ≠ 0 ∧ l.volume ≠ 0)

/-- `PredictionState`. -/
inductive PredictionState where
  | none | fresh | carried
  deriving DecidableEq, Repr

/-- `MarketDataView`, the fields that a session reads. -/
structure MarketDataView where
  totalBidLevels : Nat := 0
  totalAskLevels : Nat := 0
  bid : SnapshotLevel := {}
  ask : SnapshotLevel := {}
  predictionState : PredictionState := .none
  publishSeqNo : UInt64 := 0

/-- `ActiveDecision`, without the price that the engine ignores. -/
structure ActiveDecision where
  shouldSubmit : Bool := false
  volume : Volume := 0

/-- What a call of a handler observes of the outside: the two clocks, the market data service and
the active strategy. -/
structure Env where
  nowNs : TimestampNs := 0
  monotonicNs : TimestampNs := 0
  marketDataReady : Bool := false
  readMarketData : Bytes → Option MarketDataView := fun _ => none
  evaluate : OrderRequest → MarketDataView → Volume → ActiveDecision := fun _ _ _ => {}

/-! ## The world -/

/-- The state of the service. `pushed` lists every index that was ever put into the downstream queue
and `allocated` every order id that was handed out; no function of the source reads them. -/
structure World where
  book : OrderBook
  positions : PositionManager
  risk : RiskManager
  sessions : Map InternalOrderId Session
  pendingArchiveDeadlines : Map InternalOrderId TimestampNs
  ordersShm : Option OrdersShm
  downstream : Option (SpscQueue OrderIndex 18)
  upstreamNextOrderId : Option InternalOrderId
  errors : List ErrorStatus := []
  childTrace : List ChildTrace := []
  pushed : List OrderIndex := []
  allocated : List InternalOrderId := []

/-- The labels of the atomic steps: the steps that another process can see are told apart. -/
inductive Action where
  | internal
  | book
  | fund
  | nextOrderId
  | allocateSlot
  | writeSlot (index : OrderIndex)
  | setStage (index : OrderIndex) (stage : OrderSlotState)
  | push (index : OrderIndex)

/-- A handler, or a part of one. -/
abbrev Service := Program Action World

namespace Service

/-- `record_error`. -/
def recordError (error : ErrorStatus) : Service Unit :=
  .modify .internal fun w => { w with errors := w.errors ++ [error] }

/-- A record handed to the order event recorder. -/
def recordTrace (records : List ChildTrace) : Service Unit :=
  .modify .internal fun w => { w with childTrace := w.childTrace ++ records }

/-- A mutation of the order pool. Without a pool it fails. -/
def onOrdersShm {α : Type} (label : Action) (fail : α) (f : OrdersShm → α × OrdersShm) :
    Service α :=
  .atomic label fun w =>
    match w.ordersShm with
    | none => (fail, w)
    | some shm => ((f shm).1, { w with ordersShm := some (f shm).2 })

/-- `orders_shm_update_stage`, whose result no caller reads. -/
def updateStage (index : OrderIndex) (stage : OrderSlotState) (now : TimestampNs) :
    Service Unit := do
  let _ ← onOrdersShm (.setStage index stage) false fun shm => shm.updateStage index stage now
  pure ()

/-- `orders_shm_sync_order`. -/
def syncOrder (index : OrderIndex) (request : OrderRequest) (now : TimestampNs) : Service Bool :=
  onOrdersShm (.writeSlot index) false fun shm => shm.syncOrder index request now

/-- `orders_shm_write_order`. -/
def writeOrder (index : OrderIndex) (request : OrderRequest) (stage : OrderSlotState)
    (source : OrderSlotSource) (now : TimestampNs) : Service Bool :=
  onOrdersShm (.writeSlot index) false fun shm => shm.writeOrder index request stage source now

/-- `EventLoop::on_order_book_changed`. The second test cannot succeed after the first. -/
def onOrderBookChanged (now : TimestampNs) (entry : OrderEntry) (event : BookEvent) :
    Service Unit := do
  let attached ← Program.read .internal fun w => w.ordersShm.isSome
  if ¬ attached ∨ entry.shmOrderIndex = kInvalidOrderIndex then pure ()
  else
    let state := entry.request.orderState
    let synced ←
      -- A terminal order is written in full, with its last stage; others keep the stage they have.
      (if event = .archived ∨ state.isTerminal then
        writeOrder entry.shmOrderIndex entry.request .terminal .accountInternal now
      else if state = .riskControllerRejected then
        writeOrder entry.shmOrderIndex entry.request .riskRejected .accountInternal now
      else syncOrder entry.shmOrderIndex entry.request now)
    if synced then pure ()
    else
      recordError ⟨.order, .orderNotFound, "EventLoop",
        "failed to sync order book snapshot to orders shm"⟩

/-- An operation of the book with its callbacks. -/
def onBook (now : TimestampNs) (op : OrderBook → BookOutcome) : Service Bool := do
  let out ← Program.atomic .book fun w =>
    (op w.book, { w with book := (op w.book).book, errors := w.errors ++ (op w.book).errors })
  Program.forEach (fun note => onOrderBookChanged now note.1 note.2) out.notes
  pure out.ok

/-- `OrderBook::add_order`. -/
def addOrder (now : TimestampNs) (entry : OrderEntry) : Service Bool :=
  onBook now fun b => b.addOrder entry now

/-- `OrderBook::update_state`. -/
def updateState (now : TimestampNs) (orderId : InternalOrderId) (state : OrderState) :
    Service Bool :=
  onBook now fun b => b.updateState orderId state now

/-- `OrderBook::update_trade`. -/
def updateTrade (now : TimestampNs) (orderId : InternalOrderId) (vol : Volume) (px : DPrice)
    (val fee : DValue) : Service Bool :=
  onBook now fun b => b.updateTrade orderId vol px val fee now

/-- `OrderBook::archive_order`. -/
def archiveOrder (now : TimestampNs) (orderId : InternalOrderId) : Service Bool :=
  onBook now fun b => b.archiveOrder orderId

/-- `OrderBook::find_order`. -/
def findOrder (orderId : InternalOrderId) : Service (Option OrderEntry) :=
  .read .internal fun w => w.book.findOrder orderId

/-- A write through the pointer that `find_order` returned. -/
def modifyOrder (orderId : InternalOrderId) (f : OrderEntry → OrderEntry) : Service Unit :=
  .modify .book fun w => { w with book := w.book.modifyOrder orderId f }

/-- An operation on the FUND row. -/
def onFund (op : FundInfo → Option FundInfo) : Service Bool :=
  .atomic .fund fun w =>
    ((w.positions.onFund op).1, { w with positions := (w.positions.onFund op).2 })

/-- An operation of the position manager on its security rows. -/
def onPositions {α : Type} (op : PositionManager → α × PositionManager) : Service α :=
  .atomic .internal fun w => ((op w.positions).1, { w with positions := (op w.positions).2 })

end Service

/-- `allocate_internal_order_id`: the counter in the upstream memory, or the one of the book. -/
def World.allocateOrderId (w : World) : InternalOrderId × World :=
  match w.upstreamNextOrderId with
  | some next =>
      (next, { w with upstreamNextOrderId := some (next + 1), allocated := w.allocated ++ [next] })
  | none =>
      (w.book.nextOrderId,
        { w with
          book := { w.book with nextOrderId := w.book.nextOrderId + 1 }
          allocated := w.allocated ++ [w.book.nextOrderId] })

/-- An allocation changes the counters and the list of ids. -/
theorem World.allocateOrderId_eq (w : World) :
    ∃ upstream next allocated, w.allocateOrderId.2 =
      { w with
        upstreamNextOrderId := upstream
        book := { w.book with nextOrderId := next }
        allocated := allocated } := by
  rw [allocateOrderId]
  split
  · exact ⟨_, w.book.nextOrderId, _, rfl⟩
  · exact ⟨w.upstreamNextOrderId, _, _, rfl⟩

/-- A property of the world that the steps of the router preserve: it does not look at the shared
memory or the logs, and it survives the two operations of the book that the router uses. `Adds` says
which orders are added. -/
structure Stable (Adds : OrderEntry → Prop) (Inv : World → Prop) : Prop where
  shared : ∀ (w : World) shm errors downstream pushed, Inv w →
    Inv { w with ordersShm := shm, errors := errors, downstream := downstream, pushed := pushed }
  nextOrderId : ∀ w : World, Inv w → Inv w.allocateOrderId.2
  addOrder : ∀ (w : World) entry now, Adds entry → Inv w →
    Inv { w with book := (w.book.addOrder entry now).book }
  updateState : ∀ (w : World) orderId state now, Inv w →
    Inv { w with book := (w.book.updateState orderId state now).book }

/-- Split children may be added: the children of a session and the cancels of a fan-out. -/
def AdmitsSplit (Adds : OrderEntry → Prop) : Prop :=
  ∀ entry : OrderEntry, entry.isSplitChild = true → entry.fundFrozen = 0 → Adds entry

/-- Orders without a parent may be added. -/
def AdmitsPlain (Adds : OrderEntry → Prop) : Prop :=
  ∀ entry : OrderEntry, entry.isSplitChild = false → entry.fundFrozen = 0 → Adds entry

/-! ## Uninterrupted execution -/

namespace World

/-- The effect of the change callback. -/
def notify (w : World) (now : TimestampNs) (note : OrderEntry × BookEvent) : World :=
  ((Service.onOrderBookChanged now note.1 note.2).run w).2

/-- The effect of a book operation with its callbacks. -/
def applyBook (w : World) (now : TimestampNs) (op : OrderBook → BookOutcome) : World :=
  (op w.book).notes.foldl (fun w note => w.notify now note)
    { w with book := (op w.book).book, errors := w.errors ++ (op w.book).errors }

end World

namespace World

/-- A mutation of the order pool changes nothing else. -/
theorem onOrdersShm_eq {α : Type} (w : World) (label : Action) (fail : α)
    (f : OrdersShm → α × OrdersShm) :
    ∃ shm, ((Service.onOrdersShm label fail f).run w).2 = { w with ordersShm := shm } := by
  rw [Service.onOrdersShm]
  rw [Program.run_atomic]
  cases w with
  | mk book positions risk sessions deadlines ordersShm downstream next errors childTrace pushed
      allocated =>
      cases ordersShm with
      | none => exact ⟨none, rfl⟩
      | some shm => exact ⟨some (f shm).2, rfl⟩

/-- The change callback writes to the order pool and to the error log only. -/
theorem notify_eq (w : World) (now : TimestampNs) (note : OrderEntry × BookEvent) :
    ∃ shm errors, w.notify now note = { w with ordersShm := shm, errors := errors } := by
  rw [notify, Service.onOrderBookChanged]
  rw [Program.run_bind, Program.run_read]
  by_cases hskip : ¬ (w.ordersShm.isSome = true) ∨ note.1.shmOrderIndex = kInvalidOrderIndex
  · rw [if_pos hskip]
    exact ⟨w.ordersShm, w.errors, rfl⟩
  · rw [if_neg hskip, Program.run_bind]
    have hwrite : ∀ {label : Action} (f : OrdersShm → Bool × OrdersShm), ∃ shm,
        ((Service.onOrdersShm label false f).run w).2 = { w with ordersShm := shm } :=
      fun f => w.onOrdersShm_eq _ _ f
    have hsync : ∀ p : Service Bool, (∃ shm, (p.run w).2 = { w with ordersShm := shm }) →
        ∃ shm errors, ((if (p.run w).1 = true then (pure () : Service Unit) else
          Service.recordError ⟨.order, .orderNotFound, "EventLoop",
            "failed to sync order book snapshot to orders shm"⟩).run (p.run w).2).2 =
          { w with ordersShm := shm, errors := errors } := by
      rintro p ⟨shm, hp⟩
      rw [hp]
      split
      · exact ⟨shm, w.errors, rfl⟩
      · exact ⟨shm, _, rfl⟩
    apply hsync
    split
    · exact hwrite _
    · split
      · exact hwrite _
      · exact hwrite _

/-- The pool stays attached, or detached. -/
theorem isSome_onOrdersShm {α : Type} (w : World) (label : Action) (fail : α)
    (f : OrdersShm → α × OrdersShm) :
    ((Service.onOrdersShm label fail f).run w).2.ordersShm.isSome = w.ordersShm.isSome := by
  rw [Service.onOrdersShm]
  rw [Program.run_atomic]
  cases hshm : w.ordersShm with
  | none => simp [hshm]
  | some shm => rfl

theorem isSome_notify (w : World) (now : TimestampNs) (note : OrderEntry × BookEvent) :
    (w.notify now note).ordersShm.isSome = w.ordersShm.isSome := by
  rw [notify, Service.onOrderBookChanged]
  rw [Program.run_bind, Program.run_read]
  split
  · rfl
  · rw [Program.run_bind]
    have hrecord : ∀ (synced : Bool) (error : ErrorStatus) (v : World),
        ((if synced = true then (pure () : Service Unit) else Service.recordError error).run
          v).2.ordersShm = v.ordersShm := by
      intro synced error v
      cases synced <;> rfl
    rw [hrecord]
    split
    · exact w.isSome_onOrdersShm _ _ _
    · split
      · exact w.isSome_onOrdersShm _ _ _
      · exact w.isSome_onOrdersShm _ _ _

theorem isSome_applyBook (w : World) (now : TimestampNs) (op : OrderBook → BookOutcome) :
    (w.applyBook now op).ordersShm.isSome = w.ordersShm.isSome := by
  have hfold : ∀ (notes : List (OrderEntry × BookEvent)) (v : World),
      (notes.foldl (fun w note => w.notify now note) v).ordersShm.isSome = v.ordersShm.isSome := by
    intro notes
    induction notes with
    | nil => exact fun v => rfl
    | cons note notes ih => exact fun v => (ih _).trans (v.isSome_notify now note)
  exact hfold _ _

/-- A book operation with its callbacks changes the book, the order pool and the error log. -/
theorem applyBook_eq (w : World) (now : TimestampNs) (op : OrderBook → BookOutcome) :
    ∃ shm errors, w.applyBook now op =
      { w with book := (op w.book).book, ordersShm := shm, errors := errors } := by
  have hfold : ∀ (notes : List (OrderEntry × BookEvent)) (v : World), ∃ shm errors,
      notes.foldl (fun w note => w.notify now note) v =
        { v with ordersShm := shm, errors := errors } := by
    intro notes
    induction notes with
    | nil => exact fun v => ⟨v.ordersShm, v.errors, rfl⟩
    | cons note notes ih =>
        intro v
        obtain ⟨shm, errors, hv⟩ := v.notify_eq now note
        obtain ⟨shm', errors', hrest⟩ := ih (v.notify now note)
        refine ⟨shm', errors', ?_⟩
        rw [List.foldl_cons, hrest, hv]
  exact hfold _ _

section applyBook

variable (w : World) (now : TimestampNs) (op : OrderBook → BookOutcome)

@[simp] theorem book_applyBook : (w.applyBook now op).book = (op w.book).book := by
  obtain ⟨shm, errors, h⟩ := w.applyBook_eq now op
  rw [h]

@[simp] theorem positions_applyBook : (w.applyBook now op).positions = w.positions := by
  obtain ⟨shm, errors, h⟩ := w.applyBook_eq now op
  rw [h]

@[simp] theorem risk_applyBook : (w.applyBook now op).risk = w.risk := by
  obtain ⟨shm, errors, h⟩ := w.applyBook_eq now op
  rw [h]

@[simp] theorem sessions_applyBook : (w.applyBook now op).sessions = w.sessions := by
  obtain ⟨shm, errors, h⟩ := w.applyBook_eq now op
  rw [h]

@[simp] theorem pendingArchiveDeadlines_applyBook :
    (w.applyBook now op).pendingArchiveDeadlines = w.pendingArchiveDeadlines := by
  obtain ⟨shm, errors, h⟩ := w.applyBook_eq now op
  rw [h]

@[simp] theorem downstream_applyBook : (w.applyBook now op).downstream = w.downstream := by
  obtain ⟨shm, errors, h⟩ := w.applyBook_eq now op
  rw [h]

@[simp] theorem upstreamNextOrderId_applyBook :
    (w.applyBook now op).upstreamNextOrderId = w.upstreamNextOrderId := by
  obtain ⟨shm, errors, h⟩ := w.applyBook_eq now op
  rw [h]

@[simp] theorem childTrace_applyBook : (w.applyBook now op).childTrace = w.childTrace := by
  obtain ⟨shm, errors, h⟩ := w.applyBook_eq now op
  rw [h]

@[simp] theorem pushed_applyBook : (w.applyBook now op).pushed = w.pushed := by
  obtain ⟨shm, errors, h⟩ := w.applyBook_eq now op
  rw [h]

@[simp] theorem allocated_applyBook : (w.applyBook now op).allocated = w.allocated := by
  obtain ⟨shm, errors, h⟩ := w.applyBook_eq now op
  rw [h]

end applyBook

end World

namespace Service

theorem run_forEach_notify (now : TimestampNs) (notes : List (OrderEntry × BookEvent)) (w : World) :
    (Program.forEach (fun note => onOrderBookChanged now note.1 note.2) notes).run w =
      ((), notes.foldl (fun w note => w.notify now note) w) := by
  induction notes generalizing w with
  | nil => rfl
  | cons note notes ih =>
      rw [Program.run_forEach_cons, ih]
      rfl

@[simp] theorem run_onBook (now : TimestampNs) (op : OrderBook → BookOutcome) (w : World) :
    (onBook now op).run w = ((op w.book).ok, w.applyBook now op) := by
  rw [onBook, World.applyBook]
  rw [Program.run_bind, Program.run_atomic, Program.run_bind, run_forEach_notify]
  rfl

@[simp] theorem run_findOrder (orderId : InternalOrderId) (w : World) :
    (findOrder orderId).run w = (w.book.findOrder orderId, w) := rfl

@[simp] theorem run_modifyOrder (orderId : InternalOrderId) (f : OrderEntry → OrderEntry)
    (w : World) :
    (modifyOrder orderId f).run w = ((), { w with book := w.book.modifyOrder orderId f }) := rfl

@[simp] theorem run_onFund (op : FundInfo → Option FundInfo) (w : World) :
    (onFund op).run w =
      ((w.positions.onFund op).1, { w with positions := (w.positions.onFund op).2 }) := rfl

@[simp] theorem run_onPositions {α : Type} (op : PositionManager → α × PositionManager)
    (w : World) :
    (onPositions op).run w = ((op w.positions).1, { w with positions := (op w.positions).2 }) := rfl

@[simp] theorem run_recordError (error : ErrorStatus) (w : World) :
    (recordError error).run w = ((), { w with errors := w.errors ++ [error] }) := rfl

@[simp] theorem run_recordTrace (records : List ChildTrace) (w : World) :
    (recordTrace records).run w = ((), { w with childTrace := w.childTrace ++ records }) := rfl

end Service

end AccountServices
