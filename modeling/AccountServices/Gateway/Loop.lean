import AccountServices.Foundation.Interference
import AccountServices.Gateway.Mapper
import AccountServices.Shm.OrdersShm
import AccountServices.Shm.SpscQueue

/-!
# The gateway loop

`gateway_loop.cpp`: one thread that takes order indices from the downstream queue, passes the orders
to a broker adapter, retries what the adapter rejects for the moment, and writes responses back.

`GatewayLoop` is the object's own data, `Outside` everything that another thread, another process or
the broker can change: the queues, the order pool, the adapter, the clock and the running flag. A
function of the loop is a `Gateway` program. Before each of its steps the outside may become
anything (`Amid`), so a statement about all schedules is one about every adapter, every clock, every
content of the pool and every fill of the queues.

`log` records what the loop did, for the statements only: no function of the source reads it. A
dequeued index is named by its ticket, the number of indices dequeued before it; a retry item
carries the ticket of its order.
-/

set_option autoImplicit false

namespace AccountServices

open Foundation

/-- `kResponsePushAttempts`. -/
def kResponsePushAttempts : Nat := 3

/-- `kMaxEventBatch`. -/
def kMaxEventBatch : Nat := 256

/-- `gateway_config`, the fields that the loop reads to decide. -/
structure GatewayConfig where
  pollBatchSize : UInt32 := 64
  maxRetryAttempts : UInt32 := 3
  retryIntervalUs : UInt32 := 200

/-- `IBrokerAdapter`: `poll_events` writes at most as many events as the buffer holds. -/
structure BrokerAdapter (α : Type) where
  submit : α → BrokerOrderRequest → SendResult × α
  pollEvents : α → Nat → List BrokerEvent × α
  length_pollEvents_le : ∀ a n, (pollEvents a n).1.length ≤ n

/-! ## The state of the loop -/

/-- `retry_item`. -/
structure RetryItem where
  request : BrokerOrderRequest
  attempts : UInt32
  nextRetryAtNs : TimestampNs
  ticket : Nat
  deriving DecidableEq

/-- `gateway_stats`. The source counts in 64 bits, only adds to its counters, and takes no decision
on them, so that they are these numbers modulo 2^64. -/
structure GatewayStats where
  loopIterations : Nat := 0
  idleIterations : Nat := 0
  ordersReceived : Nat := 0
  ordersSubmitted : Nat := 0
  ordersFailed : Nat := 0
  retriesScheduled : Nat := 0
  retriesExhausted : Nat := 0
  eventsReceived : Nat := 0
  responsesPushed : Nat := 0
  responsesDropped : Nat := 0
  retryQueueSize : Nat := 0
  lastOrderTimeNs : TimestampNs := 0

/-- What the loop did, one entry for each call with an effect outside. -/
inductive GatewayEvent where
  /-- An index was taken from the downstream queue. -/
  | dequeued (ticket : Nat) (index : OrderIndex)
  /-- Its slot was read, or could not be read. -/
  | snapshot (ticket : Nat) (request : Option OrderRequest)
  /-- Its retry item was taken from the retry queue. -/
  | retaken (ticket : Nat)
  /-- Its request was passed to the adapter while the tickets `waiting` stood in the retry queue. -/
  | submitted (ticket : Nat) (request : BrokerOrderRequest) (attempts : UInt32) (waiting : List Nat)
      (answer : SendResult)
  /-- The failure of the order was pushed to the response queue. -/
  | reported (ticket : Nat) (response : TradeResponse)
  /-- The failure of the order could not be pushed. -/
  | unreported (ticket : Nat) (response : TradeResponse)
  /-- The adapter returned a batch of events. -/
  | polled (events : List BrokerEvent)
  /-- An event was pushed to the response queue. -/
  | delivered (event : BrokerEvent) (response : TradeResponse)
  /-- An event was counted as dropped. -/
  | dropped (event : BrokerEvent)
  deriving DecidableEq

/-- The ticket that an entry of the log is about. -/
def GatewayEvent.ticket : GatewayEvent → Option Nat
  | .dequeued ticket _ | .snapshot ticket _ | .retaken ticket | .submitted ticket _ _ _ _
  | .reported ticket _ | .unreported ticket _ => some ticket
  | .polled _ | .delivered _ _ | .dropped _ => none

/-- The data members of `gateway_loop` that the loop alone writes. -/
structure GatewayLoop where
  retryQueue : List RetryItem := []
  stats : GatewayStats := {}
  errors : List ErrorStatus := []
  log : List GatewayEvent := []

namespace GatewayLoop

/-- Add to the log. -/
def note (l : GatewayLoop) (events : List GatewayEvent) :
    GatewayLoop := { l with log := l.log ++ events }

@[simp] theorem log_note (l : GatewayLoop) (events : List GatewayEvent) :
    (l.note events).log = l.log ++ events := rfl

@[simp] theorem retryQueue_note (l : GatewayLoop) (events : List GatewayEvent) :
    (l.note events).retryQueue = l.retryQueue := rfl

@[simp] theorem stats_note (l : GatewayLoop) (events : List GatewayEvent) :
    (l.note events).stats = l.stats := rfl

@[simp] theorem note_nil (l : GatewayLoop) : l.note [] = l := by
  simp only [note, List.append_nil]

/-- The tickets in the retry queue. -/
def waiting (l : GatewayLoop) : List Nat := l.retryQueue.map RetryItem.ticket

end GatewayLoop

/-- What the loop shares with others. A slot is `contended` when a writer holds its sequence lock
through all attempts of a reader. -/
structure Outside (α : Type) where
  orderQueue : SpscQueue OrderIndex 18
  responseQueue : SpscQueue TradeResponse 18
  ordersShm : OrdersShm
  contended : OrderIndex → Bool
  adapter : α
  nowNs : TimestampNs
  running : Bool

structure GatewayWorld (α : Type) where
  loop : GatewayLoop
  outside : Outside α

/-- The labels of the steps. A push carries the attempts that are left after it and, for an event,
the number of events behind it in its batch. -/
inductive GatewayAction where
  | own
  | clock
  | running
  | popOrder
  | readSlot
  | setStage
  | submit
  | poll
  | push (attemptsLeft behind : Nat)
  | stop

/-- The others replace the outside and leave the loop alone; `Found` bounds what a step finds. -/
def Amid {α : Type} (Found : GatewayAction → Outside α → Prop) (label : GatewayAction)
    (s t : GatewayWorld α) : Prop :=
  t.loop = s.loop ∧ Found label t.outside

/-- Any outside may be found. -/
def anywhere {α : Type} (_ : GatewayAction) (_ : Outside α) : Prop := True

/-! ## The functions of the loop -/

abbrev Gateway (α : Type) := Program GatewayAction (GatewayWorld α)

namespace Gateway

variable {α β : Type} (cfg : GatewayConfig) (adapter : BrokerAdapter α)

/-- A call with an effect outside, and the entry that it leaves in the log. -/
def call (label : GatewayAction) (f : Outside α → β × Outside α)
    (entry : β → List GatewayEvent := fun _ => []) : Gateway α β :=
  .atomic label fun w =>
    ((f w.outside).1, { loop := w.loop.note (entry (f w.outside).1), outside := (f w.outside).2 })

/-- Read a member of the loop. -/
def own (f : GatewayLoop → β) : Gateway α β := .atomic .own fun w => (f w.loop, w)

/-- Write members of the loop. -/
def update (f : GatewayLoop → GatewayLoop) : Gateway α Unit :=
  .atomic .own fun w => ((), { w with loop := f w.loop })

def updateStats (f : GatewayStats → GatewayStats) : Gateway α Unit :=
  update fun l => { l with stats := f l.stats }

/-- `record_error`. -/
def recordError (error : ErrorStatus) : Gateway α Unit :=
  update fun l => { l with errors := l.errors ++ [error] }

/-- `now_ns`. -/
def nowNs : Gateway α TimestampNs := call .clock fun o => (o.nowNs, o)

/-- `stop`. -/
def stop : Gateway α Unit := call .stop fun o => ((), { o with running := false })

/-- The loop of `push_response`. -/
def pushResponseWithin (response : TradeResponse) (behind : Nat) (entry : GatewayEvent) :
    Nat → Gateway α Bool
  | 0 => pure false
  | attemptsLeft + 1 => do
      let ok ← call (.push attemptsLeft behind)
        (fun o =>
          ((o.responseQueue.tryPush response).1,
            { o with responseQueue := (o.responseQueue.tryPush response).2 }))
        (fun ok => if ok then [entry] else [])
      if ok then pure true else pushResponseWithin response behind entry attemptsLeft

/-- `push_response`. The sleep between two attempts only lets the outside move on. -/
def pushResponse (response : TradeResponse) (behind : Nat) (entry : GatewayEvent) :
    Gateway α Bool :=
  pushResponseWithin response behind entry kResponsePushAttempts

/-- `emit_trader_error`. -/
def emitTraderError (ticket : Nat) (internalOrderId : InternalOrderId)
    (internalSecurityId : InternalSecurityId) (sideValue : TradeSide) : Gateway α Unit := do
  if internalOrderId = 0 then pure ()
  else
    let key :=
      if internalSecurityId.isEmpty then internalSecurityId
      else (normalizeInternalSecurityId internalSecurityId.view).getD internalSecurityId
    let now ← nowNs
    let response : TradeResponse :=
      { internalOrderId := internalOrderId
        internalSecurityId := key
        tradeSide := sideValue
        newState := .traderError
        recvTimeNs := now }
    let ok ← pushResponse response 0 (.reported ticket response)
    if ok then updateStats fun s => { s with responsesPushed := s.responsesPushed + 1 }
    else
      update fun l =>
        { l.note [.unreported ticket response] with
          stats := { l.stats with responsesDropped := l.stats.responsesDropped + 1 } }

/-- `submit_request`. -/
def submitRequest (ticket : Nat) (request : BrokerOrderRequest) (attempts : UInt32) :
    Gateway α Unit := do
  let waiting ← own GatewayLoop.waiting
  let result ← call .submit
    (fun o =>
      ((adapter.submit o.adapter request).1,
        { o with adapter := (adapter.submit o.adapter request).2 }))
    (fun result => [.submitted ticket request attempts waiting result])
  if result.accepted then updateStats fun s => { s with ordersSubmitted := s.ordersSubmitted + 1 }
  else if result.retryable ∧ attempts < cfg.maxRetryAttempts then
    let now ← nowNs
    let item : RetryItem :=
      { request := request
        attempts := attempts + 1
        nextRetryAtNs := now + cfg.retryIntervalUs.toUInt64 * 1000
        ticket := ticket }
    update fun l =>
      { l with
        retryQueue := l.retryQueue ++ [item]
        stats :=
          { l.stats with
            retriesScheduled := l.stats.retriesScheduled + 1
            retryQueueSize := l.retryQueue.length + 1 } }
  -- rejected for good, or as often as it may be retried
  else
    updateStats fun s =>
      { s with
        ordersFailed := s.ordersFailed + 1
        retriesExhausted := if 0 < attempts then s.retriesExhausted + 1 else s.retriesExhausted }
    let raw := request.internalSecurityId
    let key : InternalSecurityId :=
      if raw.isEmpty then FixedString.clear else (normalizeInternalSecurityId raw.view).getD raw
    emitTraderError ticket request.internalOrderId key (toOrderSide request.tradeSide)

/-- `retry_queue_.front()` and `pop_front()`. -/
def popRetry : Gateway α (Option RetryItem) := do
  let item ← own fun l => l.retryQueue.head?
  update fun l =>
    { l.note (item.toList.map fun i => .retaken i.ticket) with retryQueue := l.retryQueue.tail }
  pure item

/-- The loop of `process_retry_queue`, with the number of rounds that are left. -/
def retryRounds (now : TimestampNs) : Nat → Bool → Gateway α Bool
  | 0, didWork => pure didWork
  | rounds + 1, didWork => do
      match ← popRetry with
      -- The queue holds an item for every round that is left, so it is not empty here.
      | none => pure didWork
      | some item =>
          if now < item.nextRetryAtNs then
            update fun l => { l with retryQueue := l.retryQueue ++ [item] }
            retryRounds now rounds didWork
          else
            submitRequest cfg adapter item.ticket item.request item.attempts
            retryRounds now rounds true

/-- `process_retry_queue`. -/
def processRetryQueue : Gateway α Bool := do
  let count ← own fun l => l.retryQueue.length
  if count = 0 then pure false
  else
    let now ← nowNs
    let didWork ← retryRounds cfg adapter now count false
    update fun l => { l with stats := { l.stats with retryQueueSize := l.retryQueue.length } }
    pure didWork

/-- The body of the loop of `process_orders`, after the pop. -/
def takeOrder (ticket : Nat) (index : OrderIndex) : Gateway α Unit := do
  let received ← nowNs
  updateStats fun s =>
    { s with ordersReceived := s.ordersReceived + 1, lastOrderTimeNs := received }
  let slot ← call .readSlot
    (fun o => (if o.contended index then none else o.ordersShm.readSnapshot index, o))
    (fun slot => [.snapshot ticket (slot.map OrderSlot.request)])
  match slot with
  | none =>
      updateStats fun s => { s with ordersFailed := s.ordersFailed + 1 }
      recordError
        { domain := .order
          code := .orderNotFound
          module := "gateway_loop"
          message := "failed to read downstream order slot" }
  | some slot =>
      let now ← nowNs
      let _ ← call .setStage fun o =>
        ((), { o with ordersShm := (o.ordersShm.updateStage index .downstreamDequeued now).2 })
      match mapOrderRequestToBroker slot.request with
      | none =>
          updateStats fun s => { s with ordersFailed := s.ordersFailed + 1 }
          emitTraderError ticket slot.request.internalOrderId slot.request.internalSecurityId
            slot.request.tradeSide
      | some mapped => submitRequest cfg adapter ticket mapped 0

/-- The loop of `process_orders`, with what is left of the batch limit. -/
def ordersWithin : Nat → Bool → Gateway α Bool
  | 0, didWork => pure didWork
  | left + 1, didWork => do
      let ticket ← own fun l => l.stats.ordersReceived
      let popped ← call .popOrder
        (fun o => (o.orderQueue.tryPop.1, { o with orderQueue := o.orderQueue.tryPop.2 }))
        (fun popped => popped.toList.map fun index => .dequeued ticket index)
      match popped with
      | none => pure didWork
      | some index =>
          takeOrder cfg adapter ticket index
          ordersWithin left true

/-- `process_orders`. -/
def processOrders (batchLimit : Nat) : Gateway α Bool := ordersWithin cfg adapter batchLimit false

/-- The loop of `process_events` over a polled batch. -/
def deliverEvents : List BrokerEvent → Gateway α Unit
  | [] => pure ()
  | event :: rest => do
      let now ← nowNs
      match mapBrokerEventToTradeResponse event now with
      | none =>
          update fun l =>
            { l.note [.dropped event] with
              stats := { l.stats with responsesDropped := l.stats.responsesDropped + 1 } }
          deliverEvents rest
      | some response =>
          let ok ← pushResponse response rest.length (.delivered event response)
          if ok then
            updateStats fun s => { s with responsesPushed := s.responsesPushed + 1 }
            deliverEvents rest
          else
            update fun l =>
              { l.note [.dropped event] with
                stats := { l.stats with responsesDropped := l.stats.responsesDropped + 1 } }
            stop
            -- `break`: what is behind the event in the batch is not looked at.
            recordError
              { domain := .order
                code := .queuePushFailed
                module := "gateway_loop"
                message := "failed to push trade response" }

/-- `process_events`. -/
def processEvents (batchLimit : Nat) : Gateway α Bool :=
  if batchLimit = 0 then pure false
  else do
    let maxEvents := min batchLimit kMaxEventBatch
    let events ← call .poll
      (fun o =>
        ((adapter.pollEvents o.adapter maxEvents).1,
          { o with adapter := (adapter.pollEvents o.adapter maxEvents).2 }))
      (fun events => [.polled events])
    if events.length = 0 then pure false
    else
      updateStats fun s => { s with eventsReceived := s.eventsReceived + events.length }
      deliverEvents events
      pure true

/-- One round of the `while` of `run`; the periodic output of the counters has no counterpart. -/
def iteration : Gateway α Unit := do
  let running ← call .running fun o => (o.running, o)
  if running then
    updateStats fun s => { s with loopIterations := s.loopIterations + 1 }
    let retried ← processRetryQueue cfg adapter
    let ordered ← processOrders cfg adapter cfg.pollBatchSize.toNat
    let delivered ← processEvents adapter cfg.pollBatchSize.toNat
    if retried || ordered || delivered then pure ()
    else updateStats fun s => { s with idleIterations := s.idleIterations + 1 }
  else pure ()

/-! ## What a function does to the members of the loop -/

/-- Whatever the outside does within `Found`, the function leads from members that satisfy `P` to a
value and members that satisfy `Q`. -/
def Holds (Found : GatewayAction → Outside α → Prop) (P : GatewayLoop → Prop) (p : Gateway α β)
    (Q : β → GatewayLoop → Prop) : Prop :=
  Program.Triple (Amid Found) (fun w => P w.loop) p fun b w => Q b w.loop

section Holds

variable {Found : GatewayAction → Outside α → Prop} {P P' : GatewayLoop → Prop} {γ : Type}

/-- No party outside ends a property of the members. -/
theorem steady_loop : Steady (Amid Found) fun w : GatewayWorld α => P w.loop := by
  intro _ s t hrely hs
  rw [hrely.1]
  exact hs

theorem Holds.pure {b : β} {Q : β → GatewayLoop → Prop} (h : ∀ l, P l → Q b l) :
    Holds Found P (Pure.pure b : Gateway α β) Q :=
  Program.Triple.pure fun w => h w.loop

theorem Holds.bind {p : Gateway α β} {f : β → Gateway α γ} {R : β → GatewayLoop → Prop}
    {Q : γ → GatewayLoop → Prop} (hp : Holds Found P p R) (hf : ∀ b, Holds Found (R b) (f b) Q) :
    Holds Found P (p >>= f) Q :=
  Program.Triple.bind hp hf

theorem Holds.mono {p : Gateway α β} {Q R : β → GatewayLoop → Prop} (h : Holds Found P p Q)
    (hpre : ∀ l, P' l → P l) (hpost : ∀ b l, Q b l → R b l) : Holds Found P' p R :=
  Program.Triple.mono h (fun w => hpre w.loop) fun b w => hpost b w.loop

theorem Holds.call {label : GatewayAction} {f : Outside α → β × Outside α}
    {entry : β → List GatewayEvent} {Q : β → GatewayLoop → Prop}
    (h : ∀ o, Found label o → ∀ l, P l → Q (f o).1 (l.note (entry (f o).1))) :
    Holds Found P (Gateway.call label f entry) Q :=
  Program.Triple.atomic steady_loop fun _ w hrely hw => h w.outside hrely.2 w.loop hw

/-- A call that leaves no entry and whose value is not used leaves the members as they are. -/
theorem Holds.silent {label : GatewayAction} {f : Outside α → β × Outside α} :
    Holds Found P (Gateway.call label f) fun _ => P := by
  refine Holds.call fun o _ l hl => ?_
  rw [GatewayLoop.note_nil]
  exact hl

theorem Holds.own {f : GatewayLoop → β} {Q : β → GatewayLoop → Prop} (h : ∀ l, P l → Q (f l) l) :
    Holds Found P (Gateway.own f : Gateway α β) Q :=
  Program.Triple.atomic steady_loop fun _ w _ hw => h w.loop hw

theorem Holds.update {f : GatewayLoop → GatewayLoop} {Q : Unit → GatewayLoop → Prop}
    (h : ∀ l, P l → Q () (f l)) : Holds Found P (Gateway.update f : Gateway α Unit) Q :=
  Program.Triple.atomic steady_loop fun _ w _ hw => h w.loop hw

end Holds

end Gateway

/-- The states at the boundaries of the loop: the start, and the end of every round from a boundary,
whatever the outside does meanwhile within `Found`. -/
inductive GatewayWorld.Boundary {α : Type} (cfg : GatewayConfig) (adapter : BrokerAdapter α)
    (Found : GatewayAction → Outside α → Prop) : GatewayWorld α → Prop where
  | start (outside : Outside α) : Boundary cfg adapter Found { loop := {}, outside := outside }
  | round {w : GatewayWorld α} (schedule : Interference (Amid Found)) :
      Boundary cfg adapter Found w →
        Boundary cfg adapter Found ((Gateway.iteration cfg adapter).runAmid schedule w).2.1

/-- What holds of the members at the start and is preserved by a round holds at every boundary. -/
theorem GatewayWorld.Boundary.invariant {α : Type} {cfg : GatewayConfig} {adapter : BrokerAdapter α}
    {Found : GatewayAction → Outside α → Prop} {Inv : GatewayLoop → Prop} (hstart : Inv {})
    (hround : Gateway.Holds Found Inv (Gateway.iteration cfg adapter) fun _ => Inv)
    {w : GatewayWorld α} (hw : w.Boundary cfg adapter Found) : Inv w.loop := by
  induction hw with
  | start outside => exact hstart
  | round schedule _ ih => exact hround schedule _ ih

/-! ## A gateway with orders in its queue -/

/-- The outside with these orders in the pool and their indices in the downstream queue. -/
def Outside.ofClients {α : Type} (requests : List OrderRequest) (adapter : α) : Outside α where
  orderQueue :=
    (List.range requests.length).foldl (fun q i => (q.tryPush (UInt32.ofNat i)).2)
      (SpscQueue.init 0)
  responseQueue := SpscQueue.init {}
  ordersShm := OrdersShm.ofClients requests
  contended := fun _ => false
  adapter := adapter
  nowNs := 0
  running := true

/-- The loop after its first rounds, with nothing else happening meanwhile. -/
def GatewayWorld.rounds {α : Type} (cfg : GatewayConfig) (adapter : BrokerAdapter α)
    (outside : Outside α) : Nat → GatewayWorld α
  | 0 => { loop := {}, outside := outside }
  | n + 1 =>
      ((Gateway.iteration cfg adapter).runAmid
        (Interference.idle fun _ _ => ⟨rfl, trivial⟩ : Interference (Amid anywhere))
        (GatewayWorld.rounds cfg adapter outside n)).2.1

theorem GatewayWorld.boundary_rounds {α : Type} (cfg : GatewayConfig) (adapter : BrokerAdapter α)
    (outside : Outside α) (n : Nat) :
    (GatewayWorld.rounds cfg adapter outside n).Boundary cfg adapter anywhere := by
  induction n with
  | zero => exact Boundary.start outside
  | succ n ih => exact Boundary.round _ ih

end AccountServices
