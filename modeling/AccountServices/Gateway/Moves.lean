import AccountServices.Gateway.Loop

/-!
# What a round of the gateway loop is made of

Whatever the outside does, a round changes the members of the loop by a sequence of a few kinds of
moves: a retry item is put back or submitted, an order is taken from the queue and submitted, a
batch of events is handed on, or counters that no statement is about are written. `Move` lists them,
once, and every invariant of the loop is proved against it.
-/

set_option autoImplicit false

namespace AccountServices

open Foundation

/-! ## The changes of the members -/

namespace GatewayLoop

/-- An accepted submission. -/
def accept (l : GatewayLoop) : GatewayLoop :=
  { l with stats := { l.stats with ordersSubmitted := l.stats.ordersSubmitted + 1 } }

/-- A rejected submission that will be retried. -/
def reschedule (l : GatewayLoop) (item : RetryItem) : GatewayLoop :=
  { l with
    retryQueue := l.retryQueue ++ [item]
    stats :=
      { l.stats with
        retriesScheduled := l.stats.retriesScheduled + 1
        retryQueueSize := l.retryQueue.length + 1 } }

/-- An order that failed, after `attempts` retries. -/
def fail (l : GatewayLoop) (attempts : UInt32) : GatewayLoop :=
  { l with
    stats :=
      { l.stats with
        ordersFailed := l.stats.ordersFailed + 1
        retriesExhausted :=
          if 0 < attempts then l.stats.retriesExhausted + 1 else l.stats.retriesExhausted } }

/-- A response that was pushed, with its entry. -/
def push (l : GatewayLoop) (entry : GatewayEvent) : GatewayLoop :=
  { l.note [entry] with stats := { l.stats with responsesPushed := l.stats.responsesPushed + 1 } }

/-- A response that was dropped, with its entry. -/
def drop (l : GatewayLoop) (entry : GatewayEvent) : GatewayLoop :=
  { l.note [entry] with stats := { l.stats with responsesDropped := l.stats.responsesDropped + 1 } }

/-- An order that was received. -/
def receive (l : GatewayLoop) (now : TimestampNs) : GatewayLoop :=
  { l with
    stats :=
      { l.stats with ordersReceived := l.stats.ordersReceived + 1, lastOrderTimeNs := now } }

/-- A batch of events that was received. -/
def poll (l : GatewayLoop) (events : List BrokerEvent) : GatewayLoop :=
  { l.note [.polled events] with
    stats := { l.stats with eventsReceived := l.stats.eventsReceived + events.length } }

/-- The front of the retry queue is taken; `rest` stays. -/
def retake (l : GatewayLoop) (ticket : Nat) (rest : List RetryItem) : GatewayLoop :=
  { l.note [.retaken ticket] with retryQueue := rest }

/-- The counters that statements are about. -/
def counts (l : GatewayLoop) : Nat × Nat × Nat × Nat × Nat × Nat :=
  (l.stats.ordersReceived, l.stats.ordersSubmitted, l.stats.ordersFailed, l.stats.eventsReceived,
    l.stats.responsesPushed, l.stats.responsesDropped)

end GatewayLoop

/-- What `emit_trader_error` does: nothing without an id, else a pushed or a dropped report. -/
inductive Emitted (ticket : Nat) (id : InternalOrderId) (l : GatewayLoop) : GatewayLoop → Prop where
  | unnamed : id = 0 → Emitted ticket id l l
  | reported {response : TradeResponse} :
      id ≠ 0 → response.internalOrderId = id → response.newState = .traderError →
        Emitted ticket id l (l.push (.reported ticket response))
  | unreported {response : TradeResponse} :
      id ≠ 0 → response.internalOrderId = id → response.newState = .traderError →
        Emitted ticket id l (l.drop (.unreported ticket response))

/-- What `submit_request` does with an answer. -/
inductive Answered (cfg : GatewayConfig) (ticket : Nat) (request : BrokerOrderRequest)
    (attempts : UInt32) (answer : SendResult) (l : GatewayLoop) : GatewayLoop → Prop where
  | accepted : answer.accepted = true → Answered cfg ticket request attempts answer l l.accept
  | rescheduled (time : TimestampNs) :
      answer.accepted = false → answer.retryable = true → attempts < cfg.maxRetryAttempts →
        Answered cfg ticket request attempts answer l
          (l.reschedule
            { request := request, attempts := attempts + 1,
              nextRetryAtNs := time, ticket := ticket })
  | failed {l' : GatewayLoop} :
      answer.accepted = false → ¬(answer.retryable = true ∧ attempts < cfg.maxRetryAttempts) →
        Emitted ticket request.internalOrderId (l.fail attempts) l' →
          Answered cfg ticket request attempts answer l l'

/-- What `submit_request` does: the submission is noted, then its answer is acted on. -/
def Submitted (cfg : GatewayConfig) (ticket : Nat) (request : BrokerOrderRequest)
    (attempts : UInt32) (l l' : GatewayLoop) : Prop :=
  ∃ answer : SendResult,
    Answered cfg ticket request attempts answer
      (l.note [.submitted ticket request attempts l.waiting answer]) l'

/-- What `process_orders` does with a dequeued index. -/
inductive Taken (cfg : GatewayConfig) (ticket : Nat) (l : GatewayLoop) : GatewayLoop → Prop where
  | unreadable (error : ErrorStatus) :
      Taken cfg ticket l
        { (l.note [.snapshot ticket none]).fail 0 with errors := l.errors ++ [error] }
  | unmapped {request : OrderRequest} {l' : GatewayLoop} :
      mapOrderRequestToBroker request = none →
        Emitted ticket request.internalOrderId
            ((l.note [.snapshot ticket (some request)]).fail 0) l' →
          Taken cfg ticket l l'
  | submitted {request : OrderRequest} {mapped : BrokerOrderRequest} {l' : GatewayLoop} :
      mapOrderRequestToBroker request = some mapped →
        Submitted cfg ticket mapped 0 (l.note [.snapshot ticket (some request)]) l' →
          Taken cfg ticket l l'

/-- What `process_events` does with a batch. `MayRefuse n` says that the response queue can refuse
an event with `n` events behind it. -/
inductive Delivery (MayRefuse : Nat → Prop) : List BrokerEvent → GatewayLoop →
    GatewayLoop → Prop where
  | nil (l : GatewayLoop) : Delivery MayRefuse [] l l
  | unmapped {event : BrokerEvent} {rest : List BrokerEvent} {now : TimestampNs}
      {l l' : GatewayLoop} : mapBrokerEventToTradeResponse event now = none →
        Delivery MayRefuse rest (l.drop (.dropped event)) l' →
          Delivery MayRefuse (event :: rest) l l'
  | pushed {event : BrokerEvent} {rest : List BrokerEvent} {now : TimestampNs}
      {response : TradeResponse} {l l' : GatewayLoop} :
      mapBrokerEventToTradeResponse event now = some response →
        Delivery MayRefuse rest (l.push (.delivered event response)) l' →
          Delivery MayRefuse (event :: rest) l l'
  | refused {event : BrokerEvent} {rest : List BrokerEvent} {l : GatewayLoop}
      (error : ErrorStatus) : MayRefuse rest.length →
        Delivery MayRefuse (event :: rest) l
          { l.drop (.dropped event) with errors := l.errors ++ [error] }

/-- One move of the loop. -/
inductive Move (cfg : GatewayConfig) (MayRefuse : Nat → Prop) :
    GatewayLoop → GatewayLoop → Prop where
  | postpone {l : GatewayLoop} {item : RetryItem} {rest : List RetryItem} :
      l.retryQueue = item :: rest → Move cfg MayRefuse l (l.retake item.ticket (rest ++ [item]))
  | retry {l l' : GatewayLoop} {item : RetryItem} {rest : List RetryItem} :
      l.retryQueue = item :: rest →
        Submitted cfg item.ticket item.request item.attempts (l.retake item.ticket rest) l' →
          Move cfg MayRefuse l l'
  | order {l l' : GatewayLoop} (index : OrderIndex) (now : TimestampNs) :
      Taken cfg l.stats.ordersReceived
          ((l.note [.dequeued l.stats.ordersReceived index]).receive now) l' →
        Move cfg MayRefuse l l'
  | batch {l l' : GatewayLoop} (events : List BrokerEvent) :
      Delivery MayRefuse events (l.poll events) l' → Move cfg MayRefuse l l'
  | housekeeping {l : GatewayLoop} (stats : GatewayStats) :
      { l with stats := stats }.counts = l.counts → Move cfg MayRefuse l { l with stats := stats }

/-- What the loop of `process_retry_queue` does in a number of rounds. -/
inductive Rounds (cfg : GatewayConfig) : Nat → GatewayLoop → GatewayLoop → Prop where
  | zero (l : GatewayLoop) : Rounds cfg 0 l l
  | empty {n : Nat} {l : GatewayLoop} : l.retryQueue = [] → Rounds cfg (n + 1) l l
  | postpone {n : Nat} {l l' : GatewayLoop} {item : RetryItem} {rest : List RetryItem} :
      l.retryQueue = item :: rest → Rounds cfg n (l.retake item.ticket (rest ++ [item])) l' →
        Rounds cfg (n + 1) l l'
  | retry {n : Nat} {l l' l'' : GatewayLoop} {item : RetryItem} {rest : List RetryItem} :
      l.retryQueue = item :: rest →
        Submitted cfg item.ticket item.request item.attempts (l.retake item.ticket rest) l' →
          Rounds cfg n l' l'' → Rounds cfg (n + 1) l l''

/-- Rounds are moves. -/
theorem Rounds.moves {cfg : GatewayConfig} {MayRefuse : Nat → Prop} {n : Nat} {l l' : GatewayLoop}
    (h : Rounds cfg n l l') : Relation.ReflTransGen (Move cfg MayRefuse) l l' := by
  induction h with
  | zero l => exact Relation.ReflTransGen.refl
  | empty _ => exact Relation.ReflTransGen.refl
  | postpone hqueue _ ih => exact Relation.ReflTransGen.head (Move.postpone hqueue) ih
  | retry hqueue
      hsubmitted _ ih => exact Relation.ReflTransGen.head (Move.retry hqueue hsubmitted) ih

/-! ## The functions make these moves -/

namespace Gateway

variable {α : Type} {cfg : GatewayConfig} {adapter : BrokerAdapter α}
  {Found : GatewayAction → Outside α → Prop}

/-- A push leaves its entry or, when every attempt was refused, nothing. The last attempt then found
the queue full. -/
theorem pushResponseWithin_moves (l : GatewayLoop) (response : TradeResponse) (behind : Nat)
    (entry : GatewayEvent) (attempts : Nat) :
    Holds Found (· = l) (pushResponseWithin (α := α) response behind entry attempts) fun ok l' =>
      (ok = true ∧ l' = l.note [entry]) ∨
        (ok = false ∧ l' = l ∧
          (0 < attempts → ∃ o : Outside α, Found (.push 0 behind) o ∧
            (o.responseQueue.tryPush response).1 = false)) := by
  induction attempts with
  | zero =>
      refine Holds.pure fun l' hl' => Or.inr ⟨rfl, hl', ?_⟩
      intro hpos
      exact absurd hpos (Nat.lt_irrefl 0)
  | succ attempts ih =>
      -- The first attempt: its outcome is the queue that it found.
      refine Holds.bind (R := fun ok l' =>
        (ok = true ∧ l' = l.note [entry]) ∨
          (ok = false ∧ l' = l ∧ ∃ o : Outside α, Found (.push attempts behind) o ∧
            (o.responseQueue.tryPush response).1 = false)) (Holds.call ?_) ?_
      · rintro o hfound _ rfl
        cases hok : (o.responseQueue.tryPush response).1 with
        | true => exact Or.inl ⟨rfl, rfl⟩
        | false => exact Or.inr ⟨rfl, GatewayLoop.note_nil _, o, hfound, hok⟩
      · intro ok
        cases ok with
        | true =>
            refine Holds.pure fun l' hl' => ?_
            rcases hl' with ⟨_, hl'⟩ | ⟨hok, _⟩
            · exact Or.inl ⟨rfl, hl'⟩
            · cases hok
        | false =>
            by_cases hlast : attempts = 0
            · subst hlast
              refine Holds.pure fun l' hl' => ?_
              rcases hl' with ⟨hok, _⟩ | ⟨_, hl', hfull⟩
              · cases hok
              · exact Or.inr ⟨rfl, hl', fun _ => hfull⟩
            · refine Holds.mono ih ?_ ?_
              · rintro l' (⟨hok, _⟩ | ⟨_, hl', _⟩)
                · cases hok
                · exact hl'
              · rintro ok l' (hok | ⟨hok, hl', hfull⟩)
                · exact Or.inl hok
                · exact Or.inr ⟨hok, hl', fun _ => hfull (Nat.pos_of_ne_zero hlast)⟩

theorem emitTraderError_moves (l : GatewayLoop) (ticket : Nat) (id : InternalOrderId)
    (key : InternalSecurityId) (side : TradeSide) :
    Holds Found (· = l) (emitTraderError (α := α) ticket id key side) fun _ =>
      Emitted ticket id l := by
  rw [emitTraderError]
  by_cases hid : id = 0
  · rw [if_pos hid]
    refine Holds.pure ?_
    rintro _ rfl
    exact Emitted.unnamed hid
  · rw [if_neg hid]
    refine Holds.bind Holds.silent fun now => ?_
    refine Holds.bind (pushResponseWithin_moves l _ 0 _ kResponsePushAttempts) fun ok => ?_
    cases ok with
    | true =>
        rw [if_pos rfl]
        refine Holds.update ?_
        rintro l' (⟨_, rfl⟩ | ⟨hok, _⟩)
        · exact Emitted.reported hid rfl rfl
        · cases hok
    | false =>
        rw [if_neg Bool.false_ne_true]
        refine Holds.update ?_
        rintro l' (⟨hok, _⟩ | ⟨_, rfl, _⟩)
        · cases hok
        · exact Emitted.unreported hid rfl rfl

theorem submitRequest_moves (l : GatewayLoop) (ticket : Nat) (request : BrokerOrderRequest)
    (attempts : UInt32) :
    Holds Found (· = l) (submitRequest cfg adapter ticket request attempts) fun _ =>
      Submitted cfg ticket request attempts l := by
  rw [submitRequest]
  -- The orders that wait are noted before the adapter is called, which does not touch them.
  refine Holds.bind (R := fun waiting l' => waiting = l.waiting ∧ l' = l) (Holds.own ?_) ?_
  · rintro _ rfl
    exact ⟨rfl, rfl⟩
  intro waiting
  refine Holds.bind (R := fun answer l' =>
    l' = l.note [.submitted ticket request attempts l.waiting answer]) (Holds.call ?_) ?_
  · rintro o _ _ ⟨rfl, rfl⟩
    rfl
  intro answer
  cases hacc : answer.accepted with
  | true =>
      rw [if_pos rfl]
      refine Holds.update ?_
      rintro _ rfl
      exact ⟨answer, Answered.accepted hacc⟩
  | false =>
      by_cases hretry : answer.retryable = true ∧ attempts < cfg.maxRetryAttempts
      · rw [if_neg Bool.false_ne_true, if_pos hretry]
        refine Holds.bind Holds.silent fun now => Holds.update ?_
        rintro _ rfl
        exact ⟨answer, Answered.rescheduled _ hacc hretry.1 hretry.2⟩
      · rw [if_neg Bool.false_ne_true, if_neg hretry]
        refine Holds.bind (R := fun _ l' =>
          l' = (l.note [.submitted ticket request attempts l.waiting answer]).fail attempts)
          (Holds.update ?_) fun _ => ?_
        · rintro _ rfl
          rfl
        · refine Holds.mono (emitTraderError_moves _ ticket request.internalOrderId _ _)
            (fun _ h => h) fun _ l' hemitted => ?_
          exact ⟨answer, Answered.failed hacc hretry hemitted⟩

theorem takeOrder_moves (l : GatewayLoop) (ticket : Nat) (index : OrderIndex) :
    Holds Found (· = l) (takeOrder cfg adapter ticket index) fun _ l' =>
      ∃ now, Taken cfg ticket (l.receive now) l' := by
  rw [takeOrder]
  refine Holds.bind Holds.silent fun now => ?_
  refine Holds.bind (R := fun _ l' => l' = l.receive now) (Holds.update ?_) fun _ => ?_
  · rintro _ rfl
    rfl
  refine Holds.bind (R := fun slot l' =>
    l' = (l.receive now).note [.snapshot ticket (slot.map OrderSlot.request)]) (Holds.call ?_) ?_
  · rintro o _ _ rfl
    rfl
  intro slot
  -- The slot cannot be read, or the request cannot be mapped, or it is submitted.
  cases slot with
  | none =>
      refine Holds.bind
        (R := fun _ l' => l' = ((l.receive now).note [.snapshot ticket none]).fail 0)
        (Holds.update ?_) fun _ => Holds.update ?_
      · rintro _ rfl
        rfl
      · rintro _ rfl
        exact ⟨now, Taken.unreadable _⟩
  | some slot =>
      refine Holds.bind Holds.silent fun stageTime => Holds.bind Holds.silent fun _ => ?_
      cases hmap : mapOrderRequestToBroker slot.request with
      | none =>
          refine Holds.bind (R := fun _ l' =>
            l' = ((l.receive now).note [.snapshot ticket (some slot.request)]).fail 0)
            (Holds.update ?_) fun _ => ?_
          · rintro _ rfl
            rfl
          · refine Holds.mono (emitTraderError_moves _ ticket _ _ _) (fun _ h => h)
              fun _ l' hemitted => ?_
            exact ⟨now, Taken.unmapped hmap hemitted⟩
      | some mapped =>
          refine Holds.mono (submitRequest_moves _ ticket mapped 0) (fun _ h => h)
            fun _ l' hsubmitted => ?_
          exact ⟨now, Taken.submitted hmap hsubmitted⟩

/-- An event can be refused when some queue that its last attempt may find is full. -/
def mayRefuse (Found : GatewayAction → Outside α → Prop) (behind : Nat) : Prop :=
  ∃ (o : Outside α) (response : TradeResponse),
    Found (.push 0 behind) o ∧ (o.responseQueue.tryPush response).1 = false

theorem deliverEvents_moves (l : GatewayLoop) (events : List BrokerEvent) :
    Holds Found (· = l) (deliverEvents (α := α) events) fun _ =>
      Delivery (mayRefuse Found) events l := by
  induction events generalizing l with
  | nil =>
      refine Holds.pure ?_
      rintro _ rfl
      exact Delivery.nil _
  | cons event rest ih =>
      rw [deliverEvents]
      refine Holds.bind Holds.silent fun now => ?_
      cases hmap : mapBrokerEventToTradeResponse event now with
      -- An event without a mapping is counted as dropped, and the next one has its turn.
      | none =>
          refine Holds.bind (R := fun _ l' => l' = l.drop (.dropped event)) (Holds.update ?_)
            fun _ => ?_
          · rintro _ rfl
            rfl
          · exact Holds.mono (ih _) (fun _ h => h) fun _ _ hrest => Delivery.unmapped hmap hrest
      | some response =>
          refine Holds.bind
            (pushResponseWithin_moves l response rest.length _ kResponsePushAttempts)
            fun ok => ?_
          cases ok with
          | true =>
              rw [if_pos rfl]
              refine Holds.bind (R := fun _ l' => l' = l.push (.delivered event response))
                (Holds.update ?_) fun _ => ?_
              · rintro _ (⟨_, rfl⟩ | ⟨hok, _⟩)
                · rfl
                · cases hok
              · exact Holds.mono (ih _) (fun _ h => h) fun _ _ hrest => Delivery.pushed hmap hrest
          -- A refused push ends the delivery: the rest of the events is dropped without a count.
          | false =>
              rw [if_neg Bool.false_ne_true]
              refine Holds.bind (R := fun _ l' =>
                l' = l.drop (.dropped event) ∧ mayRefuse Found rest.length) (Holds.update ?_)
                fun _ => Holds.bind Holds.silent fun _ => Holds.update ?_
              · rintro _ (⟨hok, _⟩ | ⟨_, rfl, hfull⟩)
                · cases hok
                · obtain ⟨o, hfound, ho⟩ := hfull (by decide)
                  exact ⟨rfl, o, response, hfound, ho⟩
              · rintro _ ⟨rfl, hrefuse⟩
                exact Delivery.refused _ hrefuse

/-- The front of the retry queue is taken, if there is one. -/
theorem popRetry_moves (l : GatewayLoop) :
    Holds Found (· = l) (popRetry (α := α)) fun popped l' =>
      (popped = none ∧ l.retryQueue = [] ∧ l' = l) ∨
        ∃ item rest, popped = some item ∧ l.retryQueue = item :: rest ∧
          l' = l.retake item.ticket rest := by
  rw [popRetry]
  refine Holds.bind (R := fun popped l' => popped = l.retryQueue.head? ∧ l' = l) (Holds.own ?_) ?_
  · rintro _ rfl
    exact ⟨rfl, rfl⟩
  intro popped
  refine Holds.bind (R := fun _ l' => popped = l.retryQueue.head? ∧
    l' = { l.note (popped.toList.map fun i => .retaken i.ticket) with
      retryQueue := l.retryQueue.tail })
    (Holds.update ?_) fun _ => Holds.pure ?_
  · rintro _ ⟨hpopped, rfl⟩
    exact ⟨hpopped, rfl⟩
  · rintro _ ⟨hpopped, rfl⟩
    cases hqueue : l.retryQueue with
    | nil =>
        rw [hqueue] at hpopped
        refine Or.inl ⟨hpopped, rfl, ?_⟩
        cases hpopped
        simp only [List.head?_nil, Option.toList_none, List.map_nil,
          GatewayLoop.note_nil, List.tail_nil]
        rw [← hqueue]
    | cons item rest =>
        rw [hqueue] at hpopped
        refine Or.inr ⟨item, rest, hpopped, rfl, ?_⟩
        rw [hpopped]
        rfl

theorem retryRounds_moves (l : GatewayLoop) (now : TimestampNs) (rounds : Nat) (didWork : Bool) :
    Holds Found (· = l) (retryRounds cfg adapter now rounds didWork) fun _ =>
      Rounds cfg rounds l := by
  induction rounds generalizing l didWork with
  | zero =>
      refine Holds.pure ?_
      rintro _ rfl
      exact Rounds.zero _
  | succ rounds ih =>
      rw [retryRounds]
      refine Holds.bind (popRetry_moves l) fun popped => ?_
      cases popped with
      | none =>
          refine Holds.pure ?_
          rintro _ (⟨_, hempty, rfl⟩ | ⟨_, _, hpopped, _⟩)
          · exact Rounds.empty hempty
          · cases hpopped
      | some item =>
          by_cases hqueue : ∃ rest, l.retryQueue = item :: rest
          · obtain ⟨rest, hqueue⟩ := hqueue
            -- From here on the state after the pop is known.
            refine Holds.mono (P := (· = l.retake item.ticket rest)) ?_ ?_ fun _ _ h => h
            · dsimp only
              split
              case isTrue =>
                refine Holds.bind (R := fun _ l' => l' = l.retake item.ticket (rest ++ [item]))
                  (Holds.update ?_) fun _ => ?_
                · rintro _ rfl
                  rfl
                · exact Holds.mono (ih _ didWork) (fun _ h => h) fun _ _ => Rounds.postpone hqueue
              case isFalse =>
                refine Holds.bind (submitRequest_moves _ item.ticket item.request item.attempts)
                  fun _ => ?_
                intro env w hsubmitted
                exact Rounds.retry hqueue hsubmitted (ih w.loop true env w rfl)
            · rintro l' (⟨hpopped, _⟩ | ⟨item', rest', hpopped, hqueue', rfl⟩)
              · cases hpopped
              · rw [hqueue] at hqueue'
                cases hqueue'
                rfl
          · intro env w hw
            rcases hw with ⟨hpopped, _⟩ | ⟨item', rest', hpopped, hqueue', _⟩
            · cases hpopped
            · cases hpopped
              exact absurd ⟨rest', hqueue'⟩ hqueue

/-- `process_retry_queue` makes one round for every item that it finds. -/
theorem processRetryQueue_rounds (l : GatewayLoop) :
    Holds Found (· = l) (processRetryQueue cfg adapter) fun _ l' =>
      ∃ mid, Rounds cfg l.retryQueue.length l mid ∧
        (l' = mid ∨
          l' = { mid with
            stats := { mid.stats with retryQueueSize := mid.retryQueue.length } }) := by
  rw [processRetryQueue]
  refine Holds.bind (R := fun count l' => count = l.retryQueue.length ∧ l' = l) (Holds.own ?_) ?_
  · rintro _ rfl
    exact ⟨rfl, rfl⟩
  intro count
  dsimp only
  split
  case isTrue hzero =>
    refine Holds.pure ?_
    rintro _ ⟨hcount, rfl⟩
    refine ⟨_, ?_, Or.inl rfl⟩
    rw [← hcount, hzero]
    exact Rounds.zero _
  case isFalse =>
    refine Holds.bind Holds.silent fun now => ?_
    refine Holds.bind (R := fun _ mid => Rounds cfg l.retryQueue.length l mid) ?_ fun didWork => ?_
    · intro env w hw
      rw [hw.1, ← hw.2]
      exact retryRounds_moves w.loop now _ false env w rfl
    · refine Holds.bind (R := fun _ l' => ∃ mid, Rounds cfg l.retryQueue.length l mid ∧
        l' = { mid with stats := { mid.stats with retryQueueSize := mid.retryQueue.length } })
        (Holds.update fun mid hmid => ⟨mid, hmid, rfl⟩) fun _ => Holds.pure ?_
      rintro l' ⟨mid, hmid, hl'⟩
      exact ⟨mid, hmid, Or.inr hl'⟩

theorem ordersWithin_moves (l : GatewayLoop) (left : Nat) (didWork : Bool) :
    Holds Found (· = l) (ordersWithin cfg adapter left didWork) fun _ =>
      Relation.ReflTransGen (Move cfg (mayRefuse Found)) l := by
  -- The limit of the batch counts the orders down; an empty queue ends it early.
  induction left generalizing l didWork with
  | zero =>
      refine Holds.pure ?_
      rintro _ rfl
      exact Relation.ReflTransGen.refl
  | succ left ih =>
      rw [ordersWithin]
      refine Holds.bind (R := fun ticket l' => ticket = l.stats.ordersReceived ∧ l' = l)
        (Holds.own ?_) fun ticket => ?_
      · rintro _ rfl
        exact ⟨rfl, rfl⟩
      refine Holds.bind (R := fun popped l' => ticket = l.stats.ordersReceived ∧
        l' = l.note (popped.toList.map fun index => .dequeued ticket index)) (Holds.call ?_) ?_
      · rintro o _ _ ⟨hticket, rfl⟩
        exact ⟨hticket, rfl⟩
      intro popped
      cases popped with
      | none =>
          refine Holds.pure ?_
          rintro _ ⟨_, rfl⟩
          simp only [Option.toList_none, List.map_nil, GatewayLoop.note_nil]
          exact Relation.ReflTransGen.refl
      | some index =>
          refine Holds.bind (R := fun _ => Move cfg (mayRefuse Found) l) ?_ fun _ => ?_
          · intro env w hw
            obtain ⟨rfl, hl⟩ := hw
            obtain ⟨now, htaken⟩ := takeOrder_moves _ _ index env w hl
            exact Move.order index now htaken
          · intro env w hmove
            exact Relation.ReflTransGen.head hmove (ih w.loop true env w rfl)

theorem processEvents_moves (l : GatewayLoop) (batchLimit : Nat) :
    Holds Found (· = l) (processEvents adapter batchLimit) fun _ =>
      Relation.ReflTransGen (Move cfg (mayRefuse Found)) l := by
  rw [processEvents]
  split
  case isTrue =>
    refine Holds.pure ?_
    rintro _ rfl
    exact Relation.ReflTransGen.refl
  case isFalse =>
    refine Holds.bind (R := fun events l' => l' = l.note [.polled events]) (Holds.call ?_) ?_
    · rintro o _ _ rfl
      rfl
    intro events
    split
    case isTrue hempty =>
      refine Holds.pure ?_
      rintro _ rfl
      have hnil : events = [] := List.eq_nil_of_length_eq_zero hempty
      subst hnil
      exact Relation.ReflTransGen.single (Move.batch [] (Delivery.nil _))
    case isFalse =>
      refine Holds.bind (R := fun _ l' => l' = l.poll events) (Holds.update ?_) fun _ => ?_
      · rintro _ rfl
        rfl
      · refine Holds.bind (deliverEvents_moves _ events) fun _ => Holds.pure fun l' hdelivery => ?_
        exact Relation.ReflTransGen.single (Move.batch events hdelivery)

/-- A round is a sequence of moves. -/
theorem iteration_moves (l : GatewayLoop) :
    Holds Found (· = l) (iteration cfg adapter) fun _ =>
      Relation.ReflTransGen (Move cfg (mayRefuse Found)) l := by
  rw [iteration]
  refine Holds.bind Holds.silent fun running => ?_
  split
  -- The iteration is counted, which no order sees.
  case isFalse =>
    refine Holds.pure ?_
    rintro _ rfl
    exact Relation.ReflTransGen.refl
  case isTrue =>
    refine Holds.bind (R := fun _ => Relation.ReflTransGen (Move cfg (mayRefuse Found)) l)
      (Holds.update ?_) fun _ => ?_
    · rintro l' rfl
      exact Relation.ReflTransGen.single (Move.housekeeping _ rfl)
    -- the retries first
    refine Holds.bind (R := fun _ => Relation.ReflTransGen (Move cfg (mayRefuse Found)) l) ?_
      fun retried => ?_
    · intro env w hw
      obtain ⟨mid, hrounds, hl'⟩ := processRetryQueue_rounds w.loop env w rfl
      rcases hl' with hl' | hl'
      · rw [hl']
        exact hw.trans hrounds.moves
      · rw [hl']
        exact (hw.trans hrounds.moves).tail (Move.housekeeping _ rfl)
    -- then the orders of the queue
    refine Holds.bind (R := fun _ => Relation.ReflTransGen (Move cfg (mayRefuse Found)) l) ?_
      fun ordered => ?_
    · intro env w hw
      exact hw.trans (ordersWithin_moves w.loop cfg.pollBatchSize.toNat false env w rfl)
    -- then the events of the broker
    refine Holds.bind (R := fun _ => Relation.ReflTransGen (Move cfg (mayRefuse Found)) l) ?_
      fun delivered => ?_
    · intro env w hw
      exact hw.trans (processEvents_moves w.loop cfg.pollBatchSize.toNat env w rfl)
    split
    case isTrue => exact Holds.pure fun _ h => h
    case isFalse =>
      refine Holds.update fun l' hl' => ?_
      exact hl'.tail (Move.housekeeping _ rfl)

end Gateway

/-- What holds of the members at the start and is preserved by every move holds at every
boundary. -/
theorem GatewayWorld.Boundary.of_moves {α : Type} {cfg : GatewayConfig} {adapter : BrokerAdapter α}
    {Found : GatewayAction → Outside α → Prop} {Inv : GatewayLoop → Prop} (hstart : Inv {})
    (hmove : ∀ l l', Move cfg (Gateway.mayRefuse Found) l l' → Inv l → Inv l')
    {w : GatewayWorld α} (hw : w.Boundary cfg adapter Found) : Inv w.loop := by
  refine hw.invariant hstart ?_
  intro env w hinv
  have hmoves : Relation.ReflTransGen (Move cfg (Gateway.mayRefuse Found)) w.loop
      ((Gateway.iteration cfg adapter).runAmid env w).2.1.loop :=
    Gateway.iteration_moves w.loop env w rfl
  generalize ((Gateway.iteration cfg adapter).runAmid env w).2.1.loop = l' at hmoves ⊢
  induction hmoves with
  | refl => exact hinv
  | tail _ hlast ih => exact hmove _ _ hlast ih

end AccountServices
