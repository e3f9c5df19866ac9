import AccountServices.Gateway.Moves

/-!
# The events of the broker

`process_events` takes a batch of events from the adapter and hands them on one by one. An event
that cannot be mapped is counted as dropped and the loop goes on; when the response queue refuses an
event, the event is counted as dropped and the loop stops there, so whatever was behind it in the
batch is neither pushed nor counted.

`EventsAccounted` says that nothing disappears. It holds at every boundary of the loop as long as
the response queue refuses no event that has others behind it (`events_accounted_with_room`), and a
full queue breaks it (`batch_tail_uncounted`).
-/

set_option autoImplicit false

namespace AccountServices

open Foundation

/-! ## Events and their outcomes -/

/-- The events that the adapter returned, in order. -/
def polledIn (log : List GatewayEvent) : List BrokerEvent :=
  log.flatMap fun
    | .polled events => events
    | _ => []

/-- What `process_events` did with an event: pushed as a response, or counted as dropped. -/
def outcomesIn (log : List GatewayEvent) : List (BrokerEvent × Option TradeResponse) :=
  log.filterMap fun
    | .delivered event response => some (event, some response)
    | .dropped event => some (event, none)
    | _ => none

/-- The responses that `process_events` pushed, in order. -/
def responsesIn (log : List GatewayEvent) :
    List TradeResponse := (outcomesIn log).filterMap Prod.snd

/-- The number of events that `process_events` counted as dropped. -/
def droppedIn (log : List GatewayEvent) : Nat := (outcomesIn log).countP fun o => o.2.isNone

/-- The failure reports that were pushed and those that were dropped. -/
def reportsIn (log : List GatewayEvent) : Nat × Nat :=
  (log.countP fun | .reported _ _ => true | _ => false,
    log.countP fun | .unreported _ _ => true | _ => false)

@[simp] theorem polledIn_append (log entries : List GatewayEvent) :
    polledIn (log ++ entries) = polledIn log ++ polledIn entries := List.flatMap_append

@[simp] theorem outcomesIn_append (log entries : List GatewayEvent) :
    outcomesIn (log ++ entries) = outcomesIn log ++ outcomesIn entries := List.filterMap_append

@[simp] theorem responsesIn_append (log entries : List GatewayEvent) :
    responsesIn (log ++ entries) = responsesIn log ++ responsesIn entries := by
  rw [responsesIn, outcomesIn_append, List.filterMap_append]
  rfl

@[simp] theorem droppedIn_append (log entries : List GatewayEvent) :
    droppedIn (log ++ entries) = droppedIn log + droppedIn entries := by
  rw [droppedIn, outcomesIn_append, List.countP_append]
  rfl

@[simp] theorem reportsIn_append (log entries : List GatewayEvent) :
    reportsIn (log ++ entries) =
      ((reportsIn log).1 + (reportsIn entries).1, (reportsIn log).2 + (reportsIn entries).2) := by
  rw [reportsIn, List.countP_append, List.countP_append]
  rfl

/-- While `rest` of a batch is still to be handed on: the events with an outcome, then the rest, are
the events polled; a pushed response is the image of its event; and the counters agree. -/
structure Pending (rest : List BrokerEvent) (l : GatewayLoop) : Prop where
  events : (outcomesIn l.log).map Prod.fst ++ rest = polledIn l.log
  images : ∀ event response, (event, some response) ∈ outcomesIn l.log →
    ∃ now, mapBrokerEventToTradeResponse event now = some response
  received : l.stats.eventsReceived = (responsesIn l.log).length + droppedIn l.log + rest.length
  pushed : l.stats.responsesPushed = (responsesIn l.log).length + (reportsIn l.log).1
  dropped : l.stats.responsesDropped = droppedIn l.log + (reportsIn l.log).2

/-- No event is lost: every polled event was pushed or counted as dropped, in order, the pushed
responses are images of their events, and `events_received` is the sum of the two kinds. -/
def EventsAccounted (l : GatewayLoop) : Prop := Pending [] l

namespace Pending

variable {rest : List BrokerEvent} {l l' : GatewayLoop}

/-- Only the log and the counters of events and responses matter. -/
theorem congr (h : Pending rest l) (hlog : l'.log = l.log)
    (hreceived : l'.stats.eventsReceived = l.stats.eventsReceived)
    (hpushed : l'.stats.responsesPushed = l.stats.responsesPushed)
    (hdropped : l'.stats.responsesDropped = l.stats.responsesDropped) : Pending rest l' := by
  constructor
  · rw [hlog]
    exact h.events
  · rw [hlog]
    exact h.images
  · rw [hlog, hreceived]
    exact h.received
  · rw [hlog, hpushed]
    exact h.pushed
  · rw [hlog, hdropped]
    exact h.dropped

/-- An entry without events, outcomes and reports does not matter. -/
theorem aside (h : Pending rest l) {entry : GatewayEvent}
    (hpolled : polledIn [entry] = []) (houtcomes : outcomesIn [entry] = [])
    (hreports : reportsIn [entry] = (0, 0)) : Pending rest (l.note [entry]) := by
  have hresponses : responsesIn [entry] = [] := by rw [responsesIn, houtcomes, List.filterMap_nil]
  have hdropped : droppedIn [entry] = 0 := by rw [droppedIn, houtcomes, List.countP_nil]
  constructor
  · simpa [hpolled, houtcomes] using h.events
  · simpa [houtcomes] using h.images
  · simpa [hresponses, hdropped] using h.received
  · simpa [hresponses, hreports] using h.pushed
  · simpa [hdropped, hreports] using h.dropped

/-- A pushed failure report. -/
theorem report (h : Pending rest l) (ticket : Nat) (response : TradeResponse) :
    Pending rest (l.push (.reported ticket response)) := by
  have hpushed := h.pushed
  constructor
  · simpa [GatewayLoop.push, polledIn, outcomesIn] using h.events
  · simpa [GatewayLoop.push, outcomesIn] using h.images
  · simpa [GatewayLoop.push, responsesIn, droppedIn, outcomesIn] using h.received
  · simp only [GatewayLoop.push, GatewayLoop.log_note, responsesIn_append, reportsIn_append]
    rw [hpushed, List.length_append]
    simp [responsesIn, outcomesIn, reportsIn]
    omega
  · simpa [GatewayLoop.push, droppedIn, outcomesIn, reportsIn] using h.dropped

/-- A dropped failure report. -/
theorem unreport (h : Pending rest l) (ticket : Nat) (response : TradeResponse) :
    Pending rest (l.drop (.unreported ticket response)) := by
  have hdropped := h.dropped
  constructor
  · simpa [GatewayLoop.drop, polledIn, outcomesIn] using h.events
  · simpa [GatewayLoop.drop, outcomesIn] using h.images
  · simpa [GatewayLoop.drop, responsesIn, droppedIn, outcomesIn] using h.received
  · simpa [GatewayLoop.drop, responsesIn, outcomesIn, reportsIn] using h.pushed
  · simp only [GatewayLoop.drop, GatewayLoop.log_note, droppedIn_append, reportsIn_append]
    rw [hdropped]
    simp [droppedIn, outcomesIn, reportsIn]
    omega

/-- The first event of the rest is pushed. -/
theorem deliver {event : BrokerEvent} {response : TradeResponse} {now : TimestampNs}
    (h : Pending (event :: rest) l)
    (hmap : mapBrokerEventToTradeResponse event now = some response) :
    Pending rest (l.push (.delivered event response)) := by
  have hreceived := h.received
  have hpushed := h.pushed
  have houtcomes : outcomesIn [.delivered event response] = [(event, some response)] := rfl
  constructor
  · simpa [GatewayLoop.push, polledIn, houtcomes] using h.events
  · intro event' response' hmem
    simp only [GatewayLoop.push, GatewayLoop.log_note, outcomesIn_append,
      houtcomes, List.mem_append, List.mem_singleton] at hmem
    rcases hmem with hold | hnew
    · exact h.images event' response' hold
    · cases hnew
      exact ⟨now, hmap⟩
  · simp only [GatewayLoop.push, GatewayLoop.log_note, responsesIn_append, droppedIn_append]
    rw [hreceived, List.length_append]
    simp [responsesIn, droppedIn, houtcomes]
    omega
  · simp only [GatewayLoop.push, GatewayLoop.log_note, responsesIn_append, reportsIn_append]
    rw [hpushed, List.length_append]
    simp [responsesIn, houtcomes, reportsIn]
    omega
  · simpa [GatewayLoop.push, droppedIn, houtcomes, reportsIn] using h.dropped

/-- The first event of the rest is counted as dropped. -/
theorem discard {event : BrokerEvent} (h : Pending (event :: rest) l) :
    Pending rest (l.drop (.dropped event)) := by
  have hreceived := h.received
  have hdropped := h.dropped
  have houtcomes : outcomesIn [.dropped event] = [(event, none)] := rfl
  constructor
  · simpa [GatewayLoop.drop, polledIn, houtcomes] using h.events
  · simpa [GatewayLoop.drop, houtcomes] using h.images
  · simp only [GatewayLoop.drop, GatewayLoop.log_note, responsesIn_append, droppedIn_append]
    rw [hreceived, List.length_append]
    simp [responsesIn, droppedIn, houtcomes]
    omega
  · simpa [GatewayLoop.drop, responsesIn, houtcomes, reportsIn] using h.pushed
  · simp only [GatewayLoop.drop, GatewayLoop.log_note, droppedIn_append, reportsIn_append]
    rw [hdropped]
    simp [droppedIn, houtcomes, reportsIn]
    omega

/-- A batch is polled. -/
theorem poll (h : Pending [] l) (events : List BrokerEvent) : Pending events (l.poll events) := by
  have hreceived := h.received
  constructor
  · simpa [GatewayLoop.poll, polledIn, outcomesIn] using h.events
  · simpa [GatewayLoop.poll, outcomesIn] using h.images
  · simp only [GatewayLoop.poll, GatewayLoop.log_note, responsesIn_append, droppedIn_append]
    rw [hreceived]
    simp [responsesIn, droppedIn, outcomesIn]
  · simpa [GatewayLoop.poll, responsesIn, outcomesIn, reportsIn] using h.pushed
  · simpa [GatewayLoop.poll, droppedIn, outcomesIn, reportsIn] using h.dropped

/-! ## The moves keep it, with room for the batches -/

theorem emitted {ticket : Nat} {id : InternalOrderId} (h : Pending rest l)
    (hemitted : Emitted ticket id l l') : Pending rest l' := by
  cases hemitted with
  | unnamed _ => exact h
  | reported _ _ _ => exact h.report ticket _
  | unreported _ _ _ => exact h.unreport ticket _

theorem submitted {cfg : GatewayConfig} {ticket : Nat} {request : BrokerOrderRequest}
    {attempts : UInt32} (h : Pending rest l)
    (hsubmitted : Submitted cfg ticket request attempts l l') :
    Pending rest l' := by
  obtain ⟨answer, hanswered⟩ := hsubmitted
  have hnote : Pending rest (l.note [.submitted ticket request attempts l.waiting answer]) :=
    h.aside rfl rfl rfl
  cases hanswered with
  | accepted _ => exact hnote.congr rfl rfl rfl rfl
  | rescheduled _ _ _ _ => exact hnote.congr rfl rfl rfl rfl
  | failed _ _ hemitted =>
      have hfail : Pending rest
          ((l.note [.submitted ticket request attempts l.waiting answer]).fail attempts) :=
        hnote.congr rfl rfl rfl rfl
      exact hfail.emitted hemitted

theorem taken {cfg : GatewayConfig} {ticket : Nat} (h : Pending rest l)
    (htaken : Taken cfg ticket l l') : Pending rest l' := by
  have hnote : ∀ request, Pending rest (l.note [.snapshot ticket request]) := by
    intro request
    exact h.aside rfl rfl rfl
  cases htaken with
  | unreadable error => exact (hnote none).congr rfl rfl rfl rfl
  | @unmapped request _ _ hemitted =>
      have hfail : Pending rest ((l.note [.snapshot ticket (some request)]).fail 0) :=
        (hnote (some request)).congr rfl rfl rfl rfl
      exact hfail.emitted hemitted
  | submitted _ hsubmitted => exact (hnote _).submitted hsubmitted

/-- A delivery that only the last event of the batch can end hands the whole batch on. -/
theorem delivery {MayRefuse : Nat → Prop} (hroom : ∀ n, MayRefuse n → n = 0)
    {events : List BrokerEvent} (hdelivery : Delivery MayRefuse events l l')
    (h : Pending events l) :
    Pending [] l' := by
  induction hdelivery with
  | nil l => exact h
  | unmapped _ _ ih => exact ih h.discard
  | pushed hmap _ ih => exact ih (h.deliver hmap)
  | refused error hrefuse =>
      rw [List.eq_nil_of_length_eq_zero (hroom _ hrefuse)] at h
      exact h.discard.congr rfl rfl rfl rfl

theorem move {cfg : GatewayConfig} {MayRefuse : Nat → Prop} (hroom : ∀ n, MayRefuse n → n = 0)
    (hmove : Move cfg MayRefuse l l') (h : Pending [] l) : Pending [] l' := by
  have hretake : ∀ ticket queue, Pending [] (l.retake ticket queue) := by
    intro ticket queue
    have hnote : Pending [] (l.note [.retaken ticket]) := h.aside rfl rfl rfl
    exact hnote.congr rfl rfl rfl rfl
  cases hmove with
  | postpone _ => exact hretake _ _
  | retry _ hsubmitted => exact (hretake _ _).submitted hsubmitted
  | order index now htaken =>
      have hnote : Pending [] (l.note [.dequeued l.stats.ordersReceived index]) :=
        h.aside rfl rfl rfl
      have hreceive : Pending []
          ((l.note [.dequeued l.stats.ordersReceived index]).receive now) :=
        hnote.congr rfl rfl rfl rfl
      exact hreceive.taken htaken
  | batch events hdelivery => exact delivery hroom hdelivery (h.poll events)
  | housekeeping stats hcounts =>
      simp only [GatewayLoop.counts, Prod.mk.injEq] at hcounts
      obtain ⟨_, _, _, hreceived, hpushed, hdropped⟩ := hcounts
      exact h.congr rfl hreceived hpushed hdropped

end Pending

/-- The outside has room for the batches: the last attempt to push an event with others behind it
finds a free cell in the response queue. -/
def roomForBatches {α : Type} (label : GatewayAction) (o : Outside α) : Prop :=
  ∀ behind, label = .push 0 (behind + 1) → ∀ response, (o.responseQueue.tryPush response).1 = true

/-- With room for the batches, no event that has others behind it is refused. -/
theorem eq_zero_of_mayRefuse {α : Type} {behind : Nat}
    (h : Gateway.mayRefuse (roomForBatches (α := α)) behind) : behind = 0 := by
  obtain ⟨o, response, hroom, hfull⟩ := h
  cases behind with
  | zero => rfl
  | succ behind => exact absurd ((hroom behind rfl response).symm.trans hfull) (by decide)

/-- In every run in which the response queue has room for the batches, whatever else happens
outside, no event disappears: at every boundary of the loop each polled event was pushed as its
image or counted as dropped, in order, and the counters say so. -/
theorem events_accounted_with_room {α : Type} {cfg : GatewayConfig} {adapter : BrokerAdapter α}
    {w : GatewayWorld α} (hw : w.Boundary cfg adapter roomForBatches) : EventsAccounted w.loop := by
  refine hw.of_moves ?_ fun _ _ hmove h => ?_
  · exact ⟨rfl, by simp [outcomesIn], rfl, rfl, rfl⟩
  · exact Pending.move (fun _ => eq_zero_of_mayRefuse) hmove h

/-! ## A batch of two events -/

/-- An adapter that returns two acknowledgements and nothing more. -/
def acknowledgingAdapter : BrokerAdapter Bool where
  submit a _ := ({ accepted := true }, a)
  pollEvents a n :=
    if a then
      ([{ kind := .brokerAccepted, internalOrderId := 7 },
        { kind := .brokerAccepted, internalOrderId := 8 }].take n, false)
    else ([], false)
  length_pollEvents_le a n := by
    cases a with
    | true => exact List.length_take_le n _
    | false => exact Nat.zero_le n

/-- The service empties the response queue before every push. -/
def drainedQueue : Interference (Amid (roomForBatches (α := Bool))) where
  act _ label w :=
    match label with
    | .push _ _ => { w with outside := { w.outside with responseQueue := SpscQueue.init {} } }
    | _ => w
  rely _ label w := by
    cases label with
    | push attemptsLeft behind =>
        have hempty : ∀ response : TradeResponse,
            ((SpscQueue.init {} : SpscQueue TradeResponse 18).tryPush response).1 = true :=
          fun response => (SpscQueue.tryPush_true_iff _ response).2 (by decide)
        exact ⟨rfl, fun _ _ response => hempty response⟩
    | _ => exact ⟨rfl, fun _ h => by cases h⟩

/-- One round with a service that empties the response queue. -/
def drainedRound : GatewayWorld Bool :=
  ((Gateway.iteration {} acknowledgingAdapter).runAmid drainedQueue
    { loop := {}, outside := Outside.ofClients [] true }).2.1

theorem drained_events_accounted :
    EventsAccounted drainedRound.loop ∧ drainedRound.loop.stats.eventsReceived = 2 ∧
      (responsesIn drainedRound.loop.log).length = 2 :=
  ⟨events_accounted_with_room (GatewayWorld.Boundary.round drainedQueue (.start _)), by decide,
    by decide⟩

/-- One round while nobody reads the full response queue. -/
def cloggedRound : GatewayWorld Bool :=
  GatewayWorld.rounds {} acknowledgingAdapter
    { Outside.ofClients [] true with responseQueue := SpscQueue.filled {} } 1

/-- Two events were polled, none was pushed and one was counted as dropped. -/
theorem batch_tail_uncounted :
    cloggedRound.Boundary {} acknowledgingAdapter anywhere ∧
      cloggedRound.loop.stats.eventsReceived = 2 ∧ (polledIn cloggedRound.loop.log).length = 2 ∧
      responsesIn cloggedRound.loop.log = [] ∧ cloggedRound.loop.stats.responsesDropped = 1 ∧
      droppedIn cloggedRound.loop.log = 1 ∧ ¬EventsAccounted cloggedRound.loop := by
  refine ⟨GatewayWorld.boundary_rounds _ _ _ 1, by decide, by decide, by decide,
    by decide, by decide, ?_⟩
  intro h
  have hreceived := h.received
  revert hreceived
  decide

end AccountServices
