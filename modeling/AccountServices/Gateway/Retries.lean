import AccountServices.Foundation.Word
import AccountServices.Gateway.Orderly

/-!
# Retries are bounded and accounted for

The retry queue is consumed and refilled by the same loop. An order is passed to the adapter again
only after an answer that asked for it and while attempts are left, so at most `max_retry_attempts +
1` times; every received order is submitted, failed or in the retry queue; and one call of
`process_retry_queue` takes each item that it finds exactly once.
-/

set_option autoImplicit false

namespace AccountServices

open Foundation

/-! ## The answers to the submissions of an order -/

/-- The answers of the adapter to the submissions of an order, in order. -/
def answersTo (n : Nat) (log : List GatewayEvent) : List SendResult :=
  log.filterMap fun
    | .submitted ticket _ _ _ answer => if ticket = n then some answer else none
    | _ => none

/-- A rejection for the moment. -/
def SendResult.Momentary (answer : SendResult) : Prop :=
  answer.accepted = false ∧ answer.retryable = true

/-- Rejections for the moment, not more than there are attempts, and at most one more answer. -/
def Bounded (maxRetryAttempts : UInt32) (answers : List SendResult) : Prop :=
  ∃ momentary last, answers = momentary ++ last ∧ last.length ≤ 1 ∧
    (∀ answer ∈ momentary, answer.Momentary) ∧ momentary.length ≤ maxRetryAttempts.toNat

/-- The answers that an order at a point of its life has had. -/
def Life.Answers (maxRetryAttempts : UInt32) (answers : List SendResult) : Life → Prop
  | .absent | .dequeued | .unreadable | .held _ => answers = []
  | .waiting _ attempts =>
      (∀ answer ∈ answers, answer.Momentary) ∧ answers.length = attempts.toNat ∧
        attempts ≤ maxRetryAttempts
  | .accepted | .rejected _ | .reported | .unreported => Bounded maxRetryAttempts answers

section Answers

variable {maxRetryAttempts : UInt32} {n : Nat} {log : List GatewayEvent} {life : Life}

/-- Entries that are no submission of the order add no answer. -/
theorem answersTo_note {entry : GatewayEvent}
    (h : ∀ request attempts waiting answer, entry ≠ .submitted n request attempts waiting answer) :
    answersTo n (log ++ [entry]) = answersTo n log := by
  rw [answersTo, List.filterMap_append]
  cases entry with
  | submitted ticket request attempts waiting answer =>
      have hne : ticket ≠ n := by
        rintro rfl
        exact h request attempts waiting answer rfl
      simp [answersTo, hne]
  | _ => simp [answersTo]

theorem answersTo_submitted (request : BrokerOrderRequest) (attempts : UInt32) (waiting : List Nat)
    (answer : SendResult) :
    answersTo n (log ++ [.submitted n request attempts waiting answer]) =
      answersTo n log ++ [answer] := by
  rw [answersTo, List.filterMap_append]
  simp [answersTo]

/-- One more answer, after as many rejections as attempts were made. -/
theorem Life.answers_answered {request : BrokerOrderRequest} {attempts : UInt32}
    {answers : List SendResult} (hmomentary : ∀ answer ∈ answers, answer.Momentary)
    (hlength : answers.length = attempts.toNat) (hle : attempts ≤ maxRetryAttempts)
    (answer : SendResult) :
    (Life.answered maxRetryAttempts request attempts answer).Answers maxRetryAttempts
      (answers ++ [answer]) := by
  have hbounded : Bounded maxRetryAttempts (answers ++ [answer]) := by
    refine ⟨answers, [answer], rfl, Nat.le_refl 1, hmomentary, ?_⟩
    rw [hlength]
    exact UInt32.le_iff_toNat_le.1 hle
  rcases Life.answered_cases maxRetryAttempts request attempts answer with
    ⟨_, h⟩ | ⟨hacc, ⟨hretry, hlt⟩, h⟩ | ⟨_, _, h⟩
  · rw [h]
    exact hbounded
  · rw [h]
    have hnat := UInt32.lt_iff_toNat_lt.1 hlt
    have hnext := Word.toNat_succ_of_lt hlt
    refine ⟨?_, ?_, ?_⟩
    · intro a ha
      rcases List.mem_append.1 ha with hold | hnew
      · exact hmomentary a hold
      · rw [List.mem_singleton.1 hnew]
        exact ⟨hacc, hretry⟩
    · rw [List.length_append, hlength, hnext]
      rfl
    · rw [UInt32.le_iff_toNat_le, hnext]
      exact hnat
  · rw [h]
    exact hbounded

/-- A failed life had only bounded answers. -/
theorem Life.Answers.bounded {answers : List SendResult}
    (h : life.Answers maxRetryAttempts answers) : Bounded maxRetryAttempts answers := by
  have hnil : answers = [] → Bounded maxRetryAttempts answers := by
    rintro rfl
    exact ⟨[], [], rfl, Nat.zero_le 1, by simp, Nat.zero_le _⟩
  cases life with
  | absent => exact hnil h
  | dequeued => exact hnil h
  | unreadable => exact hnil h
  | held _ => exact hnil h
  | waiting _ attempts =>
      obtain ⟨hmomentary, hlength, hle⟩ := h
      refine ⟨answers, [], (List.append_nil _).symm, Nat.zero_le 1, hmomentary, ?_⟩
      rw [hlength]
      exact UInt32.le_iff_toNat_le.1 hle
  | accepted => exact h
  | rejected _ => exact h
  | reported => exact h
  | unreported => exact h

/-- An order has had the answers of its point of life. -/
theorem Lived.answers (h : Lived maxRetryAttempts n log life) :
    life.Answers maxRetryAttempts (answersTo n log) := by
  induction h with
  | start => rfl
  | aside hother _ ih =>
      -- Only a submission of this ticket is an answer to it; the other entries pass by.
      rw [answersTo_note]
      · exact ih
      · rintro _ _ _ _ rfl
        exact hother rfl
  | dequeue index _ ih =>
      rw [answersTo_note (by simp)]
      exact ih
  | unreadable _ ih =>
      rw [answersTo_note (by simp)]
      exact ih
  | read request _ ih =>
      rw [answersTo_note (by simp)]
      exact ih
  | retake _ ih =>
      rw [answersTo_note (by simp)]
      exact ih
  | submit waiting answer _ _ ih =>
      rw [answersTo_submitted, show answersTo n _ = [] from ih]
      exact Life.answers_answered (by simp) rfl UInt32.zero_le answer
  | resubmit waiting answer _ ih =>
      obtain ⟨hmomentary, hlength, hle⟩ := ih
      rw [answersTo_submitted]
      exact Life.answers_answered hmomentary hlength hle answer
  | report _ _ _ _ _ ih =>
      rw [answersTo_note (by simp)]
      exact ih.bounded
  | unreport _ _ _ ih =>
      rw [answersTo_note (by simp)]
      exact ih.bounded

/-- In a bounded list every answer but the last was a rejection for the moment, with attempts
left. -/
theorem Bounded.before_last {answers : List SendResult} (h : Bounded maxRetryAttempts answers)
    {earlier later : List SendResult} {answer : SendResult}
    (hsplit : answers = earlier ++ answer :: later) (hlater : later ≠ []) :
    answer.Momentary ∧ earlier.length < maxRetryAttempts.toNat := by
  obtain ⟨momentary, last, hanswers, hlast, hmomentary, hlength⟩ := h
  have hlong : 0 < later.length := List.length_pos_iff.2 hlater
  have hlt : earlier.length < momentary.length := by
    have hlengths := congrArg List.length (hanswers.symm.trans hsplit)
    rw [List.length_append, List.length_append, List.length_cons] at hlengths
    omega
  refine ⟨?_, Nat.lt_of_lt_of_le hlt hlength⟩
  have hget : answers[earlier.length]? = some answer := by
    rw [hsplit, List.getElem?_append_right (Nat.le_refl _), Nat.sub_self]
    rfl
  rw [hanswers, List.getElem?_append_left hlt] at hget
  exact hmomentary answer (List.mem_of_getElem? hget)

theorem Bounded.length_le {answers : List SendResult} (h : Bounded maxRetryAttempts answers) :
    answers.length ≤ maxRetryAttempts.toNat + 1 := by
  obtain ⟨momentary, last, rfl, hlast, _, hlength⟩ := h
  rw [List.length_append]
  omega

end Answers

/-! ## The accounting of the orders -/

/-- Every received order is submitted, failed, in the retry queue or in flight, and an item in the
retry queue has used at least one and not more than the allowed attempts. -/
structure Balanced (cfg : GatewayConfig) (inFlight : Nat) (l : GatewayLoop) : Prop where
  orders : l.stats.ordersReceived =
    l.stats.ordersSubmitted + l.stats.ordersFailed + l.retryQueue.length + inFlight
  attempts : ∀ item ∈ l.retryQueue, 1 ≤ item.attempts ∧ item.attempts ≤ cfg.maxRetryAttempts

namespace Balanced

variable {cfg : GatewayConfig} {inFlight : Nat} {l l' : GatewayLoop}

/-- Only the retry queue and the counters of orders matter. -/
theorem congr (h : Balanced cfg inFlight l) (hqueue : l'.retryQueue = l.retryQueue)
    (hreceived : l'.stats.ordersReceived = l.stats.ordersReceived)
    (hsubmitted : l'.stats.ordersSubmitted = l.stats.ordersSubmitted)
    (hfailed : l'.stats.ordersFailed = l.stats.ordersFailed) : Balanced cfg inFlight l' := by
  constructor
  · rw [hqueue, hreceived, hsubmitted, hfailed]
    exact h.orders
  · rw [hqueue]
    exact h.attempts

theorem emitted {ticket : Nat} {id : InternalOrderId} (h : Balanced cfg inFlight l)
    (hemitted : Emitted ticket id l l') : Balanced cfg inFlight l' := by
  cases hemitted with
  | unnamed _ => exact h
  | reported _ _ _ => exact h.congr rfl rfl rfl rfl
  | unreported _ _ _ => exact h.congr rfl rfl rfl rfl

theorem fail (h : Balanced cfg (inFlight + 1) l) (attempts : UInt32) :
    Balanced cfg inFlight (l.fail attempts) := by
  refine ⟨?_, h.attempts⟩
  have horders := h.orders
  simp only [GatewayLoop.fail]
  omega

theorem submitted {ticket : Nat} {request : BrokerOrderRequest} {attempts : UInt32}
    (h : Balanced cfg (inFlight + 1) l) (hsubmitted : Submitted cfg ticket request attempts l l') :
    Balanced cfg inFlight l' := by
  obtain ⟨answer, hanswered⟩ := hsubmitted
  have hnote : Balanced cfg (inFlight + 1)
      (l.note [.submitted ticket request attempts l.waiting answer]) := h.congr rfl rfl rfl rfl
  have horders := hnote.orders
  cases hanswered with
  | accepted _ =>
      refine ⟨?_, hnote.attempts⟩
      simp only [GatewayLoop.accept]
      omega
  | rescheduled time _ _ hlt =>
      refine ⟨?_, ?_⟩
      · simp only [GatewayLoop.reschedule, List.length_append, List.length_singleton]
        omega
      · intro item hitem
        rcases List.mem_append.1 hitem with hold | hnew
        · exact hnote.attempts item hold
        · rw [List.mem_singleton.1 hnew]
          -- There was an attempt left, so the count of attempts does not wrap.
          have hnat := UInt32.lt_iff_toNat_lt.1 hlt
          have hnext := Word.toNat_succ_of_lt hlt
          rw [UInt32.le_iff_toNat_le, UInt32.le_iff_toNat_le, hnext]
          simp only [UInt32.reduceToNat]
          omega
  | failed _ _ hemitted => exact (hnote.fail attempts).emitted hemitted

theorem taken {ticket : Nat} (h : Balanced cfg (inFlight + 1) l) (htaken : Taken cfg ticket l l') :
    Balanced cfg inFlight l' := by
  have hnote : ∀ request, Balanced cfg (inFlight + 1) (l.note [.snapshot ticket request]) := by
    intro request
    exact h.congr rfl rfl rfl rfl
  cases htaken with
  | unreadable error => exact ((hnote none).fail 0).congr rfl rfl rfl rfl
  | unmapped _ hemitted => exact ((hnote _).fail 0).emitted hemitted
  | submitted _ hsubmitted => exact (hnote _).submitted hsubmitted

theorem delivery {MayRefuse : Nat → Prop} {events : List BrokerEvent} (h : Balanced cfg inFlight l)
    (hdelivery : Delivery MayRefuse events l l') : Balanced cfg inFlight l' := by
  induction hdelivery with
  | nil l => exact h
  | unmapped _ _ ih => exact ih (h.congr rfl rfl rfl rfl)
  | pushed _ _ ih => exact ih (h.congr rfl rfl rfl rfl)
  | refused error _ => exact h.congr rfl rfl rfl rfl

theorem move {MayRefuse : Nat → Prop} (hmove : Move cfg MayRefuse l l') (h : Balanced cfg 0 l) :
    Balanced cfg 0 l' := by
  have horders := h.orders
  have hattempts := h.attempts
  cases hmove with
  | postpone hqueue =>
      rw [hqueue] at horders hattempts
      refine ⟨?_, ?_⟩
      · simpa [GatewayLoop.retake] using horders
      · intro item hitem
        rw [GatewayLoop.retake, List.mem_append, List.mem_singleton] at hitem
        exact hattempts item (List.mem_cons.2 hitem.symm)
  | @retry _ item rest hqueue hsubmitted =>
      rw [hqueue] at horders hattempts
      have hflight : Balanced cfg (0 + 1) (l.retake item.ticket rest) := by
        refine ⟨?_, fun item hitem => hattempts item (List.mem_cons_of_mem _ hitem)⟩
        simpa [GatewayLoop.retake, Nat.add_assoc] using horders
      exact hflight.submitted hsubmitted
  | order index now htaken =>
      have hflight : Balanced cfg (0 + 1)
          ((l.note [.dequeued l.stats.ordersReceived index]).receive now) := by
        refine ⟨?_, hattempts⟩
        simp only [GatewayLoop.receive, GatewayLoop.stats_note, GatewayLoop.retryQueue_note]
        omega
      exact hflight.taken htaken
  | batch events hdelivery =>
      have hpoll : Balanced cfg 0 (l.poll events) := h.congr rfl rfl rfl rfl
      exact hpoll.delivery hdelivery
  | housekeeping stats hcounts =>
      simp only [GatewayLoop.counts, Prod.mk.injEq] at hcounts
      exact h.congr rfl hcounts.1 hcounts.2.1 hcounts.2.2.1

end Balanced

theorem GatewayWorld.Boundary.balanced {α : Type} {cfg : GatewayConfig} {adapter : BrokerAdapter α}
    {Found : GatewayAction → Outside α → Prop} {w : GatewayWorld α}
    (hw : w.Boundary cfg adapter Found) : Balanced cfg 0 w.loop := by
  refine hw.of_moves ⟨rfl, ?_⟩ fun _ _ hmove h => Balanced.move hmove h
  intro item hitem
  cases hitem

/-! ## One call of `process_retry_queue` -/

/-- The tickets taken from the retry queue, in order. -/
def retakenIn (log : List GatewayEvent) : List Nat :=
  log.filterMap fun
    | .retaken ticket => some ticket
    | _ => none

/-- A submission takes nothing from the retry queue and adds to it only at its end. -/
theorem Submitted.retryQueue {cfg : GatewayConfig} {ticket : Nat} {request : BrokerOrderRequest}
    {attempts : UInt32} {l l' : GatewayLoop} (h : Submitted cfg ticket request attempts l l') :
    (∃ added, l'.retryQueue = l.retryQueue ++ added) ∧ retakenIn l'.log = retakenIn l.log := by
  obtain ⟨answer, hanswered⟩ := h
  cases hanswered with
  | accepted _ => exact ⟨⟨[], (List.append_nil _).symm⟩, by simp [retakenIn, GatewayLoop.accept]⟩
  | rescheduled time _ _ _ => exact ⟨⟨_, rfl⟩, by simp [retakenIn, GatewayLoop.reschedule]⟩
  | failed _ _ hemitted =>
      refine ⟨⟨[], ?_⟩, ?_⟩
      · rw [List.append_nil]
        cases hemitted with
        | unnamed _ => rfl
        | reported _ _ _ => rfl
        | unreported _ _ _ => rfl
      · cases hemitted with
        | unnamed _ => simp [retakenIn, GatewayLoop.fail]
        | reported _ _ _ => simp [retakenIn, GatewayLoop.fail, GatewayLoop.push]
        | unreported _ _ _ => simp [retakenIn, GatewayLoop.fail, GatewayLoop.drop]

/-- The rounds take the front of the retry queue as it was, item by item; what is pushed meanwhile
stands behind it. -/
theorem Rounds.retakenIn_eq {cfg : GatewayConfig} {n : Nat} {l l' : GatewayLoop}
    (h : Rounds cfg n l l') {front rest : List RetryItem} (hqueue : l.retryQueue = front ++ rest)
    (hlength : front.length = n) :
    retakenIn l'.log = retakenIn l.log ++ front.map RetryItem.ticket := by
  induction h generalizing front rest with
  | zero l =>
      rw [List.eq_nil_of_length_eq_zero hlength]
      exact (List.append_nil _).symm
  -- The queue is shorter than the round.
  | empty hempty =>
      rw [hempty] at hqueue
      rw [(List.append_eq_nil_iff.1 hqueue.symm).1] at hlength
      cases hlength
  -- An item that is not due goes to the back, behind those of the round.
  | @postpone n l l' item rest' hfront _ ih =>
      cases front with
      | nil => cases hlength
      | cons first front =>
          rw [hqueue, List.cons_append] at hfront
          obtain ⟨rfl, rfl⟩ := List.cons_eq_cons.1 hfront
          have hqueue₁ : (l.retake first.ticket (front ++ rest ++ [first])).retryQueue =
              front ++ (rest ++ [first]) := List.append_assoc front rest [first]
          rw [ih hqueue₁ (Nat.succ.inj hlength)]
          simp [retakenIn, GatewayLoop.retake]
  -- One that is due is submitted, and comes back behind them or not at all.
  | @retry n l l₁ l₂ item rest' hfront hsubmitted _ ih =>
      cases front with
      | nil => cases hlength
      | cons first front =>
          rw [hqueue, List.cons_append] at hfront
          obtain ⟨rfl, rfl⟩ := List.cons_eq_cons.1 hfront
          obtain ⟨⟨added, hadded⟩, hretaken⟩ := hsubmitted.retryQueue
          have hqueue₁ : l₁.retryQueue = front ++ (rest ++ added) := by
            rw [hadded]
            exact List.append_assoc front rest added
          rw [ih hqueue₁ (Nat.succ.inj hlength), hretaken]
          simp [retakenIn, GatewayLoop.retake]

/-- One call takes exactly the items that it finds, each once, whatever happens meanwhile. -/
theorem retakenIn_processRetryQueue {α : Type} (cfg : GatewayConfig) (adapter : BrokerAdapter α)
    {Found : GatewayAction → Outside α → Prop} (schedule : Interference (Amid Found))
    (w : GatewayWorld α) :
    retakenIn ((Gateway.processRetryQueue cfg adapter).runAmid schedule w).2.1.loop.log =
      retakenIn w.loop.log ++ w.loop.waiting := by
  have hrounds : Gateway.Holds Found (· = w.loop) (Gateway.processRetryQueue cfg adapter) _ :=
    Gateway.processRetryQueue_rounds w.loop
  obtain ⟨mid, hmid, hlast⟩ := hrounds schedule w rfl
  have hlog : ((Gateway.processRetryQueue cfg adapter).runAmid schedule w).2.1.loop.log =
      mid.log := by
    rcases hlast with hlast | hlast
    · rw [hlast]
    · rw [hlast]
  rw [hlog, hmid.retakenIn_eq (List.append_nil _).symm rfl]
  rfl

/-! ## The result -/

/-- At every boundary of the loop, for all answers of the adapter, all clocks and all behaviour
outside: the submissions of an order are at most one more than the allowed retries, and only the
last of them can be anything else than a rejection for the moment with attempts left; the received
orders are submitted, failed or in the retry queue; the items there have used between one and all
attempts; and a call of `process_retry_queue` takes the items of the queue, which are distinct, each
once. -/
theorem retries_bounded_and_accounted {α : Type} {cfg : GatewayConfig} {adapter : BrokerAdapter α}
    {w : GatewayWorld α} (hw : w.Boundary cfg adapter anywhere) :
    (∀ n, (answersTo n w.loop.log).length ≤ cfg.maxRetryAttempts.toNat + 1 ∧
      ∀ earlier answer later, answersTo n w.loop.log = earlier ++ answer :: later → later ≠ [] →
        answer.accepted = false ∧ answer.retryable = true ∧
          earlier.length < cfg.maxRetryAttempts.toNat) ∧
    w.loop.stats.ordersReceived =
      w.loop.stats.ordersSubmitted + w.loop.stats.ordersFailed + w.loop.retryQueue.length ∧
    (∀ item ∈ w.loop.retryQueue, 1 ≤ item.attempts ∧ item.attempts ≤ cfg.maxRetryAttempts) ∧
    w.loop.waiting.Nodup ∧
    ∀ schedule : Interference (Amid (anywhere (α := α))),
      retakenIn ((Gateway.processRetryQueue cfg adapter).runAmid schedule w).2.1.loop.log =
        retakenIn w.loop.log ++ w.loop.waiting := by
  have horderly := hw.orderly
  have hbounded : ∀ n, Bounded cfg.maxRetryAttempts (answersTo n w.loop.log) := by
    intro n
    rcases Nat.lt_or_ge n w.loop.stats.ordersReceived with hlt | hge
    · obtain ⟨life, hlived, _⟩ := horderly.rests n hlt (by simp)
      exact hlived.answers.bounded
    · exact (horderly.unborn n hge).answers.bounded
  refine ⟨fun n => ⟨(hbounded n).length_le, ?_⟩, hw.balanced.orders, hw.balanced.attempts,
    horderly.distinct, fun schedule => retakenIn_processRetryQueue cfg adapter schedule w⟩
  intro earlier answer later hsplit hlater
  obtain ⟨⟨hacc, hretry⟩, hlt⟩ := (hbounded n).before_last hsplit hlater
  exact ⟨hacc, hretry, hlt⟩

/-- With an order that is rejected for the moment, one order has been received and waits. -/
theorem busy_retries_accounted :
    busyRound.loop.stats.ordersReceived = 2 ∧
      busyRound.loop.stats.ordersReceived = busyRound.loop.stats.ordersSubmitted +
        busyRound.loop.stats.ordersFailed + busyRound.loop.retryQueue.length :=
  ⟨by decide, (retries_bounded_and_accounted (GatewayWorld.boundary_rounds {} busyAdapter _ 1)).2.1⟩

end AccountServices
