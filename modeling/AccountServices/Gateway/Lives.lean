import AccountServices.Gateway.Moves

/-!
# The life of an order in the gateway

What the gateway is for, told for one dequeued index: `Life` lists the points on its way and `Lived`
the ways through the log that lead to them. `Orderly` says that the loop follows it: between two
moves every dequeued index is at a resting point, and the retry queue holds exactly those that wait.
From it follow where a dequeued order can be at a boundary of the loop, and what has become of an
order when a later one is passed to the adapter.
-/

set_option autoImplicit false

namespace AccountServices

open Foundation

/-! ## Points of a life -/

inductive Life where
  | absent
  | dequeued
  | unreadable
  | held (request : OrderRequest)
  | waiting (request : BrokerOrderRequest) (attempts : UInt32)
  | accepted
  | rejected (request : BrokerOrderRequest)
  | reported
  | unreported

namespace Life

/-- Where the answer to a submission leads. -/
def answered (maxRetryAttempts : UInt32) (request : BrokerOrderRequest) (attempts : UInt32)
    (answer : SendResult) : Life :=
  if answer.accepted then .accepted
  else if answer.retryable ∧ attempts < maxRetryAttempts then .waiting request (attempts + 1)
  else .rejected request

/-- The life failed, and its failure has to be reported under this id. -/
def FailedAs (id : InternalOrderId) : Life → Prop
  | .held request => mapOrderRequestToBroker request = none ∧ request.internalOrderId = id
  | .rejected request => request.internalOrderId = id
  | _ => False

/-- The loop leaves a life only at these points. -/
def AtRest : Life → Prop
  | .unreadable | .waiting _ _ | .accepted | .reported | .unreported => True
  | .held request => mapOrderRequestToBroker request = none ∧ request.internalOrderId = 0
  | .absent | .dequeued | .rejected _ => False

def IsWaiting : Life → Prop
  | .waiting _ _ => True
  | _ => False

end Life

/-- The log led the order with ticket `n` to a point of its life. -/
inductive Lived (maxRetryAttempts : UInt32) (n : Nat) : List GatewayEvent → Life → Prop where
  | start : Lived maxRetryAttempts n [] .absent
  -- entries of other tickets
  | aside {log : List GatewayEvent} {life : Life} {entry : GatewayEvent} :
      entry.ticket ≠ some n → Lived maxRetryAttempts n log life →
        Lived maxRetryAttempts n (log ++ [entry]) life
  -- `process_orders`, with its two ways to read the slot
  | dequeue {log : List GatewayEvent} (index : OrderIndex) :
      Lived maxRetryAttempts n log .absent →
        Lived maxRetryAttempts n (log ++ [.dequeued n index]) .dequeued
  | unreadable {log : List GatewayEvent} :
      Lived maxRetryAttempts n log .dequeued →
        Lived maxRetryAttempts n (log ++ [.snapshot n none]) .unreadable
  | read {log : List GatewayEvent} (request : OrderRequest) :
      Lived maxRetryAttempts n log .dequeued →
        Lived maxRetryAttempts n (log ++ [.snapshot n (some request)]) (.held request)
  -- `process_retry_queue`
  | retake {log : List GatewayEvent} {request : BrokerOrderRequest} {attempts : UInt32} :
      Lived maxRetryAttempts n log (.waiting request attempts) →
        Lived maxRetryAttempts n (log ++ [.retaken n]) (.waiting request attempts)
  -- `submit_request`, for the first time and again
  | submit {log : List GatewayEvent} {request : OrderRequest} {mapped : BrokerOrderRequest}
      (waiting : List Nat) (answer : SendResult) :
      mapOrderRequestToBroker request = some mapped → Lived maxRetryAttempts n log (.held request) →
        Lived maxRetryAttempts n (log ++ [.submitted n mapped 0 waiting answer])
          (Life.answered maxRetryAttempts mapped 0 answer)
  | resubmit {log : List GatewayEvent} {request : BrokerOrderRequest} {attempts : UInt32}
      (waiting : List Nat) (answer : SendResult) :
      Lived maxRetryAttempts n log (.waiting request attempts) →
        Lived maxRetryAttempts n (log ++ [.submitted n request attempts waiting answer])
          (Life.answered maxRetryAttempts request attempts answer)
  -- `emit_trader_error`, with and without room for the response
  | report {log : List GatewayEvent} {life : Life} {id : InternalOrderId}
      {response : TradeResponse} :
      life.FailedAs id → id ≠ 0 → response.internalOrderId = id → response.newState = .traderError →
        Lived maxRetryAttempts n log life →
          Lived maxRetryAttempts n (log ++ [.reported n response]) .reported
  | unreport {log : List GatewayEvent} {life : Life} {id : InternalOrderId}
      {response : TradeResponse} :
      life.FailedAs id → id ≠ 0 → Lived maxRetryAttempts n log life →
        Lived maxRetryAttempts n (log ++ [.unreported n response]) .unreported

/-! ## What the log says about a life -/

/-- A submission of the order was accepted. -/
def AcceptedIn (log : List GatewayEvent) (n : Nat) : Prop :=
  ∃ request attempts waiting answer,
    .submitted n request attempts waiting answer ∈ log ∧ answer.accepted = true

/-- A submission of the order was rejected for the moment, with attempts left. -/
def RetriedIn (maxRetryAttempts : UInt32) (log : List GatewayEvent) (n : Nat) : Prop :=
  ∃ request attempts waiting answer,
    .submitted n request attempts waiting answer ∈ log ∧ answer.accepted = false ∧
      answer.retryable = true ∧ attempts < maxRetryAttempts

/-- A submission of the order was rejected for good, or with no attempt left. -/
def RefusedIn (maxRetryAttempts : UInt32) (log : List GatewayEvent) (n : Nat) : Prop :=
  ∃ request attempts waiting answer,
    .submitted n request attempts waiting answer ∈ log ∧ answer.accepted = false ∧
      ¬(answer.retryable = true ∧ attempts < maxRetryAttempts)

namespace Life

/-- The life has read this request from its slot. -/
def ReadAs (request : OrderRequest) : Life → Prop
  | .held read => read = request
  | .waiting mapped _ | .rejected mapped => mapOrderRequestToBroker request = some mapped
  | .accepted => mapOrderRequestToBroker request ≠ none
  | .reported | .unreported => request.internalOrderId ≠ 0
  | .absent | .dequeued | .unreadable => False

/-- The life is over without acceptance. -/
def IsFailed : Life → Prop
  | .rejected _ | .reported | .unreported => True
  | _ => False

/-- The entry can stand in the log of such a life. -/
def Allows (maxRetryAttempts : UInt32) (life : Life) : GatewayEvent → Prop
  | .dequeued _ _ => life ≠ .absent
  | .snapshot _ none => life = .unreadable
  | .snapshot _ (some request) => life.ReadAs request
  | .submitted _ _ attempts _ answer =>
      (answer.accepted = true → life = .accepted) ∧
        (answer.accepted = false → ¬(answer.retryable = true ∧ attempts < maxRetryAttempts) →
          life.IsFailed)
  | .reported _ _ => life = .reported
  | .unreported _ _ => life = .unreported
  | _ => True

/-- Why the order failed: its request could not be mapped, or its submission was refused. -/
def Cause (maxRetryAttempts : UInt32) (n : Nat) (log : List GatewayEvent) (request : OrderRequest) :
    Prop :=
  .snapshot n (some request) ∈ log ∧
    (mapOrderRequestToBroker request = none ∨ RefusedIn maxRetryAttempts log n)

/-- The entries that stand in the log of such a life. -/
def Needs (maxRetryAttempts : UInt32) (n : Nat) (log : List GatewayEvent) : Life → Prop
  | .absent | .dequeued => True
  | .unreadable => .snapshot n none ∈ log
  | .held request => .snapshot n (some request) ∈ log
  | .waiting mapped _ =>
      (∃ request, .snapshot n (some request) ∈ log ∧
        mapOrderRequestToBroker request = some mapped) ∧ RetriedIn maxRetryAttempts log n
  | .accepted => AcceptedIn log n
  | .rejected mapped =>
      (∃ request, .snapshot n (some request) ∈ log ∧
        mapOrderRequestToBroker request = some mapped) ∧ RefusedIn maxRetryAttempts log n
  | .reported =>
      ∃ request response, Cause maxRetryAttempts n log request ∧ .reported n response ∈ log ∧
        response.internalOrderId = request.internalOrderId ∧ response.newState = .traderError
  | .unreported =>
      ∃ request response, Cause maxRetryAttempts n log request ∧ .unreported n response ∈ log

end Life

section Evidence

variable {maxRetryAttempts : UInt32} {n : Nat} {log : List GatewayEvent} {life : Life}

/-- The three outcomes of an answer. -/
theorem Life.answered_cases (maxRetryAttempts : UInt32) (request : BrokerOrderRequest)
    (attempts : UInt32) (answer : SendResult) :
    (answer.accepted = true ∧
        Life.answered maxRetryAttempts request attempts answer = .accepted) ∨
      (answer.accepted = false ∧ (answer.retryable = true ∧ attempts < maxRetryAttempts) ∧
        Life.answered maxRetryAttempts request attempts answer = .waiting request (attempts + 1)) ∨
      (answer.accepted = false ∧ ¬(answer.retryable = true ∧ attempts < maxRetryAttempts) ∧
        Life.answered maxRetryAttempts request attempts answer = .rejected request) := by
  rw [Life.answered]
  cases hacc : answer.accepted with
  | true => exact Or.inl ⟨rfl, rfl⟩
  | false =>
      by_cases hretry : answer.retryable = true ∧ attempts < maxRetryAttempts
      · exact Or.inr (Or.inl ⟨rfl, hretry, if_pos hretry⟩)
      · exact Or.inr (Or.inr ⟨rfl, hretry, if_neg hretry⟩)

/-- From an open life, what it allows is allowed wherever an answer leads. -/
theorem Life.Allows.answered {entry : GatewayEvent} {mapped : BrokerOrderRequest}
    (hread : ∀ request, life.ReadAs request → mapOrderRequestToBroker request = some mapped)
    (hopen : life ≠ .accepted ∧ life ≠ .unreadable ∧ life ≠ .reported ∧ life ≠ .unreported ∧
      ¬life.IsFailed) (h : life.Allows maxRetryAttempts entry) (attempts : UInt32)
    (answer : SendResult) :
    (Life.answered maxRetryAttempts mapped attempts answer).Allows maxRetryAttempts entry := by
  obtain ⟨haccepted, hunreadable, hreported, hunreported, hfailed⟩ := hopen
  match entry, h with
  | .snapshot _ none, h => exact absurd h hunreadable
  | .snapshot _ (some request), h =>
      have hmap := hread request h
      rcases Life.answered_cases maxRetryAttempts mapped attempts answer with
        ⟨_, h⟩ | ⟨_, _, h⟩ | ⟨_, _, h⟩
      · simp [h, Life.Allows, Life.ReadAs, hmap]
      · simp [h, Life.Allows, Life.ReadAs, hmap]
      · simp [h, Life.Allows, Life.ReadAs, hmap]
  | .submitted _ _ _ _ _, h =>
      exact ⟨fun hacc => absurd (h.1 hacc) haccepted, fun hacc hretry =>
        absurd (h.2 hacc hretry) hfailed⟩
  | .reported _ _, h => exact absurd h hreported
  | .unreported _ _, h => exact absurd h hunreported
  | .dequeued _ _, _ =>
      rcases Life.answered_cases maxRetryAttempts mapped attempts answer with
        ⟨_, h⟩ | ⟨_, _, h⟩ | ⟨_, _, h⟩
      · simp [h, Life.Allows]
      · simp [h, Life.Allows]
      · simp [h, Life.Allows]
  | .retaken _, _ => trivial
  | .polled _, _ => trivial
  | .delivered _ _, _ => trivial
  | .dropped _, _ => trivial

/-- The submission itself is allowed where its answer leads. -/
theorem Life.allows_answered (request : BrokerOrderRequest) (attempts : UInt32)
    (waiting : List Nat) (answer : SendResult) :
    (Life.answered maxRetryAttempts request attempts answer).Allows maxRetryAttempts
      (.submitted n request attempts waiting answer) := by
  rcases Life.answered_cases maxRetryAttempts request attempts answer with
    ⟨hacc, h⟩ | ⟨hacc, hretry, h⟩ | ⟨hacc, hretry, h⟩
  · simp [h, hacc, Life.Allows]
  · simp [h, hacc, hretry, Life.Allows]
  · simp [h, hacc, Life.Allows, Life.IsFailed]

/-- What a failed life allows is allowed once its failure is reported, or could not be. -/
theorem Life.Allows.failed {entry : GatewayEvent} {id : InternalOrderId}
    (hfailed : life.FailedAs id)
    (hid : id ≠ 0) (h : life.Allows maxRetryAttempts entry) {last : Life}
    (hlast : last = .reported ∨ last = .unreported) : last.Allows maxRetryAttempts entry := by
  -- The request was read with the id that is reported, which is not zero.
  have hread : ∀ request, life.ReadAs request → request.internalOrderId ≠ 0 := by
    intro request hread
    cases life with
    | held read =>
        rw [← show read = request from hread, hfailed.2]
        exact hid
    | rejected mapped => exact (mapOrderRequestToBroker_ids hread).1
    | _ => exact hfailed.elim
  -- A life that failed had no accepted submission and no report yet.
  match entry, h with
  | .snapshot _ none, h =>
      rw [show life = .unreadable from h] at hfailed
      exact hfailed.elim
  | .snapshot _ (some request), h =>
      rcases hlast with rfl | rfl
      · exact hread request h
      · exact hread request h
  | .submitted _ _ _ _ _, h =>
      refine ⟨fun hacc => ?_, fun _ _ => ?_⟩
      · rw [h.1 hacc] at hfailed
        exact hfailed.elim
      · rcases hlast with rfl | rfl
        · trivial
        · trivial
  | .reported _ _, h =>
      rw [show life = .reported from h] at hfailed
      exact hfailed.elim
  | .unreported _ _, h =>
      rw [show life = .unreported from h] at hfailed
      exact hfailed.elim
  | .dequeued _ _, _ =>
      rcases hlast with rfl | rfl
      · exact fun h => by cases h
      · exact fun h => by cases h
  | .retaken _, _ => trivial
  | .polled _, _ => trivial
  | .delivered _ _, _ => trivial
  | .dropped _, _ => trivial

/-- A life before the slot was read allows only the dequeue. -/
theorem Life.Allows.unread {entry : GatewayEvent} {last : Life}
    (hlife : life = .absent ∨ life = .dequeued) (hlast : last ≠ .absent)
    (h : life.Allows maxRetryAttempts entry) :
    last.Allows maxRetryAttempts entry := by
  match entry, h with
  | .snapshot _ none, h => rcases hlife with rfl | rfl <;> cases h
  | .snapshot _ (some request), h => rcases hlife with rfl | rfl <;> cases h
  | .submitted _ _ _ _ _, h =>
      refine ⟨fun hacc => ?_, fun hacc hretry => ?_⟩
      · have := h.1 hacc
        rcases hlife with rfl | rfl <;> cases this
      · have := h.2 hacc hretry
        rcases hlife with rfl | rfl <;> cases this
  | .reported _ _, h => rcases hlife with rfl | rfl <;> cases h
  | .unreported _ _, h => rcases hlife with rfl | rfl <;> cases h
  | .dequeued _ _, _ => exact hlast
  | .retaken _, _ => trivial
  | .polled _, _ => trivial
  | .delivered _ _, _ => trivial
  | .dropped _, _ => trivial

/-- Every entry about the order is one that its life allows. -/
theorem Lived.allows (h : Lived maxRetryAttempts n log life) {entry : GatewayEvent}
    (hmem : entry ∈ log) (hticket : entry.ticket = some n) :
    life.Allows maxRetryAttempts entry := by
  -- Every step of a life puts its entry behind the log: an older entry was allowed before, and
  -- stays so.
  induction h with
  | start => cases hmem
  | aside hother _ ih =>
      rcases List.mem_append.1 hmem with hold | hnew
      · exact ih hold
      · rw [List.mem_singleton] at hnew
        rw [← hnew] at hother
        exact absurd hticket hother
  | dequeue index _ ih =>
      rcases List.mem_append.1 hmem with hold | hnew
      · exact Life.Allows.unread (Or.inl rfl) (by simp) (ih hold)
      · cases List.mem_singleton.1 hnew
        simp [Life.Allows]
  | unreadable _ ih =>
      rcases List.mem_append.1 hmem with hold | hnew
      · exact Life.Allows.unread (Or.inr rfl) (by simp) (ih hold)
      · cases List.mem_singleton.1 hnew
        rfl
  | read request _ ih =>
      rcases List.mem_append.1 hmem with hold | hnew
      · exact Life.Allows.unread (Or.inr rfl) (by simp) (ih hold)
      · cases List.mem_singleton.1 hnew
        rfl
  | retake _ ih =>
      rcases List.mem_append.1 hmem with hold | hnew
      · exact ih hold
      · cases List.mem_singleton.1 hnew
        trivial
  | @submit _ request mapped _ answer hmap _ ih =>
      rcases List.mem_append.1 hmem with hold | hnew
      · refine Life.Allows.answered ?_ (by simp [Life.IsFailed]) (ih hold) 0 answer
        intro request' hread
        rw [← show request = request' from hread]
        exact hmap
      · cases List.mem_singleton.1 hnew
        exact Life.allows_answered mapped 0 _ answer
  | @resubmit _ mapped attempts _ answer _ ih =>
      rcases List.mem_append.1 hmem with hold | hnew
      · refine Life.Allows.answered ?_ (by simp [Life.IsFailed]) (ih hold) attempts answer
        exact fun _ hread => hread
      · cases List.mem_singleton.1 hnew
        exact Life.allows_answered mapped attempts _ answer
  | report hfailed hid _ _ _ ih =>
      rcases List.mem_append.1 hmem with hold | hnew
      · exact Life.Allows.failed hfailed hid (ih hold) (Or.inl rfl)
      · cases List.mem_singleton.1 hnew
        rfl
  | unreport hfailed hid _ ih =>
      rcases List.mem_append.1 hmem with hold | hnew
      · exact Life.Allows.failed hfailed hid (ih hold) (Or.inr rfl)
      · cases List.mem_singleton.1 hnew
        rfl

/-- A slot is read once. -/
theorem Lived.snapshot_unique (h : Lived maxRetryAttempts n log life)
    {first second : Option OrderRequest}
    (hfirst : .snapshot n first ∈ log) (hsecond : .snapshot n second ∈ log) : first = second := by
  have hold : ∀ {log' : List GatewayEvent} {entry : GatewayEvent} {read : Option OrderRequest},
      .snapshot n read ∈ log' ++ [entry] → (∀ read, entry ≠ .snapshot n read) →
        .snapshot n read ∈ log' := by
    intro log' entry read hmem hentry
    rcases List.mem_append.1 hmem with hold | hnew
    · exact hold
    · exact absurd (List.mem_singleton.1 hnew).symm (hentry read)
  -- Before the read no snapshot is allowed, so both are the one just noted.
  have hnone : ∀ {log' : List GatewayEvent} {read read' : Option OrderRequest},
      Lived maxRetryAttempts n log' .dequeued → .snapshot n read ∈ log' ++ [.snapshot n read'] →
        read = read' := by
    intro log' read read' hlived hmem
    rcases List.mem_append.1 hmem with hold | hnew
    · have hallows := hlived.allows hold rfl
      cases read with
      | none => cases hallows
      | some request => exact hallows.elim
    · cases List.mem_singleton.1 hnew
      rfl
  induction h with
  | start => cases hfirst
  | @aside _ _ entry hother _ ih =>
      have hentry : ∀ read, entry ≠ .snapshot n read := by
        rintro read rfl
        exact hother rfl
      exact ih (hold hfirst hentry) (hold hsecond hentry)
  | dequeue index _ ih => exact ih (hold hfirst (by simp)) (hold hsecond (by simp))
  | unreadable hlived _ => exact (hnone hlived hfirst).trans (hnone hlived hsecond).symm
  | read request hlived _ => exact (hnone hlived hfirst).trans (hnone hlived hsecond).symm
  | retake _ ih => exact ih (hold hfirst (by simp)) (hold hsecond (by simp))
  | submit _ _ _ _ ih => exact ih (hold hfirst (by simp)) (hold hsecond (by simp))
  | resubmit _ _ _ ih => exact ih (hold hfirst (by simp)) (hold hsecond (by simp))
  | report _ _ _ _ _ ih => exact ih (hold hfirst (by simp)) (hold hsecond (by simp))
  | unreport _ _ _ ih => exact ih (hold hfirst (by simp)) (hold hsecond (by simp))

theorem RefusedIn.append (h : RefusedIn maxRetryAttempts log n) (entries : List GatewayEvent) :
    RefusedIn maxRetryAttempts (log ++ entries) n := by
  obtain ⟨request, attempts, waiting, answer, hmem, h⟩ := h
  exact ⟨request, attempts, waiting, answer, List.mem_append_left _ hmem, h⟩

/-- What a life needs stays in the log. -/
theorem Life.Needs.append (h : life.Needs maxRetryAttempts n log) (entries : List GatewayEvent) :
    life.Needs maxRetryAttempts n (log ++ entries) := by
  have hcause : ∀ request, Life.Cause maxRetryAttempts n log request →
      Life.Cause maxRetryAttempts n (log ++ entries) request := by
    rintro request ⟨hmem, hwhy⟩
    exact ⟨List.mem_append_left _ hmem, hwhy.imp_right fun hrefused => hrefused.append entries⟩
  cases life with
  | absent => trivial
  | dequeued => trivial
  | unreadable => exact List.mem_append_left _ h
  | held request => exact List.mem_append_left _ h
  | waiting mapped attempts =>
      obtain ⟨⟨request, hmem, hmap⟩, request', attempts', waiting, answer, hmem', hanswer⟩ := h
      exact ⟨⟨request, List.mem_append_left _ hmem, hmap⟩, request', attempts', waiting, answer,
        List.mem_append_left _ hmem', hanswer⟩
  | accepted =>
      obtain ⟨request, attempts, waiting, answer, hmem, hanswer⟩ := h
      exact ⟨request, attempts, waiting, answer, List.mem_append_left _ hmem, hanswer⟩
  | rejected mapped =>
      obtain ⟨⟨request, hmem, hmap⟩, hrefused⟩ := h
      exact ⟨⟨request, List.mem_append_left _ hmem, hmap⟩, hrefused.append entries⟩
  | reported =>
      obtain ⟨request, response, hwhy, hmem, hresponse⟩ := h
      exact ⟨request, response, hcause request hwhy, List.mem_append_left _ hmem, hresponse⟩
  | unreported =>
      obtain ⟨request, response, hwhy, hmem⟩ := h
      exact ⟨request, response, hcause request hwhy, List.mem_append_left _ hmem⟩

/-- The submission that an answer follows is what the next point of the life needs. -/
theorem Life.needs_answered {request : OrderRequest} {mapped : BrokerOrderRequest}
    (hread : GatewayEvent.snapshot n (some request) ∈ log)
    (hmap : mapOrderRequestToBroker request = some mapped) (attempts : UInt32) (waiting : List Nat)
    (answer : SendResult) :
    (Life.answered maxRetryAttempts mapped attempts answer).Needs maxRetryAttempts n
      (log ++ [.submitted n mapped attempts waiting answer]) := by
  have hsnapshot : ∃ request, GatewayEvent.snapshot n (some request) ∈
      log ++ [.submitted n mapped attempts waiting answer] ∧
        mapOrderRequestToBroker request = some mapped :=
    ⟨request, List.mem_append_left _ hread, hmap⟩
  have hlast : GatewayEvent.submitted n mapped attempts waiting answer ∈
      log ++ [.submitted n mapped attempts waiting answer] :=
    List.mem_append_right _ (List.mem_singleton.2 rfl)
  rcases Life.answered_cases maxRetryAttempts mapped attempts answer with
    ⟨hacc, h⟩ | ⟨hacc, hretry, h⟩ | ⟨hacc, hretry, h⟩
  · rw [h]
    exact ⟨mapped, attempts, waiting, answer, hlast, hacc⟩
  · rw [h]
    exact ⟨hsnapshot, mapped, attempts, waiting, answer, hlast, hacc, hretry⟩
  · rw [h]
    exact ⟨hsnapshot, mapped, attempts, waiting, answer, hlast, hacc, hretry⟩

/-- Why a failed life failed, and under which id it was read. -/
theorem Life.Needs.cause {id : InternalOrderId} (h : life.Needs maxRetryAttempts n log)
    (hfailed : life.FailedAs id) :
    ∃ request, Life.Cause maxRetryAttempts n log request ∧ request.internalOrderId = id := by
  cases life with
  | held request => exact ⟨request, ⟨h, Or.inl hfailed.1⟩, hfailed.2⟩
  | rejected mapped =>
      obtain ⟨⟨request, hmem, hmap⟩, hrefused⟩ := h
      refine ⟨request, ⟨hmem, Or.inr hrefused⟩, ?_⟩
      rw [← (mapOrderRequestToBroker_ids hmap).2.1]
      exact hfailed
  | _ => exact hfailed.elim

/-- Every life has in the log what it needs. -/
theorem Lived.needs (h : Lived maxRetryAttempts n log life) :
    life.Needs maxRetryAttempts n log := by
  induction h with
  | start => trivial
  | aside _ _ ih => exact ih.append _
  | dequeue index _ _ => trivial
  | unreadable _ _ => exact List.mem_append_right _ (List.mem_singleton.2 rfl)
  | read request _ _ => exact List.mem_append_right _ (List.mem_singleton.2 rfl)
  | retake _ ih => exact ih.append _
  | submit waiting answer hmap _ ih => exact Life.needs_answered ih hmap 0 waiting answer
  | resubmit waiting answer _ ih =>
      obtain ⟨⟨request, hmem, hmap⟩, _⟩ := ih
      exact Life.needs_answered hmem hmap _ waiting answer
  | @report log life id response hfailed _ hresponse hstate _ ih =>
      obtain ⟨request, ⟨hmem, hwhy⟩, hrequest⟩ := ih.cause hfailed
      refine ⟨request, response, ⟨List.mem_append_left _ hmem, ?_⟩,
        List.mem_append_right _ (List.mem_singleton.2 rfl), hresponse.trans hrequest.symm, hstate⟩
      exact hwhy.imp_right fun hrefused => hrefused.append _
  | @unreport log life id response hfailed _ _ ih =>
      obtain ⟨request, ⟨hmem, hwhy⟩, _⟩ := ih.cause hfailed
      refine ⟨request, response, ⟨List.mem_append_left _ hmem, ?_⟩,
        List.mem_append_right _ (List.mem_singleton.2 rfl)⟩
      exact hwhy.imp_right fun hrefused => hrefused.append _

end Evidence

end AccountServices
