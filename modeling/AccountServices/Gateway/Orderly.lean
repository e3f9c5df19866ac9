import AccountServices.Gateway.Lives

/-!
# Where the gateway keeps its orders

`Orderly` is the invariant of the loop that ties the log to the retry queue: outside a move every
dequeued order is at a resting point of its life, and the retry queue holds exactly the waiting
ones, each once. Within a move one order is in flight.

Two results follow for every boundary of the loop and every behaviour of the outside: the situations
of a dequeued order (`dequeued_in_one_situation`), and what has become of an order by the time a
later request that cancels it is passed to the adapter (`cancel_follows_submission`).
-/

set_option autoImplicit false

namespace AccountServices

open Foundation

/-! ## The invariant -/

/-- Every submission in the log found the earlier orders at rest, those of `waiting` in the retry
queue. -/
def History (maxRetryAttempts : UInt32) (log : List GatewayEvent) : Prop :=
  ∀ earlier ticket request attempts waiting answer later,
    log = earlier ++ .submitted ticket request attempts waiting answer :: later →
      ∀ n < ticket, ∃ life : Life, Lived maxRetryAttempts n earlier life ∧ life.AtRest ∧
        (life.IsWaiting ↔ n ∈ waiting)

/-- The invariant, with the order that is in flight. -/
structure Orderly (cfg : GatewayConfig) (flying : Option Nat) (l : GatewayLoop) : Prop where
  unborn : ∀ n, l.stats.ordersReceived ≤ n → Lived cfg.maxRetryAttempts n l.log .absent
  flies : ∀ n, flying = some n → n < l.stats.ordersReceived ∧ n ∉ l.waiting
  rests : ∀ n, n < l.stats.ordersReceived → flying ≠ some n →
    ∃ life : Life, Lived cfg.maxRetryAttempts n l.log life ∧ life.AtRest ∧
      (life.IsWaiting ↔ n ∈ l.waiting)
  waits : ∀ item ∈ l.retryQueue, item.ticket < l.stats.ordersReceived ∧
    Lived cfg.maxRetryAttempts item.ticket l.log (.waiting item.request item.attempts)
  distinct : l.waiting.Nodup
  history : History cfg.maxRetryAttempts l.log

theorem History.note {maxRetryAttempts : UInt32} {log : List GatewayEvent} {entry : GatewayEvent}
    (h : History maxRetryAttempts log)
    (hentry : ∀ ticket request attempts waiting answer,
      entry = .submitted ticket request attempts waiting answer →
        ∀ n < ticket, ∃ life : Life, Lived maxRetryAttempts n log life ∧ life.AtRest ∧
          (life.IsWaiting ↔ n ∈ waiting)) :
    History maxRetryAttempts (log ++ [entry]) := by
  intro earlier ticket request attempts waiting answer later hlog
  rcases List.eq_nil_or_concat later with rfl | ⟨later', last, rfl⟩
  · -- The submission is the new entry.
    obtain ⟨rfl, hlast⟩ := List.append_inj' hlog rfl
    exact hentry ticket request attempts waiting answer (List.singleton_inj.1 hlast)
  · -- The submission is an old one.
    rw [List.concat_eq_append, ← List.cons_append, ← List.append_assoc] at hlog
    obtain ⟨hold, _⟩ := List.append_inj' hlog rfl
    exact h earlier ticket request attempts waiting answer later' hold

namespace Orderly

variable {cfg : GatewayConfig} {flying : Option Nat} {l l' : GatewayLoop}

/-- Only the log, the retry queue and the number of orders matter. -/
theorem congr (h : Orderly cfg flying l) (hlog : l'.log = l.log)
    (hqueue : l'.retryQueue = l.retryQueue)
    (hreceived : l'.stats.ordersReceived = l.stats.ordersReceived) : Orderly cfg flying l' := by
  have hwaiting : l'.waiting = l.waiting := by rw [GatewayLoop.waiting, GatewayLoop.waiting, hqueue]
  constructor
  · rw [hlog, hreceived]
    exact h.unborn
  · rw [hreceived, hwaiting]
    exact h.flies
  · rw [hlog, hreceived, hwaiting]
    exact h.rests
  · rw [hlog, hreceived, hqueue]
    exact h.waits
  · rw [hwaiting]
    exact h.distinct
  · rw [hlog]
    exact h.history

/-- An entry about the order in flight, or about none, leaves the other lives where they are. -/
theorem note (h : Orderly cfg flying l) {entry : GatewayEvent}
    (hticket : ∀ n, entry.ticket = some n → flying = some n)
    (hwaiting : ∀ ticket request attempts waiting answer,
      entry = .submitted ticket request attempts waiting answer → waiting = l.waiting) :
    Orderly cfg flying (l.note [entry]) := by
  have haside : ∀ n life, flying ≠ some n → Lived cfg.maxRetryAttempts n l.log life →
      Lived cfg.maxRetryAttempts n (l.note [entry]).log life := by
    intro n life hne hlived
    exact Lived.aside (fun hn => hne (hticket n hn)) hlived
  constructor
  · intro n hn
    refine haside n _ (fun hfly => ?_) (h.unborn n hn)
    exact absurd (h.flies n hfly).1 (Nat.not_lt.2 hn)
  · exact h.flies
  · intro n hn hne
    obtain ⟨life, hlived, hrest, hwait⟩ := h.rests n hn hne
    exact ⟨life, haside n life hne hlived, hrest, hwait⟩
  · intro item hitem
    obtain ⟨hlt, hlived⟩ := h.waits item hitem
    refine ⟨hlt, haside item.ticket _ (fun hfly => ?_) hlived⟩
    exact (h.flies item.ticket hfly).2 (List.mem_map_of_mem hitem)
  · exact h.distinct
  · refine h.history.note fun ticket request attempts waiting answer hentry n hn => ?_
    -- The submitted order is in flight, so every earlier one rests.
    have hfly : flying = some ticket := hticket ticket (by rw [hentry]; rfl)
    have hlt := Nat.lt_trans hn (h.flies ticket hfly).1
    have hne : flying ≠ some n := by
      rw [hfly]
      intro heq
      exact absurd (Option.some.inj heq) (Nat.ne_of_gt hn)
    rw [hwaiting ticket request attempts waiting answer hentry]
    exact h.rests n hlt hne

/-- The order in flight comes to rest outside the retry queue. -/
theorem land {n : Nat} {life : Life} (h : Orderly cfg (some n) l)
    (hlived : Lived cfg.maxRetryAttempts n l.log life) (hrest : life.AtRest)
    (hwait : ¬life.IsWaiting) : Orderly cfg none l := by
  refine { h with flies := ?_, rests := ?_ }
  · intro m hm
    cases hm
  · intro m hm _
    by_cases hmn : m = n
    · subst hmn
      exact ⟨life, hlived, hrest, iff_of_false hwait (h.flies m rfl).2⟩
    · exact h.rests m hm fun heq => hmn (Option.some.inj heq).symm

/-- The order in flight comes to rest in the retry queue. -/
theorem reschedule {item : RetryItem} (h : Orderly cfg (some item.ticket) l)
    (hlived : Lived cfg.maxRetryAttempts item.ticket l.log (.waiting item.request item.attempts)) :
    Orderly cfg none (l.reschedule item) := by
  have hwaiting : (l.reschedule item).waiting = l.waiting ++ [item.ticket] := by
    simp only [GatewayLoop.waiting, GatewayLoop.reschedule, List.map_append, List.map_cons,
      List.map_nil]
  obtain ⟨hlt, hnotin⟩ := h.flies item.ticket rfl
  constructor
  -- the unborn are not touched
  · exact h.unborn
  -- nobody is in flight any more
  · intro m hm
    cases hm
  -- the rescheduled order waits, the others rest as before
  · intro m hm _
    rw [hwaiting]
    by_cases hmn : m = item.ticket
    · subst hmn
      refine ⟨_, hlived, trivial, iff_of_true trivial ?_⟩
      exact List.mem_append_right _ (List.mem_singleton.2 rfl)
    · obtain ⟨life, hl, hrest, hwait⟩ := h.rests m hm fun heq => hmn (Option.some.inj heq).symm
      refine ⟨life, hl, hrest, hwait.trans ?_⟩
      rw [List.mem_append, List.mem_singleton]
      exact ⟨Or.inl, fun hor => hor.resolve_right hmn⟩
  -- the new item carries the life that was given
  · intro item' hitem'
    rcases List.mem_append.1 hitem' with hold | hnew
    · exact h.waits item' hold
    · rw [List.mem_singleton.1 hnew]
      exact ⟨hlt, hlived⟩
  -- it did not wait before
  · rw [hwaiting, List.nodup_append]
    refine ⟨h.distinct, List.nodup_singleton _, ?_⟩
    intro m hm m' hm' heq
    rw [List.mem_singleton.1 hm'] at heq
    exact hnotin (heq ▸ hm)
  · exact h.history

/-- The front of the retry queue takes off. -/
theorem retake {item : RetryItem} {rest : List RetryItem} (h : Orderly cfg none l)
    (hqueue : l.retryQueue = item :: rest) :
    Orderly cfg (some item.ticket) (l.retake item.ticket rest) ∧
      Lived cfg.maxRetryAttempts item.ticket (l.retake item.ticket rest).log
        (.waiting item.request item.attempts) := by
  have hwaiting : l.waiting = item.ticket :: rest.map RetryItem.ticket := by
    rw [GatewayLoop.waiting, hqueue, List.map_cons]
  have hdistinct := h.distinct
  rw [hwaiting, List.nodup_cons] at hdistinct
  obtain ⟨hlt, hlived⟩ := h.waits item (hqueue ▸ List.mem_cons_self)
  -- First the item leaves the queue, then its entry is noted.
  have hflight : Orderly cfg (some item.ticket) { l with retryQueue := rest } := by
    refine { unborn := h.unborn, flies := ?_, rests := ?_, waits := ?_, distinct := hdistinct.2,
             history := h.history }
    · intro n hn
      rw [← Option.some.inj hn]
      exact ⟨hlt, hdistinct.1⟩
    · intro n hn hne
      obtain ⟨life, hl, hrest, hwait⟩ := h.rests n hn (by simp)
      refine ⟨life, hl, hrest, hwait.trans ?_⟩
      rw [hwaiting, List.mem_cons]
      exact ⟨fun hor => hor.resolve_left fun heq => hne (heq ▸ rfl), Or.inr⟩
    · intro item' hitem'
      exact h.waits item' (hqueue ▸ List.mem_cons_of_mem item hitem')
  refine ⟨?_, Lived.retake hlived⟩
  have hnote : Orderly cfg (some item.ticket)
      (({ l with retryQueue := rest } : GatewayLoop).note [.retaken item.ticket]) := by
    refine hflight.note (fun n hn => hn) ?_
    intro _ _ _ _ _ hentry
    cases hentry
  exact hnote.congr rfl rfl rfl

/-- A postponed item goes to the end of the retry queue. -/
theorem postpone {item : RetryItem} {rest : List RetryItem} (h : Orderly cfg none l)
    (hqueue : l.retryQueue = item :: rest) :
    Orderly cfg none (l.retake item.ticket (rest ++ [item])) := by
  obtain ⟨hflight, hlived⟩ := h.retake hqueue
  exact (hflight.reschedule hlived).congr rfl rfl rfl

/-- A dequeued index takes off. -/
theorem dequeue (h : Orderly cfg none l) (index : OrderIndex) (now : TimestampNs) :
    Orderly cfg (some l.stats.ordersReceived)
        ((l.note [.dequeued l.stats.ordersReceived index]).receive now) ∧
      Lived cfg.maxRetryAttempts l.stats.ordersReceived
        ((l.note [.dequeued l.stats.ordersReceived index]).receive now).log .dequeued := by
  have haside : ∀ n life, n ≠ l.stats.ordersReceived → Lived cfg.maxRetryAttempts n l.log life →
      Lived cfg.maxRetryAttempts n (l.log ++ [.dequeued l.stats.ordersReceived index]) life := by
    intro n life hne hlived
    exact Lived.aside (fun hn => hne (Option.some.inj hn).symm) hlived
  -- The tickets that wait are older than the new one.
  have hold : ∀ n ∈ l.waiting, n < l.stats.ordersReceived := by
    intro n hn
    obtain ⟨item, hitem, rfl⟩ := List.mem_map.1 hn
    exact (h.waits item hitem).1
  refine ⟨?_, Lived.dequeue index (h.unborn _ (Nat.le_refl _))⟩
  constructor
  -- later tickets are not born yet
  · intro n hn
    have hlt : l.stats.ordersReceived < n := hn
    exact haside n _ (Nat.ne_of_gt hlt) (h.unborn n (Nat.le_of_lt hlt))
  -- the new order is the one in flight
  · intro n hn
    rw [← Option.some.inj hn]
    exact ⟨Nat.lt_succ_self _, fun hmem => Nat.lt_irrefl _ (hold _ hmem)⟩
  -- the older ones rest as before
  · intro n hn hne
    have hne' : n ≠ l.stats.ordersReceived := fun heq => hne (heq ▸ rfl)
    have hlt : n < l.stats.ordersReceived := Nat.lt_of_le_of_ne (Nat.le_of_lt_succ hn) hne'
    obtain ⟨life, hlived, hrest, hwait⟩ := h.rests n hlt (by simp)
    exact ⟨life, haside n life hne' hlived, hrest, hwait⟩
  · intro item hitem
    obtain ⟨hlt, hlived⟩ := h.waits item hitem
    exact ⟨Nat.lt_succ_of_lt hlt, haside item.ticket _ (Nat.ne_of_lt hlt) hlived⟩
  · exact h.distinct
  · refine h.history.note fun _ _ _ _ _ hentry => ?_
    cases hentry

/-! ## The moves keep it -/

/-- A failed order comes to rest when its failure was reported, could not be, or cannot be named. -/
theorem emitted {n : Nat} {id : InternalOrderId} {life : Life} (h : Orderly cfg (some n) l)
    (hlived : Lived cfg.maxRetryAttempts n l.log life) (hfailed : life.FailedAs id)
    (hunnamed : id = 0 → life.AtRest) (hemitted : Emitted n id l l') : Orderly cfg none l' := by
  cases hemitted with
  | unnamed hid =>
      refine h.land hlived (hunnamed hid) ?_
      intro hwait
      cases life with
      | waiting _ _ => exact hfailed.elim
      | _ => exact hwait.elim
  | @reported response hid hresponse hstate =>
      have hnote : Orderly cfg (some n) (l.note [.reported n response]) := by
        refine h.note (fun m hm => hm) ?_
        intro _ _ _ _ _ hentry
        cases hentry
      have hlast := Lived.report hfailed hid hresponse hstate hlived
      exact (hnote.land hlast trivial fun hwait => hwait.elim).congr rfl rfl rfl
  | @unreported response hid hresponse hstate =>
      have hnote : Orderly cfg (some n) (l.note [.unreported n response]) := by
        refine h.note (fun m hm => hm) ?_
        intro _ _ _ _ _ hentry
        cases hentry
      have hlast : Lived cfg.maxRetryAttempts n (l.log ++ [.unreported n response]) .unreported :=
        Lived.unreport hfailed hid hlived
      exact (hnote.land hlast trivial fun hwait => hwait.elim).congr rfl rfl rfl

/-- A submission brings the order in flight to rest. -/
theorem submitted {n : Nat} {request : BrokerOrderRequest} {attempts : UInt32}
    (h : Orderly cfg (some n) l) (hid : request.internalOrderId ≠ 0)
    (hlived : ∀ waiting answer, Lived cfg.maxRetryAttempts n
      (l.log ++ [.submitted n request attempts waiting answer])
      (Life.answered cfg.maxRetryAttempts request attempts answer))
    (hsubmitted : Submitted cfg n request attempts l l') : Orderly cfg none l' := by
  obtain ⟨answer, hanswered⟩ := hsubmitted
  have hlife := hlived l.waiting answer
  have hnote : Orderly cfg (some n) (l.note [.submitted n request attempts l.waiting answer]) := by
    refine h.note (fun m hm => hm) ?_
    intro _ _ _ _ _ hentry
    cases hentry
    rfl
  -- Accepted, to be retried, or failed: the answer of the adapter decides, and the loop goes the
  -- same way.
  rcases Life.answered_cases cfg.maxRetryAttempts request attempts answer with
    ⟨hacc, hlast⟩ | ⟨hacc, hretry, hlast⟩ | ⟨hacc, hretry, hlast⟩
  · rw [hlast] at hlife
    cases hanswered with
    | accepted _ => exact (hnote.land hlife trivial fun hwait => hwait.elim).congr rfl rfl rfl
    | rescheduled _ hacc' _ _ => exact absurd (hacc.symm.trans hacc') (by decide)
    | failed hacc' _ _ => exact absurd (hacc.symm.trans hacc') (by decide)
  · rw [hlast] at hlife
    cases hanswered with
    | accepted hacc' => exact absurd (hacc.symm.trans hacc') (by decide)
    | rescheduled time _ _ _ =>
        refine Orderly.reschedule ?_ hlife
        exact hnote
    | failed _ hretry' _ => exact absurd hretry hretry'
  · rw [hlast] at hlife
    cases hanswered with
    | accepted hacc' => exact absurd (hacc.symm.trans hacc') (by decide)
    | rescheduled _ _ hretry' hlt => exact absurd ⟨hretry', hlt⟩ hretry
    | failed _ _ hemitted =>
        have hfail : Orderly cfg (some n)
            ((l.note [.submitted n request attempts l.waiting answer]).fail attempts) :=
          hnote.congr rfl rfl rfl
        exact hfail.emitted hlife rfl (fun hzero => absurd hzero hid) hemitted

/-- A dequeued index comes to rest. -/
theorem taken {n : Nat} (h : Orderly cfg (some n) l)
    (hlived : Lived cfg.maxRetryAttempts n l.log .dequeued) (htaken : Taken cfg n l l') :
    Orderly cfg none l' := by
  have hnote : ∀ request, Orderly cfg (some n) (l.note [.snapshot n request]) := by
    intro request
    refine h.note (fun m hm => hm) ?_
    intro _ _ _ _ _ hentry
    cases hentry
  cases htaken with
  | unreadable error =>
      have hlast := Lived.unreadable hlived
      exact ((hnote none).land hlast trivial fun hwait => hwait.elim).congr rfl rfl rfl
  | @unmapped request _ hmap hemitted =>
      have hheld : Lived cfg.maxRetryAttempts n (l.note [.snapshot n (some request)]).log
          (.held request) := Lived.read request hlived
      have hfail : Orderly cfg (some n) ((l.note [.snapshot n (some request)]).fail 0) :=
        (hnote (some request)).congr rfl rfl rfl
      exact hfail.emitted hheld ⟨hmap, rfl⟩ (fun hid => ⟨hmap, hid⟩) hemitted
  | @submitted request mapped _ hmap hsubmitted =>
      have hheld : Lived cfg.maxRetryAttempts n (l.note [.snapshot n (some request)]).log
          (.held request) := Lived.read request hlived
      obtain ⟨hid, hmapped, _⟩ := mapOrderRequestToBroker_ids hmap
      refine (hnote (some request)).submitted ?_ ?_ hsubmitted
      · rw [hmapped]
        exact hid
      · intro waiting answer
        exact Lived.submit waiting answer hmap hheld

/-- The delivery of a batch is about no order of the queue. -/
theorem delivery {MayRefuse : Nat → Prop} {events : List BrokerEvent} (h : Orderly cfg none l)
    (hdelivery : Delivery MayRefuse events l l') : Orderly cfg none l' := by
  have hnote : ∀ l₁ : GatewayLoop, Orderly cfg none l₁ → ∀ entry : GatewayEvent,
      entry.ticket = none → Orderly cfg none (l₁.note [entry]) := by
    intro l₁ h₁ entry hentry
    refine h₁.note ?_ ?_
    · intro n hn
      rw [hentry] at hn
      exact hn
    · rintro _ _ _ _ _ rfl
      cases hentry
  induction hdelivery with
  | nil l => exact h
  | unmapped _ _ ih => exact ih ((hnote _ h _ rfl).congr rfl rfl rfl)
  | pushed _ _ ih => exact ih ((hnote _ h _ rfl).congr rfl rfl rfl)
  | @refused event _ l₁ error _ =>
      exact (hnote l₁ h (.dropped event) rfl).congr rfl rfl rfl

theorem move {MayRefuse : Nat → Prop} (hmove : Move cfg MayRefuse l l') (h : Orderly cfg none l) :
    Orderly cfg none l' := by
  cases hmove with
  | postpone hqueue => exact h.postpone hqueue
  | retry hqueue hsubmitted =>
      obtain ⟨hflight, hlived⟩ := h.retake hqueue
      obtain ⟨⟨request, _, hmap⟩, _⟩ := hlived.needs
      obtain ⟨hid, hmapped, _⟩ := mapOrderRequestToBroker_ids hmap
      refine hflight.submitted ?_ ?_ hsubmitted
      · rw [hmapped]
        exact hid
      · intro waiting answer
        exact Lived.resubmit waiting answer hlived
  | order index now htaken =>
      obtain ⟨hflight, hlived⟩ := h.dequeue index now
      exact hflight.taken hlived htaken
  | batch events hdelivery =>
      have hpoll : Orderly cfg none (l.note [.polled events]) := by
        refine h.note ?_ ?_
        · intro n hn
          cases hn
        · intro _ _ _ _ _ hentry
          cases hentry
      have hcounted : Orderly cfg none (l.poll events) := hpoll.congr rfl rfl rfl
      exact hcounted.delivery hdelivery
  | housekeeping stats hcounts => exact h.congr rfl rfl (congrArg Prod.fst hcounts)

theorem init (cfg : GatewayConfig) : Orderly cfg none {} := by
  constructor
  · intro n _
    exact Lived.start
  · intro n hn
    cases hn
  · intro n hn
    exact absurd hn (Nat.not_lt_zero n)
  · intro item hitem
    cases hitem
  · exact List.nodup_nil
  · intro earlier _ _ _ _ _ later hlog
    cases earlier with
    | nil => cases hlog
    | cons _ _ => cases hlog

end Orderly

theorem GatewayWorld.Boundary.orderly {α : Type} {cfg : GatewayConfig} {adapter : BrokerAdapter α}
    {Found : GatewayAction → Outside α → Prop} {w : GatewayWorld α}
    (hw : w.Boundary cfg adapter Found) : Orderly cfg none w.loop :=
  hw.of_moves (Orderly.init cfg) fun _ _ hmove h => Orderly.move hmove h

/-! ## The situations of a dequeued order -/

/-- Where a dequeued order can be found. The last three are failures without a report: the slot
could not be read, the request has no id, or the response queue refused every attempt. -/
inductive Situation where
  | accepted | waiting | reported | unreadable | unnamed | refused
  deriving DecidableEq, Repr

/-- The order with ticket `n` is in this situation. -/
def Situation.Holds (l : GatewayLoop) (n : Nat) : Situation → Prop
  | .accepted => AcceptedIn l.log n
  | .waiting => n ∈ l.waiting
  | .reported =>
      ∃ request response, .snapshot n (some request) ∈ l.log ∧ .reported n response ∈ l.log ∧
        response.internalOrderId = request.internalOrderId ∧ response.newState = .traderError
  | .unreadable => .snapshot n none ∈ l.log
  | .unnamed => ∃ request, .snapshot n (some request) ∈ l.log ∧ request.internalOrderId = 0
  | .refused => ∃ response, .unreported n response ∈ l.log

/-- The situation that a resting life is in. -/
def Life.situation : Life → Situation
  | .accepted => .accepted
  | .waiting _ _ => .waiting
  | .reported => .reported
  | .unreadable => .unreadable
  | .unreported => .refused
  | .held _ | .absent | .dequeued | .rejected _ => .unnamed

section Situations

variable {maxRetryAttempts : UInt32} {n : Nat} {l : GatewayLoop} {life : Life}

/-- A resting life is in its situation. -/
theorem Situation.holds_of_lived (hlived : Lived maxRetryAttempts n l.log life)
    (hrest : life.AtRest) (hwait : life.IsWaiting ↔ n ∈ l.waiting) : life.situation.Holds l n := by
  have hneeds := hlived.needs
  cases life with
  | accepted => exact hneeds
  | waiting _ _ => exact hwait.1 trivial
  | reported =>
      obtain ⟨request, response, hcause, hmem, hresponse⟩ := hneeds
      exact ⟨request, response, hcause.1, hmem, hresponse⟩
  | unreadable => exact hneeds
  | unreported =>
      obtain ⟨_, response, _, hmem⟩ := hneeds
      exact ⟨response, hmem⟩
  | held request => exact ⟨request, hneeds, hrest.2⟩
  | absent => exact hrest.elim
  | dequeued => exact hrest.elim
  | rejected _ => exact hrest.elim

/-- A resting life is in no other situation. -/
theorem Situation.eq_of_holds (hlived : Lived maxRetryAttempts n l.log life)
    (hwait : life.IsWaiting ↔ n ∈ l.waiting) {situation : Situation}
    (h : situation.Holds l n) : situation = life.situation := by
  -- Each situation is read off an entry of the log, or off the retry queue, and only one life
  -- allows it.
  cases situation with
  | accepted =>
      obtain ⟨_, _, _, _, hmem, hacc⟩ := h
      have hlife : life = .accepted := (hlived.allows hmem rfl).1 hacc
      rw [hlife]
      rfl
  | waiting =>
      have hlife := hwait.2 h
      cases life with
      | waiting _ _ => rfl
      | _ => exact hlife.elim
  | reported =>
      obtain ⟨_, _, _, hmem, _⟩ := h
      have hlife : life = .reported := hlived.allows hmem rfl
      rw [hlife]
      rfl
  | unreadable =>
      have hlife : life = .unreadable := hlived.allows h rfl
      rw [hlife]
      rfl
  | unnamed =>
      -- The id was missing, so the request could not be mapped, and no life with a mapped request
      -- is left.
      obtain ⟨request, hmem, hid⟩ := h
      have hread : life.ReadAs request := hlived.allows hmem rfl
      have hmap : mapOrderRequestToBroker request = none := by
        cases hmap : mapOrderRequestToBroker request with
        | none => rfl
        | some mapped => exact absurd hid (mapOrderRequestToBroker_ids hmap).1
      cases life with
      | held _ => rfl
      | absent => rfl
      | dequeued => rfl
      | rejected _ => rfl
      | unreadable => exact hread.elim
      | waiting _ _ => exact absurd (hmap.symm.trans hread) (by simp)
      | accepted => exact absurd hmap hread
      | reported => exact absurd hid hread
      | unreported => exact absurd hid hread
  | refused =>
      obtain ⟨_, hmem⟩ := h
      have hlife : life = .unreported := hlived.allows hmem rfl
      rw [hlife]
      rfl

end Situations

/-- A ticket in the log is one of the orders received. -/
theorem Orderly.ticket_lt {cfg : GatewayConfig} {flying : Option Nat} {l : GatewayLoop}
    (h : Orderly cfg flying l) {n : Nat} {index : OrderIndex} (hmem : .dequeued n index ∈ l.log) :
    n < l.stats.ordersReceived := by
  rcases Nat.lt_or_ge n l.stats.ordersReceived with hlt | hge
  · exact hlt
  · exact absurd rfl ((h.unborn n hge).allows hmem rfl)

/-- An adapter that rejects everything for good. -/
def rejectingAdapter : BrokerAdapter Unit where
  submit _ _ := ({ errorCode := 1 }, ())
  pollEvents _ _ := ([], ())
  length_pollEvents_le _ n := Nat.zero_le n

/-- The loop after one round with a rejected order, while nobody reads the full response queue. -/
def stalledRound : GatewayWorld Unit :=
  GatewayWorld.rounds {} rejectingAdapter
    { Outside.ofClients [.ofClient 7 .buy 100 10] () with responseQueue := SpscQueue.filled {} } 1

/-- The failure of the order could not be reported. -/
theorem log_stalledRound :
    ∃ (order : BrokerOrderRequest) (rejected : SendResult) (response : TradeResponse),
      stalledRound.loop.log =
        [.dequeued 0 0, .snapshot 0 (some (.ofClient 7 .buy 100 10)),
          .submitted 0 order 0 [] rejected, .unreported 0 response, .polled []] ∧
        rejected.accepted = false :=
  ⟨_, _, _, rfl, rfl⟩

/-- The request asks to cancel the order, which is a new one. -/
def Cancels (cancel : BrokerOrderRequest) (order : OrderRequest) : Prop :=
  cancel.type = .cancel ∧ order.orderType = .new ∧
    cancel.origInternalOrderId = order.internalOrderId

/-- The order had failed: it could not be mapped, or a submission of it was refused for good. -/
def FailedIn (maxRetryAttempts : UInt32) (log : List GatewayEvent) (n : Nat)
    (order : OrderRequest) : Prop :=
  mapOrderRequestToBroker order = none ∨ RefusedIn maxRetryAttempts log n

/-- When a request is passed to the adapter, an order that was dequeued before it was accepted, had
failed, or waits in the retry queue after a submission that the adapter rejected for the moment. The
gateway treats all requests alike, so this holds of any two of them; it says of a cancel what has
become of the order that the cancel names. -/
theorem cancel_follows_submission {α : Type} {cfg : GatewayConfig} {adapter : BrokerAdapter α}
    {w : GatewayWorld α} (hw : w.Boundary cfg adapter anywhere) {earlier later : List GatewayEvent}
    {ticket : Nat} {cancel : BrokerOrderRequest} {attempts : UInt32} {waiting : List Nat}
    {answer : SendResult}
    (hlog : w.loop.log = earlier ++ .submitted ticket cancel attempts waiting answer :: later)
    {n : Nat} (hn : n < ticket) {order : OrderRequest}
    (horder : .snapshot n (some order) ∈ w.loop.log) :
    (n ∉ waiting ∧ (AcceptedIn earlier n ∨ FailedIn cfg.maxRetryAttempts earlier n order)) ∨
      (n ∈ waiting ∧ RetriedIn cfg.maxRetryAttempts earlier n) := by
  have horderly := hw.orderly
  obtain ⟨life, hlived, hrest, hwait⟩ :=
    horderly.history earlier ticket cancel attempts waiting answer later hlog n hn
  -- What was read of the order is what the whole log says was read.
  have hread : ∀ read, .snapshot n read ∈ earlier → read = some order := by
    intro read hmem
    have hmem' : .snapshot n read ∈ w.loop.log := by
      rw [hlog]
      exact List.mem_append_left _ hmem
    rcases Nat.lt_or_ge n w.loop.stats.ordersReceived with hlt | hge
    · obtain ⟨_, hwhole, _⟩ := horderly.rests n hlt (by simp)
      exact hwhole.snapshot_unique hmem' horder
    · exact (horderly.unborn n hge).snapshot_unique hmem' horder
  have hcause : ∀ request, Life.Cause cfg.maxRetryAttempts n earlier request →
      FailedIn cfg.maxRetryAttempts earlier n order := by
    intro request hcause
    cases hread (some request) hcause.1
    exact hcause.2
  have hneeds := hlived.needs
  cases life with
  | absent => exact hrest.elim
  | dequeued => exact hrest.elim
  | rejected _ => exact hrest.elim
  | unreadable => cases hread none hneeds
  | waiting _ _ => exact Or.inr ⟨hwait.1 trivial, hneeds.2⟩
  | accepted => exact Or.inl ⟨fun hmem => hwait.2 hmem, Or.inl hneeds⟩
  | held request =>
      cases hread (some request) hneeds
      exact Or.inl ⟨fun hmem => hwait.2 hmem, Or.inr (Or.inl hrest.1)⟩
  | reported =>
      obtain ⟨request, _, hwhy, _⟩ := hneeds
      exact Or.inl ⟨fun hmem => hwait.2 hmem, Or.inr (hcause request hwhy)⟩
  | unreported =>
      obtain ⟨request, _, hwhy, _⟩ := hneeds
      exact Or.inl ⟨fun hmem => hwait.2 hmem, Or.inr (hcause request hwhy)⟩

/-- An adapter that is busy with orders and takes cancels. -/
def busyAdapter : BrokerAdapter Unit where
  submit _ request :=
    (if request.type = .new then { retryable := true, errorCode := 1 } else
      { accepted := true }, ())
  pollEvents _ _ := ([], ())
  length_pollEvents_le _ n := Nat.zero_le n

/-- The loop after one round with an order and its cancel in the queue. -/
def busyRound : GatewayWorld Unit :=
  GatewayWorld.rounds {} busyAdapter (Outside.ofClients [.ofClient 7 .buy 100 10, .ofCancel 7] ()) 1

/-- The order is rejected for the moment, then its cancel is accepted. -/
theorem log_busyRound :
    ∃ order cancel : BrokerOrderRequest, ∃ rejected : SendResult,
      busyRound.loop.log =
        [.dequeued 0 0, .snapshot 0 (some (.ofClient 7 .buy 100 10)),
            .submitted 0 order 0 [] rejected, .dequeued 1 1, .snapshot 1 (some (.ofCancel 7))] ++
          .submitted 1 cancel 0 [0] { accepted := true } :: [.polled []] ∧
        cancel.type = .cancel ∧ cancel.origInternalOrderId = 7 ∧ rejected.accepted = false :=
  ⟨_, _, _, rfl, rfl, rfl, rfl⟩

theorem cancel_follows_retryable_rejection :
    ∃ earlier later cancel,
      busyRound.loop.log = earlier ++ .submitted 1 cancel 0 [0] { accepted := true } :: later ∧
        Cancels cancel (.ofClient 7 .buy 100 10) ∧ RetriedIn 3 earlier 0 := by
  obtain ⟨order, cancel, rejected, hlog, htype, horig, _⟩ := log_busyRound
  have hboundary : busyRound.Boundary {} busyAdapter anywhere :=
    GatewayWorld.boundary_rounds _ _ _ 1
  have horder : GatewayEvent.snapshot 0 (some (.ofClient 7 .buy 100 10)) ∈ busyRound.loop.log := by
    rw [hlog]
    simp
  refine ⟨_, _, cancel, hlog, ⟨htype, rfl, horig⟩, ?_⟩
  rcases cancel_follows_submission hboundary hlog Nat.zero_lt_one horder with
    ⟨hnot, _⟩ | ⟨_, hretried⟩
  · exact absurd (List.mem_singleton.2 rfl) hnot
  · exact hretried

/-- The cancel is passed to the adapter, and accepted, while the order that it names waits in the
retry queue: the order was dequeued first, was never accepted and has not failed. -/
theorem cancel_overtakes_waiting_order :
    busyRound.Boundary {} busyAdapter anywhere ∧
      ∃ earlier later cancel,
        busyRound.loop.log = earlier ++ .submitted 1 cancel 0 [0] { accepted := true } :: later ∧
          GatewayEvent.snapshot 0 (some (.ofClient 7 .buy 100 10)) ∈ earlier ∧
          Cancels cancel (.ofClient 7 .buy 100 10) ∧ ¬AcceptedIn busyRound.loop.log 0 ∧
          busyRound.loop.stats.ordersFailed = 0 ∧ busyRound.loop.waiting = [0] := by
  obtain ⟨order, cancel, rejected, hlog, htype, horig, hrejected⟩ := log_busyRound
  refine ⟨GatewayWorld.boundary_rounds _ _ _ 1, _, _, cancel, hlog, by simp,
    ⟨htype, rfl, horig⟩, ?_, by decide, by decide⟩
  rintro ⟨request, attempts, waiting, answer, hmem, hacc⟩
  rw [hlog] at hmem
  simp only [List.cons_append, List.nil_append, List.mem_cons, reduceCtorEq,
    GatewayEvent.submitted.injEq, List.not_mem_nil, or_false, false_or] at hmem
  rcases hmem with ⟨_, _, _, _, rfl⟩ | ⟨hticket, _⟩
  · exact absurd (hrejected.symm.trans hacc) (by decide)
  · exact absurd hticket (by decide)

end AccountServices
