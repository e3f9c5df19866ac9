import Mathlib.Data.List.Induction
import AccountServices.Gateway.SimBroker

/-!
# The orders of the simulated broker

A run is any sequence of `submit` and `poll_events` calls on an adapter that was just set up. Its
events are polled in the order in which they were generated. When no request id is used twice, the
events of a new order begin with its acceptance, and a finished order accounts for its whole volume
by what it traded and what was cancelled (`simulated_orders`). A cancel that finds no active order
speaks of itself only, which is also the order it names when it names itself.
-/

set_option autoImplicit false

namespace AccountServices

open Foundation

/-- The events of one order. -/
def eventsFor (orderId : UInt32) (events : List BrokerEvent) : List BrokerEvent :=
  events.filter fun e => e.internalOrderId = orderId

theorem eventsFor_append (orderId : UInt32) (events more : List BrokerEvent) :
    eventsFor orderId (events ++ more) = eventsFor orderId events ++ eventsFor orderId more :=
  List.filter_append _ _

theorem eventsFor_eq_nil {orderId : UInt32} {events : List BrokerEvent}
    (h : ∀ e ∈ events, e.internalOrderId ≠ orderId) : eventsFor orderId events = [] := by
  rw [eventsFor, List.filter_eq_nil_iff]
  intro e he heq
  exact h e he (of_decide_eq_true heq)

theorem eventsFor_eq_self {orderId : UInt32} {events : List BrokerEvent}
    (h : ∀ e ∈ events, e.internalOrderId = orderId) : eventsFor orderId events = events := by
  rw [eventsFor, List.filter_eq_self]
  intro e he
  exact decide_eq_true (h e he)

/-- What the events of a new order look like: they begin with its acceptance, at most one of them
says that it is finished and it is the last one, and then the traded and the cancelled volume add up
to that of the order. -/
structure OrderProtocol (volume : UInt64) (events : List BrokerEvent) : Prop where
  first : events.head?.map BrokerEvent.kind = some .brokerAccepted
  once : events.countP (fun e => e.kind = .finished) ≤ 1
  last : ∀ before e after, events = before ++ e :: after → e.kind = .finished → after = []
  conserved : ∀ e ∈ events, e.kind = .finished →
    (events.map fun t => t.volumeTraded.toNat).sum + e.cancelledVolume.toNat = volume.toNat

namespace SimBrokerAdapter

variable {a a' : SimBrokerAdapter} {request : BrokerOrderRequest} {now : TimestampNs}
  {result : SendResult} {events : List BrokerEvent}

/-- What one `submit` does: its answer, the adapter after it, and the events that it appends. -/
inductive Submits (a : SimBrokerAdapter) (request : BrokerOrderRequest) (now : TimestampNs) :
    SendResult → SimBrokerAdapter → List BrokerEvent → Prop
  | refused {result : SendResult} (hrefused : result.accepted = false) :
      Submits a request now result a []
  | filled {a' : SimBrokerAdapter} (number : UInt32) (htype : request.type = .new)
      (hactive : ∀ x, a'.activeOrders.lookup x =
        if x = request.internalOrderId then none else a.activeOrders.lookup x) :
      Submits a request now .okResult a'
        [makeBaseEvent .brokerAccepted request number now, makeTradeEvent request number now,
          makeNaturalFinishEvent request number now]
  | opened {a' : SimBrokerAdapter} {active : ActiveOrderState} (number : UInt32)
      (htype : request.type = .new)
      (hvolume : active.entrustVolume = request.volume) (huntraded : active.tradedVolume = 0)
      (hactive : ∀ x, a'.activeOrders.lookup x =
        if x = request.internalOrderId then some active else a.activeOrders.lookup x) :
      Submits a request now .okResult a' [makeBaseEvent .brokerAccepted request number now]
  | cancelled {a' : SimBrokerAdapter} {active : ActiveOrderState} (number : UInt32)
      (htype : request.type = .cancel)
      (hfound : a.activeOrders.lookup request.origInternalOrderId = some active)
      (hactive : ∀ x, a'.activeOrders.lookup x =
        if x = request.origInternalOrderId then none else a.activeOrders.lookup x) :
      Submits a request now .okResult a'
        [makeBaseEvent .brokerAccepted request number now, makeCancelFinishEvent request active now]
  | idle {a' : SimBrokerAdapter} (number : UInt32) (htype : request.type = .cancel)
      (hnone : a.activeOrders.lookup request.origInternalOrderId = none)
      (hactive : a'.activeOrders = a.activeOrders) :
      Submits a request now .okResult a'
        [makeBaseEvent .brokerAccepted request number now,
          { makeBaseEvent .finished request number now with cancelledVolume := 0 }]

/-- The events that a `submit` appends to the queue. -/
def emitted (a : SimBrokerAdapter) (request : BrokerOrderRequest) (now : TimestampNs) :
    List BrokerEvent :=
  (a.submit request now).2.pendingEvents.drop a.pendingEvents.length

theorem submits_submitNew (a : SimBrokerAdapter) (htype : request.type = .new) (now : TimestampNs) :
    ∃ events, (a.submitNew request now).2.pendingEvents = a.pendingEvents ++ events ∧
      Submits a request now (a.submitNew request now).1 (a.submitNew request now).2 events := by
  rw [submitNew]
  split
  · exact ⟨[], (List.append_nil _).symm, .refused rfl⟩
  simp only
  split
  · refine ⟨_, ?_, .filled a.nextBrokerOrderId htype ?_⟩
    · simp only [List.append_assoc, List.cons_append, List.nil_append]
    · intro x
      rw [Map.lookup_erase_eq, Map.lookup_insert_eq, Map.lookup_insert_eq]
      split <;> rfl
  · refine ⟨_, rfl, .opened a.nextBrokerOrderId htype ?_ ?_ fun x => Map.lookup_insert_eq _ _ _ _⟩
    · rfl
    · rfl

theorem submits_submitCancel (a : SimBrokerAdapter) (htype : request.type = .cancel)
    (now : TimestampNs) :
    ∃ events, (a.submitCancel request now).2.pendingEvents = a.pendingEvents ++ events ∧
      Submits a request now (a.submitCancel request now).1
        (a.submitCancel request now).2 events := by
  rw [submitCancel]
  split
  · exact ⟨[], (List.append_nil _).symm, .refused rfl⟩
  simp only
  split
  next active hfound =>
    refine ⟨_, ?_, .cancelled a.nextBrokerOrderId htype hfound ?_⟩
    · simp only [List.append_assoc, List.cons_append, List.nil_append]
    · intro x
      exact Map.lookup_erase_eq _ _ _
  next hnone =>
    refine ⟨_, ?_, .idle a.nextBrokerOrderId htype hnone rfl⟩
    simp only [List.append_assoc, List.cons_append, List.nil_append]

/-- Every `submit` is one of these cases. -/
theorem submits_submit (a : SimBrokerAdapter) (request : BrokerOrderRequest) (now : TimestampNs) :
    (a.submit request now).2.pendingEvents = a.pendingEvents ++ a.emitted request now ∧
      Submits a request now (a.submit request now).1 (a.submit request now).2
        (a.emitted request now) := by
  have hcases : ∃ events, (a.submit request now).2.pendingEvents = a.pendingEvents ++ events ∧
      Submits a request now (a.submit request now).1 (a.submit request now).2 events := by
    rw [submit]
    split
    · exact ⟨[], (List.append_nil _).symm, .refused rfl⟩
    split
    · exact ⟨[], (List.append_nil _).symm, .refused rfl⟩
    split
    next htype => exact submits_submitNew a htype now
    next htype => exact submits_submitCancel a htype now
    · exact ⟨[], (List.append_nil _).symm, .refused rfl⟩
  obtain ⟨events, hpending, hsubmits⟩ := hcases
  have hemitted : a.emitted request now = events := by
    rw [emitted, hpending, List.drop_left]
  rw [hemitted]
  exact ⟨hpending, hsubmits⟩

end SimBrokerAdapter

/-! ## Runs -/

/-- A call on the adapter. A poll without a buffer is one for no event. -/
inductive SimCall where
  | submit (request : BrokerOrderRequest) (now : TimestampNs)
  | poll (maxEvents : Nat)

/-- The adapter in a run, with the requests that it accepted, the events that it generated and those
that were polled. -/
structure SimRun where
  adapter : SimBrokerAdapter
  accepted : List BrokerOrderRequest := []
  generated : List BrokerEvent := []
  polled : List BrokerEvent := []

def SimRun.after (s : SimRun) : SimCall → SimRun
  | .submit request now =>
      { s with
        adapter := (s.adapter.submit request now).2
        accepted := s.accepted ++ if (s.adapter.submit request now).1.accepted then
          [request] else []
        generated := s.generated ++ s.adapter.emitted request now }
  | .poll maxEvents =>
      { s with
        adapter := (s.adapter.pollEvents maxEvents).2
        polled := s.polled ++ (s.adapter.pollEvents maxEvents).1 }

/-- The run of the calls on an adapter that was just set up. -/
def simRun (autoFill : Bool) (calls : List SimCall) : SimRun :=
  calls.foldl SimRun.after { adapter := .initializeAdapter autoFill }

/-- The ids of the requests that are submitted, accepted or not. -/
def requestIds (calls : List SimCall) : List UInt32 :=
  calls.filterMap fun
    | .submit request _ => some request.internalOrderId
    | .poll _ => none

theorem simRun_append (autoFill : Bool) (calls : List SimCall) (call : SimCall) :
    simRun autoFill (calls ++ [call]) = (simRun autoFill calls).after call := by
  rw [simRun, List.foldl_append, List.foldl_cons, List.foldl_nil, simRun]

theorem requestIds_append (calls more : List SimCall) :
    requestIds (calls ++ more) = requestIds calls ++ requestIds more := List.filterMap_append

/-- How the events of a new order go on: it is active and accepted, or it ended. -/
inductive OrderLife (volume : UInt64) : Option ActiveOrderState → List BrokerEvent → Prop
  | active {state : ActiveOrderState} {e : BrokerEvent} (hentrust : state.entrustVolume = volume)
      (huntraded : state.tradedVolume = 0) (haccepted : e.kind = .brokerAccepted)
      (hnone : e.volumeTraded = 0) :
      OrderLife volume (some state) [e]
  | filled {e t f : BrokerEvent} (haccepted : e.kind = .brokerAccepted) (hnone : e.volumeTraded = 0)
      (htrade : t.kind = .trade) (htraded : t.volumeTraded = volume)
      (hfinished : f.kind = .finished)
      (hnothing : f.volumeTraded = 0) (hcancelled : f.cancelledVolume = 0) :
      OrderLife volume none [e, t, f]
  | cancelled {e f : BrokerEvent} (haccepted : e.kind = .brokerAccepted)
      (hnone : e.volumeTraded = 0)
      (hfinished : f.kind = .finished) (hnothing : f.volumeTraded = 0)
      (hcancelled : f.cancelledVolume = volume) :
      OrderLife volume none [e, f]

/-- Events without an end. -/
theorem orderProtocol_of_open {volume : UInt64} {events : List BrokerEvent}
    (hfirst : events.head?.map BrokerEvent.kind = some .brokerAccepted)
    (hopen : ∀ e ∈ events, e.kind ≠ .finished) : OrderProtocol volume events := by
  refine ⟨hfirst, ?_, ?_, ?_⟩
  · rw [List.countP_eq_zero.2]
    · exact Nat.zero_le 1
    · intro e he hfinished
      exact hopen e he (of_decide_eq_true hfinished)
  · rintro before e after rfl hfinished
    exact absurd hfinished (hopen e (List.mem_append_right before List.mem_cons_self))
  · intro e he hfinished
    exact absurd hfinished (hopen e he)

/-- Events of which only the last one can be an end. -/
theorem orderProtocol_of_ended {volume : UInt64} {events : List BrokerEvent} {f : BrokerEvent}
    (hfirst : events.head?.map BrokerEvent.kind = some .brokerAccepted)
    (hopen : ∀ e ∈ events, e.kind ≠ .finished)
    (hsum : ((events ++ [f]).map fun t => t.volumeTraded.toNat).sum + f.cancelledVolume.toNat =
      volume.toNat) :
    OrderProtocol volume (events ++ [f]) := by
  have hcount : events.countP (fun e => e.kind = .finished) = 0 := by
    rw [List.countP_eq_zero]
    intro e he hend
    exact hopen e he (of_decide_eq_true hend)
  refine ⟨?_, ?_, ?_, ?_⟩
  · rw [List.head?_append_of_ne_nil]
    · exact hfirst
    · rintro rfl
      exact absurd hfirst (by simp)
  · rw [List.countP_append, hcount, Nat.zero_add]
    exact List.countP_le_length
  · intro before e after heq hend
    rcases List.eq_nil_or_concat after with rfl | ⟨rest, last, rfl⟩
    · rfl
    · rw [List.concat_eq_append, ← List.cons_append, ← List.append_assoc] at heq
      obtain ⟨rfl, -⟩ := List.append_inj' heq rfl
      exact absurd hend (hopen e (List.mem_append_right before List.mem_cons_self))
  · intro e he hend
    rcases List.mem_append.1 he with hold | hlast
    · exact absurd hend (hopen e hold)
    · rw [List.mem_singleton.1 hlast]
      exact hsum

/-- Every life keeps the protocol. -/
theorem OrderLife.protocol {volume : UInt64} {active : Option ActiveOrderState}
    {events : List BrokerEvent}
    (h : OrderLife volume active events) : OrderProtocol volume events := by
  cases h with
  | active hentrust huntraded haccepted hnone =>
      refine orderProtocol_of_open (by rw [List.head?_cons, Option.map_some, haccepted]) ?_
      intro e he
      rw [List.mem_singleton.1 he, haccepted]
      decide
  | @filled e t f haccepted hnone htrade htraded hfinished hnothing hcancelled =>
      refine @orderProtocol_of_ended volume [e, t] f ?_ ?_ ?_
      · rw [List.head?_cons, Option.map_some, haccepted]
      · intro x hx
        rcases List.mem_pair.1 hx with rfl | rfl
        · rw [haccepted]
          decide
        · rw [htrade]
          decide
      · simp [hnone, htraded, hnothing, hcancelled]
  | @cancelled e f haccepted hnone hfinished hnothing hcancelled =>
      refine @orderProtocol_of_ended volume [e] f ?_ ?_ ?_
      · rw [List.head?_cons, Option.map_some, haccepted]
      · intro x hx
        rw [List.mem_singleton.1 hx, haccepted]
        decide
      · simp [hnone, hnothing, hcancelled]

/-- A cancel ends the life of an active order: what is still open of it is cancelled. -/
theorem OrderLife.cancel {volume : UInt64} {active : ActiveOrderState} {before : List BrokerEvent}
    (h : OrderLife volume (some active) before) (request : BrokerOrderRequest) (now : TimestampNs) :
    OrderLife volume none
      (before ++ [SimBrokerAdapter.makeCancelFinishEvent request active now]) := by
  cases h with
  | active hentrust huntraded haccepted hnone =>
      refine .cancelled haccepted hnone rfl rfl ?_
      rw [← hentrust, SimBrokerAdapter.makeCancelFinishEvent, huntraded]
      simp only
      split
      next hzero =>
        rw [ge_iff_le, UInt64.le_iff_toNat_le] at hzero
        rw [← UInt64.toNat_inj]
        exact (Nat.le_zero.1 hzero).symm
      next => exact UInt64.sub_zero _

/-! ## What holds along a run -/

/-- The events of a run are all there, an id that was not requested is unknown, and every accepted
new order is at some point of its life. -/
structure SimRun.Orderly (s : SimRun) (ids : List UInt32) : Prop where
  conserved : s.polled ++ s.adapter.pendingEvents = s.generated
  unknown : ∀ x, x ∉ ids → eventsFor x s.generated = [] ∧ s.adapter.activeOrders.lookup x = none ∧
    ∀ r ∈ s.accepted, r.internalOrderId ≠ x
  lives : ∀ r ∈ s.accepted, r.type = .new →
    OrderLife r.volume (s.adapter.activeOrders.lookup r.internalOrderId)
      (eventsFor r.internalOrderId s.generated)
  active : ∀ x state, s.adapter.activeOrders.lookup x = some state →
    ∃ r ∈ s.accepted, r.type = .new ∧ r.internalOrderId = x

namespace SimRun.Orderly

open SimBrokerAdapter

variable {s s' : SimRun} {ids : List UInt32} {request : BrokerOrderRequest} {now : TimestampNs}
  {events : List BrokerEvent}

/-- One more accepted request has no id but its own. -/
theorem ne_of_accepted {x : UInt32} {accepted : List BrokerOrderRequest}
    (haway : ∀ r ∈ accepted, r.internalOrderId ≠ x) (hx : x ≠ request.internalOrderId) :
    ∀ r ∈ accepted ++ [request], r.internalOrderId ≠ x := by
  intro r hr
  rw [List.mem_append, List.mem_singleton] at hr
  rcases hr with hold | rfl
  · exact haway r hold
  · exact hx.symm

/-- A cancel says about the order that it names no more than its end. -/
theorem eventsFor_cancelled (hne : request.origInternalOrderId ≠ request.internalOrderId)
    (number : UInt32) (active : ActiveOrderState) (now : TimestampNs) :
    eventsFor request.origInternalOrderId
        [makeBaseEvent .brokerAccepted request number now,
          makeCancelFinishEvent request active now] =
      [makeCancelFinishEvent request active now] := by
  rw [eventsFor, List.filter_cons_of_neg, List.filter_cons_of_pos, List.filter_nil]
  · exact decide_eq_true rfl
  · rw [decide_eq_true_eq]
    exact fun heq => hne heq.symm

/-- A request that is accepted with events of its own only. -/
theorem own (h : s.Orderly ids) (hfresh : request.internalOrderId ∉ ids)
    (hpending : s'.adapter.pendingEvents = s.adapter.pendingEvents ++ events)
    (hpolled : s'.polled = s.polled) (hgenerated : s'.generated = s.generated ++ events)
    (haccepted : s'.accepted = s.accepted ++ [request])
    (hown : ∀ e ∈ events, e.internalOrderId = request.internalOrderId)
    (hactive : ∀ x, x ≠ request.internalOrderId →
      s'.adapter.activeOrders.lookup x = s.adapter.activeOrders.lookup x)
    (hlife : request.type = .new →
      OrderLife request.volume (s'.adapter.activeOrders.lookup request.internalOrderId) events)
    (hnew : request.type = .new ∨ s'.adapter.activeOrders.lookup request.internalOrderId = none) :
    s'.Orderly (ids ++ [request.internalOrderId]) := by
  -- A fresh id has no events so far, and the other orders get none now.
  obtain ⟨hnone, -, hother⟩ := h.unknown _ hfresh
  have hkept : ∀ x, x ≠ request.internalOrderId →
      eventsFor x s'.generated = eventsFor x s.generated := by
    intro x hx
    rw [hgenerated, eventsFor_append, @eventsFor_eq_nil x events, List.append_nil]
    intro e he heq
    exact hx (heq.symm.trans (hown e he))
  refine ⟨?_, ?_, ?_, ?_⟩
  -- nothing is lost between the pending events and the polled ones
  · rw [hpolled, hpending, hgenerated, ← List.append_assoc, h.conserved]
  -- the ids that are still unknown
  · intro x hx
    rw [List.mem_append, not_or, List.mem_singleton] at hx
    obtain ⟨hevents, hlookup, haway⟩ := h.unknown x hx.1
    refine ⟨(hkept x hx.2).trans hevents, (hactive x hx.2).trans hlookup, ?_⟩
    rw [haccepted]
    exact ne_of_accepted haway hx.2
  -- the lives of the older orders, and that of the new one
  · intro r hr htype
    rw [haccepted, List.mem_append, List.mem_singleton] at hr
    rcases hr with hold | rfl
    · rw [hkept _ (hother r hold), hactive _ (hother r hold)]
      exact h.lives r hold htype
    · rw [hgenerated, eventsFor_append, hnone, List.nil_append, eventsFor_eq_self hown]
      exact hlife htype
  -- the active orders were accepted
  · intro x state hstate
    rw [haccepted]
    by_cases heq : x = request.internalOrderId
    · rcases hnew with htype | hgone
      · exact ⟨request, List.mem_append_right _ (List.mem_singleton.2 rfl), htype, heq.symm⟩
      · rw [heq, hgone] at hstate
        exact absurd hstate (by simp)
    · rw [hactive x heq] at hstate
      obtain ⟨r, hr, htype, hid⟩ := h.active x state hstate
      exact ⟨r, List.mem_append_left _ hr, htype, hid⟩

/-- A cancel that finds its order active ends the life of that order. -/
theorem cancelled (h : s.Orderly ids) (hfresh : request.internalOrderId ∉ ids)
    (htype : request.type = .cancel) {active : ActiveOrderState} {number : UInt32}
    (hfound : s.adapter.activeOrders.lookup request.origInternalOrderId = some active)
    (hpending : s'.adapter.pendingEvents = s.adapter.pendingEvents ++
      [makeBaseEvent .brokerAccepted request number now, makeCancelFinishEvent request active now])
    (hpolled : s'.polled = s.polled)
    (hgenerated : s'.generated = s.generated ++
      [makeBaseEvent .brokerAccepted request number now, makeCancelFinishEvent request active now])
    (haccepted : s'.accepted = s.accepted ++ [request])
    (hactive : ∀ x, s'.adapter.activeOrders.lookup x =
      if x = request.origInternalOrderId then none else s.adapter.activeOrders.lookup x) :
    s'.Orderly (ids ++ [request.internalOrderId]) := by
  obtain ⟨-, hidle, hother⟩ := h.unknown _ hfresh
  -- The order that is named is known, and the cancel is not.
  have hne : request.origInternalOrderId ≠ request.internalOrderId := by
    intro heq
    rw [← heq, hfound] at hidle
    exact absurd hidle (by simp)
  have hkept : ∀ x, x ≠ request.internalOrderId → x ≠ request.origInternalOrderId →
      eventsFor x s'.generated = eventsFor x s.generated := by
    intro x hx horig
    rw [hgenerated, eventsFor_append, @eventsFor_eq_nil x [_, _], List.append_nil]
    intro e he heq
    rcases List.mem_pair.1 he with rfl | rfl
    · exact hx heq.symm
    · exact horig heq.symm
  have hnew : ∀ r ∈ s'.accepted, r.type = .new → r ∈ s.accepted := by
    intro r hr hnew
    rw [haccepted, List.mem_append, List.mem_singleton] at hr
    rcases hr with hold | rfl
    · exact hold
    · rw [htype] at hnew
      exact absurd hnew (by decide)
  refine ⟨?_, ?_, ?_, ?_⟩
  · rw [hpolled, hpending, hgenerated, ← List.append_assoc, h.conserved]
  · intro x hx
    rw [List.mem_append, not_or, List.mem_singleton] at hx
    obtain ⟨hevents, hlookup, haway⟩ := h.unknown x hx.1
    have horig : x ≠ request.origInternalOrderId := by
      rintro rfl
      rw [hfound] at hlookup
      exact absurd hlookup (by simp)
    refine ⟨(hkept x hx.2 horig).trans hevents, ?_, ?_⟩
    · rw [hactive, if_neg horig, hlookup]
    · rw [haccepted]
      exact ne_of_accepted haway hx.2
  · intro r hr htypeNew
    have hold := hnew r hr htypeNew
    have hlife := h.lives r hold htypeNew
    rw [hactive]
    by_cases horig : r.internalOrderId = request.origInternalOrderId
    · -- The order that is named: its only new event is its end.
      rw [if_pos horig, horig, hgenerated, eventsFor_append, eventsFor_cancelled hne]
      rw [horig, hfound] at hlife
      exact hlife.cancel request now
    · rw [if_neg horig, hkept _ (hother r hold) horig]
      exact hlife
  · intro x state hstate
    rw [hactive] at hstate
    split at hstate
    · exact absurd hstate (by simp)
    · obtain ⟨r, hr, hrtype, hid⟩ := h.active x state hstate
      exact ⟨r, haccepted ▸ List.mem_append_left _ hr, hrtype, hid⟩

/-- One `submit` with a new id. -/
theorem submit (h : s.Orderly ids) (hfresh : request.internalOrderId ∉ ids) (now : TimestampNs) :
    (s.after (.submit request now)).Orderly (ids ++ [request.internalOrderId]) := by
  obtain ⟨hpending, hsubmits⟩ := submits_submit s.adapter request now
  have hgone := (h.unknown _ hfresh).2.1
  -- The parts of the answer are named before the cases, which fix them.
  generalize hresult : (s.adapter.submit request now).1 = result at hsubmits
  generalize hadapter : (s.adapter.submit request now).2 = a' at hpending hsubmits
  generalize hevents : s.adapter.emitted request now = events at hpending hsubmits
  have hafter : s.after (.submit request now) =
      { s with
        adapter := a'
        accepted := s.accepted ++ if result.accepted then [request] else []
        generated := s.generated ++ events } := by
    rw [SimRun.after, hadapter, hresult, hevents]
  rw [hafter]
  cases hsubmits with
  | refused hrefused =>
      rw [hrefused]
      simp only [Bool.false_eq_true, if_false, List.append_nil]
      refine ⟨h.conserved, ?_, h.lives, h.active⟩
      intro x hx
      exact h.unknown x fun hmem => hx (List.mem_append_left _ hmem)
  | filled number htype hactive =>
      refine h.own hfresh hpending rfl rfl rfl ?_ (fun x hx => by rw [hactive, if_neg hx]) ?_
        (Or.inl htype)
      · intro e he
        simp only [List.mem_cons, List.not_mem_nil, or_false] at he
        rcases he with rfl | rfl | rfl <;> rfl
      · intro _
        rw [hactive, if_pos rfl]
        exact .filled rfl rfl rfl rfl rfl rfl rfl
  | opened number htype hvolume huntraded hactive =>
      refine h.own hfresh hpending rfl rfl rfl ?_ (fun x hx => by rw [hactive, if_neg hx]) ?_
        (Or.inl htype)
      · intro e he
        rw [List.mem_singleton.1 he]
        rfl
      · intro _
        rw [hactive, if_pos rfl]
        exact .active hvolume huntraded rfl rfl
  | cancelled number htype hfound hactive =>
      exact h.cancelled hfresh htype hfound hpending rfl rfl rfl hactive
  | idle number htype hnone hactive =>
      refine h.own hfresh hpending rfl rfl rfl ?_ (fun x _ => by rw [hactive]) ?_ (Or.inr ?_)
      · intro e he
        rcases List.mem_pair.1 he with rfl | rfl <;> rfl
      · intro hnew
        rw [htype] at hnew
        exact absurd hnew (by decide)
      · rw [hactive]
        exact hgone

theorem poll (h : s.Orderly ids) (maxEvents : Nat) : (s.after (.poll maxEvents)).Orderly ids := by
  refine ⟨?_, ?_, ?_, ?_⟩
  · rw [SimRun.after, pollEvents]
    split
    · rw [List.append_nil]
      exact h.conserved
    · simp only
      rw [List.append_assoc, List.take_append_drop]
      exact h.conserved
  all_goals
    have hactive : (s.after (.poll maxEvents)).adapter.activeOrders = s.adapter.activeOrders := by
      rw [SimRun.after, pollEvents]
      split <;> rfl
    rw [hactive]
  · exact h.unknown
  · exact h.lives
  · exact h.active

end SimRun.Orderly

theorem orderly_simRun (autoFill : Bool) (calls : List SimCall) (hids : (requestIds calls).Nodup) :
    (simRun autoFill calls).Orderly (requestIds calls) := by
  induction calls using List.reverseRecOn with
  | nil =>
      refine ⟨rfl, fun x _ => ⟨rfl, rfl, fun r hr => absurd hr List.not_mem_nil⟩,
        fun r hr => absurd hr List.not_mem_nil, fun x state hstate => ?_⟩
      exact absurd (show (none : Option ActiveOrderState) = some state from hstate) (by simp)
  | append_singleton calls call ih =>
      rw [requestIds_append, List.nodup_append] at hids
      obtain ⟨hbefore, -, hdisjoint⟩ := hids
      rw [simRun_append, requestIds_append]
      cases call with
      | submit request now =>
          refine (ih hbefore).submit ?_ now
          intro hmem
          exact hdisjoint _ hmem _ (List.mem_singleton.2 rfl) rfl
      | poll maxEvents =>
          rw [show requestIds [SimCall.poll maxEvents] = [] from rfl, List.append_nil]
          exact (ih hbefore).poll maxEvents

/-! ## The protocol -/

/-- A cancel that finds no active order speaks of itself only. -/
theorem internalOrderId_of_emitted {a : SimBrokerAdapter} {request : BrokerOrderRequest}
    {now : TimestampNs} (htype : request.type = .cancel)
    (hnone : a.activeOrders.lookup request.origInternalOrderId = none)
    {e : BrokerEvent} (he : e ∈ a.emitted request now) :
    e.internalOrderId = request.internalOrderId := by
  obtain ⟨-, hsubmits⟩ := SimBrokerAdapter.submits_submit a request now
  revert he
  generalize (a.submit request now).1 = result at hsubmits
  generalize (a.submit request now).2 = a' at hsubmits
  generalize a.emitted request now = events at hsubmits
  intro he
  cases hsubmits with
  | refused hrefused => exact absurd he List.not_mem_nil
  | filled number hnew hactive => exact absurd (htype.symm.trans hnew) (by decide)
  | opened number hnew hvolume huntraded hactive => exact absurd (htype.symm.trans hnew) (by decide)
  | cancelled number _ hfound hactive =>
      rw [hnone] at hfound
      exact absurd hfound (by simp)
  | idle number _ _ hactive => rcases List.mem_pair.1 he with rfl | rfl <;> rfl

/-- An order that no accepted request opened, or whose end was announced, is not active. -/
theorem SimRun.Orderly.lookup_eq_none {s : SimRun} {ids : List UInt32}
    (h : s.Orderly ids) {x : UInt32}
    (hgone : (∀ r ∈ s.accepted, r.type = .new → r.internalOrderId ≠ x) ∨
      ∃ e ∈ s.generated, e.internalOrderId = x ∧ e.kind = .finished) :
    s.adapter.activeOrders.lookup x = none := by
  cases hlookup : s.adapter.activeOrders.lookup x with
  | none => rfl
  | some state =>
      obtain ⟨r, hr, hnew, rfl⟩ := h.active x state hlookup
      rcases hgone with hunknown | ⟨e, he, hid, hfinished⟩
      · exact absurd rfl (hunknown r hr hnew)
      · have hlife := h.lives r hr hnew
        have hmem : e ∈ eventsFor r.internalOrderId s.generated :=
          List.mem_filter.2 ⟨he, decide_eq_true hid⟩
        rw [hlookup] at hlife
        generalize eventsFor r.internalOrderId s.generated = events at hlife hmem
        cases hlife with
        | active hentrust huntraded haccepted hnone =>
            rw [List.mem_singleton.1 hmem, haccepted] at hfinished
            exact absurd hfinished (by decide)

/-- The protocol of the simulated broker over any run in which no request id is used twice. -/
theorem simulated_orders (autoFill : Bool) (calls : List SimCall)
    (hids : (requestIds calls).Nodup) :
    (simRun autoFill calls).polled ++ (simRun autoFill calls).adapter.pendingEvents =
        (simRun autoFill calls).generated ∧
      (∀ r ∈ (simRun autoFill calls).accepted, r.type = .new →
        OrderProtocol r.volume (eventsFor r.internalOrderId (simRun autoFill calls).generated)) ∧
      ∀ earlier request now later, calls = earlier ++ SimCall.submit request now :: later →
        request.type = .cancel → request.origInternalOrderId ≠ request.internalOrderId →
        ((∀ r ∈ (simRun autoFill earlier).accepted, r.type = .new →
            r.internalOrderId ≠ request.origInternalOrderId) ∨
          ∃ e ∈ (simRun autoFill earlier).generated,
            e.internalOrderId = request.origInternalOrderId ∧ e.kind = .finished) →
        ∀ e ∈ (simRun autoFill earlier).adapter.emitted request now,
          e.internalOrderId ≠ request.origInternalOrderId := by
  have hall := orderly_simRun autoFill calls hids
  refine ⟨hall.conserved, fun r hr hnew => (hall.lives r hr hnew).protocol, ?_⟩
  rintro earlier request now later rfl htype hother hgone e he heq
  rw [requestIds_append, List.nodup_append] at hids
  have hnone := (orderly_simRun autoFill earlier hids.1).lookup_eq_none hgone
  exact hother (heq.symm.trans (internalOrderId_of_emitted htype hnone he))

/-- A new order for 100 shares. -/
def simOrder : BrokerOrderRequest where
  internalOrderId := 1
  type := .new
  tradeSide := .buy
  orderMarket := .sz
  volume := 100
  price := 10
  securityId := ⟨[48], by decide, by decide⟩

/-- A cancel of the order with this id. -/
def simCancel (orderId origOrderId : UInt32) : BrokerOrderRequest where
  internalOrderId := orderId
  origInternalOrderId := origOrderId
  type := .cancel

theorem simulated_orders_cancelled :
    OrderProtocol 100 (eventsFor 1
      (simRun false [.submit simOrder 1, .poll 1, .submit (simCancel 2 1) 2, .poll 4]).generated) :=
  (simulated_orders false [.submit simOrder 1, .poll 1, .submit (simCancel 2 1) 2, .poll 4]
    (by decide)).2.1 simOrder (by decide) rfl

/-- A cancel that names itself: it is answered under the id of the order that it names, which is
unknown. -/
theorem self_cancel_answered :
    ¬ ∀ (autoFill : Bool) (calls : List SimCall), (requestIds calls).Nodup →
      ∀ earlier request now later, calls = earlier ++ SimCall.submit request now :: later →
        request.type = .cancel →
        ((∀ r ∈ (simRun autoFill earlier).accepted, r.type = .new →
            r.internalOrderId ≠ request.origInternalOrderId) ∨
          ∃ e ∈ (simRun autoFill earlier).generated,
            e.internalOrderId = request.origInternalOrderId ∧ e.kind = .finished) →
        ∀ e ∈ (simRun autoFill earlier).adapter.emitted request now,
          e.internalOrderId ≠ request.origInternalOrderId := by
  intro h
  have hnone : ∀ r ∈ (simRun true []).accepted, r.type = .new →
      r.internalOrderId ≠ (simCancel 5 5).origInternalOrderId := fun r hr =>
        absurd hr List.not_mem_nil
  exact h true [.submit (simCancel 5 5) 0] (by decide) [] (simCancel 5 5) 0
    [] rfl rfl (Or.inl hnone)
    (SimBrokerAdapter.makeBaseEvent .brokerAccepted (simCancel 5 5) 1 0) (by decide) rfl

end AccountServices
