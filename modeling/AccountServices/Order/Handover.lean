import AccountServices.Order.Router
import AccountServices.Shm.QueueRefinement

/-!
# The hand-over of an index

`send_to_downstream` pushes an index and then marks its slot as queued; `process_orders` of the
gateway pops it, reads the slot and stamps it as dequeued. The two processes run beside each other,
and nothing keeps the mark of the service ahead of the stamp of the gateway. The stages of a slot
move forward in every interleaving in which the service marks a slot before the gateway has stamped
it and hands over no index twice.
-/

set_option autoImplicit false

namespace AccountServices

open Foundation

/-- The shared memory of the two processes and how far each of them is: the index that the service
has pushed or failed to push, with the stage that it will set, and the index that the gateway has
popped, with whether it has read the slot. `pushed` lists the indices that went into the queue. -/
structure Handover where
  shm : OrdersShm
  queue : SpscQueue OrderIndex 18
  sending : Option (OrderIndex × OrderSlotState) := none
  taking : Option (OrderIndex × Bool) := none
  pushed : List OrderIndex := []

/-- A step of one of the two processes. The first two are those of `send_to_downstream`; the service
also writes requests to slots and closes them when it archives their orders. The last three are
those of `process_orders`. -/
inductive HandoverStep where
  | push (index : OrderIndex)
  | mark (now : TimestampNs)
  | sync (index : OrderIndex) (request : OrderRequest) (now : TimestampNs)
  | close (index : OrderIndex) (request : OrderRequest) (source : OrderSlotSource)
      (now : TimestampNs)
  | pop
  | read
  | stamp (now : TimestampNs)

namespace Handover

/-- The service is in the middle of `send_to_downstream` only between its two steps. -/
def push (h : Handover) (index : OrderIndex) : Handover :=
  match h.sending with
  | some _ => h
  | none =>
      if (h.queue.tryPush index).1 then
        { h with
          queue := (h.queue.tryPush index).2
          sending := some (index, .downstreamQueued)
          pushed := h.pushed ++ [index] }
      else { h with sending := some (index, .queuePushFailed) }

def mark (h : Handover) (now : TimestampNs) : Handover :=
  match h.sending with
  | none => h
  | some (index, stage) => { h with shm := (h.shm.updateStage index stage now).2, sending := none }

/-- `orders_shm_sync_order` and the terminal `orders_shm_write_order` of `on_order_book_changed`. -/
def write (h : Handover) (f : OrdersShm → OrdersShm) : Handover :=
  match h.sending with
  | some _ => h
  | none => { h with shm := f h.shm }

def pop (h : Handover) : Handover :=
  match h.taking with
  | some _ => h
  | none =>
      match h.queue.tryPop.1 with
      | none => h
      | some index => { h with queue := h.queue.tryPop.2, taking := some (index, false) }

/-- A slot that does not exist ends the handling of its index. -/
def read (h : Handover) : Handover :=
  match h.taking with
  | some (index, false) =>
      match h.shm.readSnapshot index with
      | none => { h with taking := none }
      | some _ => { h with taking := some (index, true) }
  | _ => h

def stamp (h : Handover) (now : TimestampNs) : Handover :=
  match h.taking with
  | some (index, true) =>
      { h with shm := (h.shm.updateStage index .downstreamDequeued now).2, taking := none }
  | _ => h

/-- One step; a step that its process cannot take now changes nothing. -/
def step (h : Handover) : HandoverStep → Handover
  | .push index => h.push index
  | .mark now => h.mark now
  | .sync index request now => h.write fun shm => (shm.syncOrder index request now).2
  | .close index request source now => h.write fun shm =>
      (shm.writeOrder index request .terminal source now).2
  | .pop => h.pop
  | .read => h.read
  | .stamp now => h.stamp now

/-- `send_to_downstream` without the gateway is a push followed by a mark. -/
theorem run_sendToDownstream_eq {w : World} {shm : OrdersShm} {queue : SpscQueue OrderIndex 18}
    (hshm : w.ordersShm = some shm) (hqueue : w.downstream = some queue) (now : TimestampNs)
    (index : OrderIndex) :
    ∃ h : Handover, h = ((Handover.mk shm queue none none w.pushed).push index).mark now ∧
      ((Service.sendToDownstream now index).run w).2 =
        { w with ordersShm := some h.shm, downstream := some h.queue, pushed := h.pushed } := by
  refine ⟨_, rfl, ?_⟩
  simp only [Service.sendToDownstream, Program.run_bind, Program.run_read, hshm, hqueue,
    Option.isSome_some, Bool.and_self, if_true, Service.tryPush, Program.run_atomic,
    Service.updateStage, Service.onOrdersShm, Program.run_pure, push, mark]
  cases hpush : (queue.tryPush index).1 with
  | true => simp only [if_true]
  | false => simp only [Bool.false_eq_true, if_false, SpscQueue.tryPush_of_false hpush]

/-! ## Slots after a step -/

variable {h : Handover} {index i : OrderIndex} {now : TimestampNs}

/-- The indices that wait in the queue or are in the hands of the gateway. -/
def inFlight (h : Handover) : List OrderIndex := h.queue.toList ++ (h.taking.map (·.1)).toList

/-- The stage of a slot. -/
def stageOf (h : Handover) (index : OrderIndex) : OrderSlotState := (h.shm.slots index).stage

theorem stage_mutateSlot (shm : OrdersShm) (index i : OrderIndex) (f : OrderSlot → OrderSlot) :
    ((shm.mutateSlot index f).2.slots i).stage =
      if shm.indexExists index = true ∧ i = index then (f (shm.slots index)).stage else
        (shm.slots i).stage := by
  by_cases hi : i = index
  · subst hi
    cases hexists : shm.indexExists i with
    | true => simp [OrdersShm.mutateSlot, hexists]
    | false => simp [OrdersShm.mutateSlot, hexists]
  · rw [OrdersShm.slots_mutateSlot_of_ne shm f hi, if_neg fun hboth => hi hboth.2]

/-- The two processes agree on what is under way: every index in flight was pushed and is not
stamped yet, and an index that neither of them works on any more is stamped or closed. -/
structure Orderly (h : Handover) : Prop where
  nodup : h.inFlight.Nodup
  known : ∀ i ∈ h.inFlight, i ∈ h.pushed
  unstamped : ∀ i ∈ h.inFlight, h.stageOf i ≠ .downstreamDequeued
  sending : ∀ i stage, h.sending = some (i, stage) →
    (stage = .downstreamQueued ∧ i ∈ h.pushed) ∨ (stage = .queuePushFailed ∧ i ∉ h.pushed)
  done : ∀ i ∈ h.pushed, h.shm.indexExists i = true → (∀ stage, h.sending ≠ some (i, stage)) →
    i ∉ h.inFlight → h.stageOf i = .downstreamDequeued ∨ h.stageOf i = .terminal

/-- The condition of a step: an index is pushed once, and not under a slot that is stamped already;
and the service marks the slot of an index while it is still in flight. -/
def Careful (h : Handover) : HandoverStep → Prop
  | .push index => index ∉ h.pushed ∧ h.stageOf index ≠ .downstreamDequeued
  | .mark _ => ∀ index, h.sending = some (index, .downstreamQueued) → index ∈ h.inFlight
  | _ => True

namespace Orderly

theorem push (hh : h.Orderly) (hnew : index ∉ h.pushed)
    (hstage : h.stageOf index ≠ .downstreamDequeued) : (h.push index).Orderly := by
  cases hsending : h.sending with
  -- A push under way is finished first.
  | some pending =>
      simp only [Handover.push, hsending]
      exact hh
  | none =>
      have hidle : ∀ i stage, h.sending ≠ some (i, stage) := by simp [hsending]
      simp only [Handover.push, hsending]
      split
      -- The index enters the queue, and waits for the mark.
      next hpushed =>
        have hlist := SpscQueue.toList_tryPush hpushed
        have hflight : ∀ i, i ∈ h.queue.toList ++ [index] ++ (h.taking.map (·.1)).toList ↔
            i = index ∨ i ∈ h.inFlight := by
          intro i
          simp only [inFlight, List.mem_append, List.mem_singleton]
          tauto
        have hfresh : index ∉ h.inFlight := fun hmem => hnew (hh.known index hmem)
        refine ⟨?_, ?_, ?_, ?_, ?_⟩
        · simp only [inFlight, hlist]
          have hperm : (h.queue.toList ++ [index] ++ (h.taking.map (·.1)).toList).Perm
              (index :: h.inFlight) := by
            rw [List.append_assoc]
            exact List.perm_middle
          exact hperm.nodup_iff.2 (List.nodup_cons.2 ⟨hfresh, hh.nodup⟩)
        · intro i hi
          simp only [inFlight, hlist] at hi
          rcases (hflight i).1 hi with rfl | hold
          · exact List.mem_append_right _ (List.mem_singleton.2 rfl)
          -- nothing in flight is stamped
          · exact List.mem_append_left _ (hh.known i hold)
        · intro i hi
          simp only [inFlight, hlist] at hi
          rcases (hflight i).1 hi with rfl | hold
          · exact hstage
          · exact hh.unstamped i hold
        -- the service is to mark what it pushed
        · intro i stage hi
          simp only [Option.some.injEq, Prod.mk.injEq] at hi
          exact Or.inl ⟨hi.2.symm, hi.1 ▸ List.mem_append_right _ (List.mem_singleton.2 rfl)⟩
        -- what has left the queue and the gateway carries its stamp
        · intro i hi hexists hnot hout
          simp only [inFlight, hlist] at hout
          have hi' : i ∈ h.pushed ∨ i = index := by simpa using hi
          rcases hi' with hold | rfl
          · exact hh.done i hold hexists (hidle i) fun hmem => hout ((hflight i).2 (Or.inr hmem))
          · exact absurd ((hflight i).2 (Or.inl rfl)) hout
      -- The queue is full: the service marks a slot that was never pushed.
      next hrefused =>
        refine ⟨hh.nodup, hh.known, hh.unstamped, ?_, ?_⟩
        · intro i stage hi
          simp only [Option.some.injEq, Prod.mk.injEq] at hi
          exact Or.inr ⟨hi.2.symm, hi.1 ▸ hnew⟩
        · exact fun i hi hexists _ hout => hh.done i hi hexists (hidle i) hout

theorem mark (hh : h.Orderly)
    (hflight : ∀ index, h.sending = some (index, .downstreamQueued) → index ∈ h.inFlight) :
    (h.mark now).Orderly := by
  cases hsending : h.sending with
  | none =>
      simp only [Handover.mark, hsending]
      exact hh
  | some pending =>
      obtain ⟨index, stage⟩ := pending
      have hstage := stage_mutateSlot h.shm index
      have hnotStamp : stage ≠ .downstreamDequeued := by
        rcases hh.sending index stage hsending with ⟨rfl, -⟩ | ⟨rfl, -⟩
        · decide
        · decide
      simp only [Handover.mark, hsending]
      refine ⟨hh.nodup, hh.known, ?_, ?_, ?_⟩
      · intro i hi
        simp only [stageOf, OrdersShm.updateStage, hstage]
        split
        · exact hnotStamp
        · exact hh.unstamped i hi
      · exact fun i stage hi => absurd hi (by simp)
      · intro i hi hexists _ hout
        simp only [OrdersShm.updateStage, OrdersShm.indexExists_mutateSlot] at hexists
        -- the slot that is marked is in flight, or was never pushed
        have hne : i ≠ index := by
          rintro rfl
          rcases hh.sending i stage hsending with ⟨rfl, -⟩ | ⟨-, hnot⟩
          · exact hout (hflight i hsending)
          · exact hnot hi
        have hkept : ∀ stage', h.sending ≠ some (i, stage') := by
          intro stage' heq
          rw [hsending, Option.some.injEq, Prod.mk.injEq] at heq
          exact hne heq.1.symm
        simp only [stageOf, OrdersShm.updateStage, hstage, hne, and_false, if_false]
        exact hh.done i hi hexists hkept hout

/-- A write of the service to a slot, which keeps its stage or closes it. -/
theorem write (hh : h.Orderly) {f : OrderSlot → OrderSlot}
      (hf : ∀ slot, (f slot).stage = slot.stage ∨ (f slot).stage = .terminal) (index : OrderIndex) :
    (h.write fun shm => (shm.mutateSlot index f).2).Orderly := by
  cases hsending : h.sending with
  | some pending =>
      simp only [Handover.write, hsending]
      exact hh
  | none =>
      have hstage := stage_mutateSlot h.shm index
      simp only [Handover.write, hsending]
      -- a slot that is written keeps its stage, or is closed
      refine ⟨hh.nodup, hh.known, ?_, ?_, ?_⟩
      · intro i hi
        simp only [stageOf, hstage]
        split
        next hboth =>
          rw [← hboth.2]
          rcases hf (h.shm.slots i) with hsame | hclosed
          · rw [hsame]
            exact hh.unstamped i hi
          · rw [hclosed]
            decide
        next => exact hh.unstamped i hi
      · exact fun i stage hi => absurd hi (by simp)
      · intro i hi hexists _ hout
        rw [OrdersShm.indexExists_mutateSlot] at hexists
        have hold := hh.done i hi hexists (by simp [hsending]) hout
        simp only [stageOf, hstage]
        split
        next hboth =>
          rw [← hboth.2]
          rcases hf (h.shm.slots i) with hsame | hclosed
          · rw [hsame]
            exact hold
          · exact Or.inr hclosed
        next => exact hold

theorem pop (hh : h.Orderly) : h.pop.Orderly := by
  cases htaking : h.taking with
  | some pending =>
      simp only [Handover.pop, htaking]
      exact hh
  | none =>
      simp only [Handover.pop, htaking]
      cases hpop : h.queue.tryPop.1 with
      | none => exact hh
      | some index =>
          -- the index moves from the head of the queue to the hands of the gateway
          have hlist := SpscQueue.toList_tryPop hpop
          have hperm : (h.queue.tryPop.2.toList ++ [index]).Perm h.inFlight := by
            simp only [inFlight, htaking, hlist, Option.map_none,
              Option.toList_none, List.append_nil]
            exact List.perm_append_singleton index _
          refine ⟨hperm.nodup_iff.2 hh.nodup, ?_, ?_, hh.sending, ?_⟩
          · exact fun i hi => hh.known i (hperm.mem_iff.1 hi)
          · exact fun i hi => hh.unstamped i (hperm.mem_iff.1 hi)
          · exact fun i hi hexists hidle hout => hh.done i hi hexists hidle fun hmem =>
              hout (hperm.mem_iff.2 hmem)

theorem read (hh : h.Orderly) : h.read.Orderly := by
  cases htaking : h.taking with
  | none =>
      simp only [Handover.read, htaking]
      exact hh
  | some pending =>
      obtain ⟨index, done⟩ := pending
      cases done with
      | true =>
          simp only [Handover.read, htaking]
          exact hh
      | false =>
          have hflight : h.inFlight = h.queue.toList ++ [index] := by simp [inFlight, htaking]
          simp only [Handover.read, htaking]
          cases hread : h.shm.readSnapshot index with
          | some slot =>
              have hsame :
                  Handover.inFlight { h with taking := some (index, true) } = h.inFlight := by
                simp [inFlight, htaking]
              refine ⟨?_, ?_, ?_, hh.sending, ?_⟩
              · exact hsame ▸ hh.nodup
              · exact fun i hi => hh.known i (hsame ▸ hi)
              · exact fun i hi => hh.unstamped i (hsame ▸ hi)
              · exact fun i hi hexists hidle hout => hh.done i hi hexists hidle (hsame ▸ hout)
          | none =>
              -- there is no such slot, and nothing is said about its stage
              have hmem : ∀ i, i ∈ h.queue.toList → i ∈ h.inFlight := by
                intro i hi
                rw [hflight]
                exact List.mem_append_left _ hi
              refine ⟨?_, ?_, ?_, hh.sending, ?_⟩
              · simp only [inFlight, Option.map_none, Option.toList_none, List.append_nil]
                have hnodup := hh.nodup
                rw [hflight] at hnodup
                exact (List.nodup_append.1 hnodup).1
              · intro i hi
                exact hh.known i (hmem i (by simpa [inFlight] using hi))
              · intro i hi
                exact hh.unstamped i (hmem i (by simpa [inFlight] using hi))
              · intro i hi hexists hidle hout
                refine hh.done i hi hexists hidle fun hin => ?_
                rw [hflight] at hin
                rcases List.mem_append.1 hin with hqueued | hlast
                · exact hout (by simpa [inFlight] using hqueued)
                · rw [List.mem_singleton.1 hlast] at hexists
                  rw [OrdersShm.readSnapshot, if_pos hexists] at hread
                  exact absurd hread (by simp)

theorem stamp (hh : h.Orderly) : (h.stamp now).Orderly := by
  cases htaking : h.taking with
  | none =>
      simp only [Handover.stamp, htaking]
      exact hh
  | some pending =>
      obtain ⟨index, done⟩ := pending
      -- Only an order that was read is stamped, and it leaves the gateway with that.
      cases done with
      | false =>
          simp only [Handover.stamp, htaking]
          exact hh
      | true =>
          have hflight : h.inFlight = h.queue.toList ++ [index] := by simp [inFlight, htaking]
          have hnodup := hh.nodup
          rw [hflight] at hnodup
          obtain ⟨hqueue, -, hapart⟩ := List.nodup_append.1 hnodup
          have hmem : ∀ i, i ∈ h.queue.toList → i ∈ h.inFlight ∧ i ≠ index := by
            intro i hi
            refine ⟨?_, ?_⟩
            · rw [hflight]
              exact List.mem_append_left _ hi
            · exact hapart i hi index (List.mem_singleton.2 rfl)
          have hstage := stage_mutateSlot h.shm index
          simp only [Handover.stamp, htaking]
          refine ⟨?_, ?_, ?_, hh.sending, ?_⟩
          -- what is left in flight is the queue
          · simpa [inFlight] using hqueue
          · intro i hi
            exact hh.known i (hmem i (by simpa [inFlight] using hi)).1
          -- another slot is stamped
          · intro i hi
            obtain ⟨hin, hne⟩ := hmem i (by simpa [inFlight] using hi)
            simp only [stageOf, OrdersShm.updateStage, hstage, hne, and_false, if_false]
            exact hh.unstamped i hin
          -- what is out of flight is the stamped order, or was out before
          · intro i hi hexists hidle hout
            simp only [OrdersShm.updateStage, OrdersShm.indexExists_mutateSlot] at hexists
            simp only [stageOf, OrdersShm.updateStage, hstage]
            split
            · exact Or.inl rfl
            next hother =>
              have hne : i ≠ index := by
                rintro rfl
                exact hother ⟨hexists, rfl⟩
              refine hh.done i hi hexists hidle fun hin => ?_
              rw [hflight] at hin
              rcases List.mem_append.1 hin with hqueued | hlast
              · exact hout (by simpa [inFlight] using hqueued)
              · exact hne (List.mem_singleton.1 hlast)

/-- Every careful step keeps the two processes in agreement. -/
theorem step (hh : h.Orderly) {s : HandoverStep} (hcareful : h.Careful s) : (h.step s).Orderly := by
  cases s with
  | push index => exact hh.push hcareful.1 hcareful.2
  | mark now => exact hh.mark hcareful
  | sync index request now =>
      exact hh.write (f := fun slot => { slot with request := request, lastUpdateNs := now })
        (fun _ => Or.inl rfl) index
  | close index request source now => exact hh.write (fun _ => Or.inr rfl) index
  | pop => exact hh.pop
  | read => exact hh.read
  | stamp now => exact hh.stamp

end Orderly

/-! ## Interleavings -/

/-- No process has begun, and the queue is empty. -/
def start (shm : OrdersShm) (buffer : Nat → OrderIndex) : Handover :=
  { shm := shm, queue := SpscQueue.initialised buffer }

theorem orderly_start (shm : OrdersShm) (buffer : Nat → OrderIndex) :
    (start shm buffer).Orderly := by
  have hnil : (start shm buffer).inFlight = [] := by
    simp [start, inFlight, SpscQueue.toList_initialised]
  refine ⟨?_, ?_, ?_, ?_, ?_⟩
  · rw [hnil]
    exact List.nodup_nil
  · exact fun i hi => absurd (hnil ▸ hi) List.not_mem_nil
  · exact fun i hi => absurd (hnil ▸ hi) List.not_mem_nil
  · exact fun i stage hi => absurd hi (by simp [start])
  · exact fun i hi => absurd hi List.not_mem_nil

/-- The stage of a slot goes back from dequeued to queued. -/
def Regresses (h h' : Handover) : Prop :=
  ∃ index, h.stageOf index = .downstreamDequeued ∧ h'.stageOf index = .downstreamQueued

/-- Both sides have finished with the index. -/
def Handled (h : Handover) (index : OrderIndex) : Prop :=
  index ∈ h.pushed ∧ (∀ stage, h.sending ≠ some (index, stage)) ∧ index ∉ h.inFlight

theorem stageOf_write (h : Handover) (index i : OrderIndex) (f : OrderSlot → OrderSlot) :
    (h.write fun shm => (shm.mutateSlot index f).2).stageOf i = h.stageOf i ∨
      (h.write fun shm => (shm.mutateSlot index f).2).stageOf i = (f (h.shm.slots i)).stage := by
  simp only [Handover.write]
  split
  · exact Or.inl rfl
  · simp only [stageOf, stage_mutateSlot]
    split
    next hboth =>
      rw [← hboth.2]
      exact Or.inr rfl
    next => exact Or.inl rfl

/-- A careful step of an orderly hand-over takes no stage back. -/
theorem Orderly.not_regresses (hh : h.Orderly) {s : HandoverStep} (hcareful : h.Careful s) :
    ¬ h.Regresses (h.step s) := by
  rintro ⟨i, hbefore, hafter⟩
  have hchanged : (h.step s).stageOf i ≠ h.stageOf i := by
    rw [hbefore, hafter]
    decide
  cases s with
  | push index =>
      apply hchanged
      simp only [Handover.step, Handover.push]
      split
      · rfl
      split <;> rfl
  | mark now =>
      simp only [Handover.step, Handover.mark] at hafter
      split at hafter
      · rw [hbefore] at hafter
        exact absurd hafter (by decide)
      next index stage hsending =>
        simp only [stageOf, OrdersShm.updateStage, stage_mutateSlot] at hafter
        split at hafter
        next hboth =>
          -- the slot is in flight, so the gateway has not stamped it
          obtain ⟨-, rfl⟩ := hboth
          exact hh.unstamped i (hcareful i (hafter ▸ hsending)) hbefore
        next =>
          rw [stageOf] at hbefore
          rw [hbefore] at hafter
          exact absurd hafter (by decide)
  | sync index request now =>
      rcases h.stageOf_write index i
        (fun slot => { slot with request := request, lastUpdateNs := now }) with
        hsame | hsame
      · exact hchanged hsame
      · exact hchanged hsame
  | close index request source now =>
      rcases h.stageOf_write index i (fun _ =>
        { request := request, stage := .terminal, source := source, lastUpdateNs := now }) with
          hsame | hclosed
      · exact hchanged hsame
      · exact absurd (hafter.symm.trans hclosed) (by simp)
  | pop =>
      apply hchanged
      simp only [Handover.step, Handover.pop]
      split
      · rfl
      split <;> rfl
  | read =>
      apply hchanged
      simp only [Handover.step, Handover.read]
      split
      · split <;> rfl
      · rfl
  | stamp now =>
      simp only [Handover.step, Handover.stamp] at hafter hchanged
      split at hafter
      · simp only [stageOf, OrdersShm.updateStage, stage_mutateSlot] at hafter
        split at hafter
        · exact absurd hafter (by decide)
        next =>
          rw [stageOf] at hbefore
          rw [hbefore] at hafter
          exact absurd hafter (by decide)
      · rw [hbefore] at hafter
        exact absurd hafter (by decide)

/-- Slot stages move forward: in every interleaving whose steps are careful no stage goes back from
dequeued to queued, and a slot whose index both sides have finished with is dequeued or closed. -/
theorem stages_move_forward {shm : OrdersShm} {buffer : Nat → OrderIndex}
    {steps : List HandoverStep}
    (hcareful : StepsMeet Handover.step Handover.Careful (start shm buffer) steps) :
    StepsMeet Handover.step (fun h s => ¬ h.Regresses (h.step s)) (start shm buffer) steps ∧
      ∀ h ∈ trace Handover.step (start shm buffer) steps, ∀ index, h.shm.indexExists index = true →
        h.Handled index → h.stageOf index = .downstreamDequeued ∨ h.stageOf index = .terminal := by
  have hstart := orderly_start shm buffer
  refine ⟨stepsMeet_of_invariant Handover.Orderly (fun h s hh hs => hh.step hs)
    (fun h s hh hs => hh.not_regresses hs) hstart hcareful, ?_⟩
  intro h hmem index hexists hhandled
  have hh := trace_invariant Handover.Orderly (fun h s hh hs => hh.step hs) hstart hcareful h hmem
  exact hh.done index hhandled.1 hexists hhandled.2.1 hhandled.2.2

end Handover

/-- A pool with one order. -/
def handoverPool : OrdersShm where
  capacity := 1
  nextIndex := 1
  slots := fun _ => { stage := .upstreamDequeued, request := OrderRequest.ofClient 1 .buy 100 10 }
  capacity_le := by decide
  nextIndex_le := by decide

/-- The gateway handles the index between the push and the mark of the service. -/
def overtakenSteps : List HandoverStep := [.push 0, .pop, .read, .stamp 2, .mark 3]

/-- The slot goes back from dequeued to queued, and stays there. -/
theorem stage_regresses :
    ¬ StepsMeet Handover.step (fun h s => ¬ h.Regresses (h.step s))
        (Handover.start handoverPool fun _ => 0) overtakenSteps ∧
      ∃ h ∈ trace Handover.step (Handover.start handoverPool fun _ => 0) overtakenSteps,
        h.shm.indexExists 0 = true ∧ h.Handled 0 ∧ h.stageOf 0 = .downstreamQueued := by
  constructor
  · intro hforward
    have hlast := hforward.2.2.2.2.1
    exact hlast ⟨0, by decide, by decide⟩
  · refine ⟨_, foldl_mem_trace Handover.step _ overtakenSteps, by decide,
      ⟨by decide, ?_, ?_⟩, by decide⟩
    · have hnone :
          (overtakenSteps.foldl Handover.step (Handover.start handoverPool fun _ => 0)).sending =
          none := by decide
      rw [hnone]
      exact fun stage => by simp
    · have hempty :
          (overtakenSteps.foldl Handover.step
          (Handover.start handoverPool fun _ => 0)).queue.toList = [] := by
        rw [← SpscQueue.head_eq_tail_iff]
        decide
      have hfree :
          (overtakenSteps.foldl Handover.step (Handover.start handoverPool fun _ => 0)).taking =
          none := by decide
      rw [Handover.inFlight, hempty, hfree]
      exact List.not_mem_nil

/-- The service marks the slot before the gateway stamps it. -/
def orderedSteps : List HandoverStep := [.push 0, .pop, .mark 2, .read, .stamp 3]

theorem stages_move_forward_in_turn :
    StepsMeet Handover.step Handover.Careful (Handover.start handoverPool fun _ => 0) orderedSteps ∧
      StepsMeet Handover.step (fun h s => ¬ h.Regresses (h.step s))
        (Handover.start handoverPool fun _ => 0) orderedSteps := by
  have hcareful : StepsMeet Handover.step Handover.Careful (Handover.start handoverPool fun _ => 0)
      orderedSteps := by
    refine ⟨⟨List.not_mem_nil, by decide⟩, trivial, ?_, trivial, trivial, trivial⟩
    intro index hsending
    obtain rfl : index = 0 := by
      have hpending :
          (((Handover.start handoverPool fun _ => 0).step (.push 0)).step .pop).sending =
          some (0, .downstreamQueued) := by decide
      exact (congrArg Prod.fst (Option.some.inj (hpending.symm.trans hsending))).symm
    exact List.mem_append_right _ (by decide)
  exact ⟨hcareful, (Handover.stages_move_forward hcareful).1⟩

end AccountServices
