import AccountServices.Shm.QueueRefinement
import AccountServices.Api.PlacedOrders

/-!
# Iterations of the event loop

`EventLoop::loop_iteration`: a batch of orders, a batch of responses, the timers of the execution
engine, and the archive. A batch ends at its limit or with its queue; an index whose slot cannot be
read does not count. Behind the interface of the clients every slot can be read, so an iteration
takes the oldest orders, as many as the limit allows.
-/

set_option autoImplicit false

namespace AccountServices

open Foundation

namespace Desk

/-- The batch limit that a configured `poll_batch_size` stands for. -/
def batchLimit (pollBatchSize : Nat) : Nat := if pollBatchSize = 0 then 1 else pollBatchSize

/-- An iteration that finds an index shortens the queue. -/
theorem occupied_takeOrder {cfg : Config} {env : Env} {d d' : Desk} {readable : Bool}
    (h : d.takeOrder cfg env = (some readable, d')) :
    d'.upstream.occupied < d.upstream.occupied := by
  rw [takeOrder] at h
  split at h
  · exact absurd h (by simp)
  next index q hpop =>
    obtain ⟨-, rfl⟩ := Prod.ext_iff.1 h
    exact SpscQueue.occupied_of_tryPop hpop

theorem occupied_takeResponse {cfg : Config} {env : Env} {d d' : Desk}
    (h : d.takeResponse cfg env = (true, d')) : d'.responses.occupied < d.responses.occupied := by
  rw [takeResponse] at h
  split at h
  · exact absurd h (by simp)
  next response q hpop =>
    obtain ⟨-, rfl⟩ := Prod.ext_iff.1 h
    exact SpscQueue.occupied_of_tryPop hpop

/-- `process_upstream_orders` from the state in which `left` orders may still be taken: how many
are, and the desk afterwards. Each turn of the loop reads its own clocks. -/
def processUpstreamOrders (cfg : Config) (envs : Nat → Env) (turn left : Nat) (d : Desk) :
    Nat × Desk :=
  if left = 0 then (0, d)
  else
    match _hturn : d.takeOrder cfg (envs turn) with
    | (none, _) => (0, d)
    | (some false, d') => processUpstreamOrders cfg envs (turn + 1) left d'
    | (some true, d') =>
        let (processed, d'') := processUpstreamOrders cfg envs (turn + 1) (left - 1) d'
        (processed + 1, d'')
termination_by d.upstream.occupied
decreasing_by
  all_goals exact occupied_takeOrder ‹_›

/-- `process_downstream_responses`. -/
def processDownstreamResponses (cfg : Config) (envs : Nat → Env) (turn left : Nat) (d : Desk) :
    Nat × Desk :=
  if left = 0 then (0, d)
  else
    match _hturn : d.takeResponse cfg (envs turn) with
    | (false, _) => (0, d)
    | (true, d') =>
        let (processed, d'') := processDownstreamResponses cfg envs (turn + 1) (left - 1) d'
        (processed + 1, d'')
termination_by d.responses.occupied
decreasing_by
  exact occupied_takeResponse ‹_›

theorem processUpstreamOrders_none {cfg : Config} {envs : Nat → Env} {turn : Nat} {d d' : Desk}
    (h : d.takeOrder cfg (envs turn) = (none, d')) (left : Nat) :
    d.processUpstreamOrders cfg envs turn left = (0, d) := by
  rw [processUpstreamOrders]
  split
  · rfl
  · split
    · rfl
    all_goals
      next heq =>
        rw [h] at heq
        exact absurd (congrArg Prod.fst heq) (by simp)

theorem processUpstreamOrders_succ {cfg : Config} {envs : Nat → Env} {turn : Nat} {d d' : Desk}
    (h : d.takeOrder cfg (envs turn) = (some true, d')) (left : Nat) :
    d.processUpstreamOrders cfg envs turn (left + 1) =
      ((d'.processUpstreamOrders cfg envs (turn + 1) left).1 + 1,
        (d'.processUpstreamOrders cfg envs (turn + 1) left).2) := by
  rw [processUpstreamOrders, if_neg (Nat.succ_ne_zero left)]
  split
  · next heq =>
      rw [h] at heq
      exact absurd (congrArg Prod.fst heq) (by simp)
  · next heq =>
      rw [h] at heq
      exact absurd (congrArg Prod.fst heq) (by simp)
  · next d₁ heq =>
      obtain rfl : d' = d₁ := congrArg Prod.snd (h.symm.trans heq)
      rfl

theorem processDownstreamResponses_none {cfg : Config} {envs : Nat → Env} {turn : Nat} {d : Desk}
    (h : d.responses.toList = []) (left : Nat) :
    d.processDownstreamResponses cfg envs turn left = (0, d) := by
  have hstop : d.takeResponse cfg (envs turn) = (false, d) := by
    rw [takeResponse, SpscQueue.tryPop_of_nil h]
  rw [processDownstreamResponses]
  split
  · rfl
  · split
    · rfl
    · next heq =>
        rw [hstop] at heq
        exact absurd (congrArg Prod.fst heq) (by simp)

theorem processDownstreamResponses_succ {cfg : Config} {envs : Nat → Env} {turn : Nat} {d d' : Desk}
    (h : d.takeResponse cfg (envs turn) = (true, d')) (left : Nat) :
    d.processDownstreamResponses cfg envs turn (left + 1) =
      ((d'.processDownstreamResponses cfg envs (turn + 1) left).1 + 1,
        (d'.processDownstreamResponses cfg envs (turn + 1) left).2) := by
  rw [processDownstreamResponses, if_neg (Nat.succ_ne_zero left)]
  split
  · next heq =>
      rw [h] at heq
      exact absurd (congrArg Prod.fst heq) (by simp)
  · next d₁ heq =>
      obtain rfl : d' = d₁ := congrArg Prod.snd (h.symm.trans heq)
      rfl

/-- The clocks and the market that an iteration observes. -/
structure IterationEnv where
  orders : Nat → Env := fun _ => {}
  responses : Nat → Env := fun _ => {}
  tick : Env := {}
  archive : Env := {}

/-- `loop_iteration`. -/
def loopIteration (cfg : Config) (pollBatchSize : Nat) (d : Desk) (env : IterationEnv) : Desk :=
  let d := (d.processUpstreamOrders cfg env.orders 0 (batchLimit pollBatchSize)).2
  let d := (d.processDownstreamResponses cfg env.responses 0 (batchLimit pollBatchSize)).2
  let d :=
    if cfg.hasExecutionEngine then
      { d with world := d.world.step cfg (env.tick, .engineTick env.tick.nowNs) }
    else d
  if cfg.archiveTerminalOrders then
    { d with world := d.world.step cfg (env.archive, .pendingArchives env.archive.nowNs) }
  else d

/-! ## What an iteration takes -/

variable {earlier : List OrderRequest} {mine : Set OrderIndex} {wrote : OrderIndex → OrderRequest}
  {orders : List OrderRequest} {d : Desk}

/-- The oldest index is taken, and its slot can be read. -/
theorem Sound.takes (h : d.Sound earlier mine wrote orders) (cfg : Config) (env : Env)
    {index : OrderIndex} {rest : List OrderIndex} (hlist : d.upstream.toList = index :: rest) :
    d.takeOrder cfg env = (some true, (d.takeOrder cfg env).2) ∧
      (d.takeOrder cfg env).2.upstream.toList = rest ∧
        (d.takeOrder cfg env).2.responses = d.responses := by
  obtain ⟨hhead, htail⟩ := SpscQueue.head?_toList d.upstream
  rw [hlist, List.head?_cons] at hhead
  rw [hlist, List.tail_cons] at htail
  obtain ⟨shm, hmirrored⟩ := h.keeps.mirrored
  have hmem : index ∈ d.held mine := Or.inr (hlist ▸ List.mem_cons_self)
  have hread : (d.world.ordersShm.bind fun shm => shm.readSnapshot index) =
      some (shm.slots index) := by
    rw [hmirrored.attached, Option.bind_some, OrdersShm.readSnapshot,
      if_pos (hmirrored.held_exists index hmem)]
  rw [takeOrder_some cfg env hhead hread]
  exact ⟨rfl, htail, rfl⟩

/-- A batch of orders: the oldest ones, up to the limit. -/
theorem Sound.processUpstreamOrders (cfg : Config) (envs : Nat → Env) (turn left : Nat) {d : Desk}
    (h : d.Sound earlier mine wrote orders) :
    (d.processUpstreamOrders cfg envs turn left).1 = min left d.upstream.toList.length ∧
      (d.processUpstreamOrders cfg envs turn left).2.Sound earlier mine wrote orders ∧
      (d.processUpstreamOrders cfg envs turn left).2.upstream.toList = d.upstream.toList.drop left ∧
      (d.processUpstreamOrders cfg envs turn left).2.responses = d.responses := by
  induction left generalizing d turn with
  | zero =>
      rw [Desk.processUpstreamOrders, if_pos rfl]
      exact ⟨(Nat.zero_min _).symm, h, rfl, rfl⟩
  | succ left ih =>
      cases hlist : d.upstream.toList with
      | nil =>
          have hnone : d.upstream.tryPop.1 = none := by rw [SpscQueue.tryPop_of_nil hlist]
          rw [processUpstreamOrders_none (takeOrder_none cfg (envs turn) hnone)]
          exact ⟨by simp, h, by simpa using hlist, rfl⟩
      | cons index rest =>
          obtain ⟨htakes, hrest, hresponses⟩ := h.takes cfg (envs turn) hlist
          obtain ⟨hcount, hsound, hleft, hresponses'⟩ := ih (turn + 1) (h.takeOrder cfg (envs turn))
          rw [processUpstreamOrders_succ htakes]
          rw [hrest] at hcount hleft
          refine ⟨?_, hsound, hleft, hresponses'.trans hresponses⟩
          rw [hcount, List.length_cons, Nat.succ_min_succ]

/-- The oldest response is taken, and the orders stay. -/
theorem takeResponse_cons (cfg : Config) (env : Env) {response : TradeResponse}
    {rest : List TradeResponse} (hlist : d.responses.toList = response :: rest) :
    d.takeResponse cfg env = (true, (d.takeResponse cfg env).2) ∧
      (d.takeResponse cfg env).2.responses.toList = rest ∧
      (d.takeResponse cfg env).2.upstream = d.upstream ∧
        (d.takeResponse cfg env).2.received = d.received := by
  obtain ⟨hhead, htail⟩ := SpscQueue.head?_toList d.responses
  rw [hlist, List.head?_cons] at hhead
  rw [hlist, List.tail_cons] at htail
  have heq : d.responses.tryPop = (some response, d.responses.tryPop.2) := Prod.ext hhead rfl
  rw [takeResponse, heq]
  exact ⟨rfl, htail, rfl, rfl⟩

/-- A batch of responses. -/
theorem Sound.processDownstreamResponses (cfg : Config) (envs : Nat → Env)
    (turn left : Nat) {d : Desk} (h : d.Sound earlier mine wrote orders) :
    (d.processDownstreamResponses cfg envs turn left).2.Sound earlier mine wrote orders ∧
      (d.processDownstreamResponses cfg envs turn left).2.upstream = d.upstream ∧
      (d.processDownstreamResponses cfg envs turn left).2.received = d.received ∧
      (d.processDownstreamResponses cfg envs turn left).2.responses.toList =
        d.responses.toList.drop left := by
  induction left generalizing d turn with
  | zero =>
      rw [Desk.processDownstreamResponses, if_pos rfl]
      exact ⟨h, rfl, rfl, rfl⟩
  | succ left ih =>
      cases hlist : d.responses.toList with
      | nil =>
          rw [processDownstreamResponses_none hlist]
          exact ⟨h, rfl, rfl, by simpa using hlist⟩
      | cons response rest =>
          obtain ⟨htakes, hrest, hupstream, hreceived⟩ :=
            takeResponse_cons cfg (envs turn) hlist
          obtain ⟨hsound, hupstream', hreceived', hleft⟩ :=
            ih (turn + 1) (h.takeResponse cfg (envs turn))
          rw [processDownstreamResponses_succ htakes]
          rw [hrest] at hleft
          exact ⟨hsound, hupstream'.trans hupstream, hreceived'.trans hreceived, hleft⟩

/-- The timers do not touch the queues. -/
theorem Sound.timer (h : d.Sound earlier mine wrote orders) (cfg : Config) (enabled : Bool)
    (env : Env) (event : Event) (htaken : event.taken = ∅) :
    (if enabled then { d with world := d.world.step cfg (env, event) } else d).Sound
      earlier mine wrote orders ∧
      (if enabled then { d with world := d.world.step cfg (env, event) } else d).upstream =
        d.upstream ∧
      (if enabled then { d with world := d.world.step cfg (env, event) } else d).responses =
        d.responses := by
  cases enabled with
  | true => exact ⟨h.turn (Turn.call d env htaken), rfl, rfl⟩
  | false => exact ⟨h, rfl, rfl⟩

/-- An iteration. -/
theorem Sound.loopIteration (cfg : Config) (pollBatchSize : Nat) (env : IterationEnv) {d : Desk}
    (h : d.Sound earlier mine wrote orders) :
    (d.loopIteration cfg pollBatchSize env).Sound earlier mine wrote orders ∧
      (d.loopIteration cfg pollBatchSize env).upstream.toList =
        d.upstream.toList.drop (batchLimit pollBatchSize) ∧
      (d.loopIteration cfg pollBatchSize env).responses.toList =
        d.responses.toList.drop (batchLimit pollBatchSize) := by
  obtain ⟨-, hordered, hqueue, hresponses⟩ := h.processUpstreamOrders cfg env.orders 0
    (batchLimit pollBatchSize)
  obtain ⟨hanswered, hupstream, -, hleft⟩ :=
    hordered.processDownstreamResponses cfg env.responses 0 (batchLimit pollBatchSize)
  rw [Desk.loopIteration]
  set d₁ := (d.processUpstreamOrders cfg env.orders 0 (batchLimit pollBatchSize)).2
  set d₂ := (d₁.processDownstreamResponses cfg env.responses 0 (batchLimit pollBatchSize)).2
  rw [hresponses] at hleft
  obtain ⟨hticked, hupstream₃, hresponses₃⟩ :=
    hanswered.timer cfg cfg.hasExecutionEngine env.tick (.engineTick env.tick.nowNs) rfl
  obtain ⟨harchived, hupstream₄, hresponses₄⟩ :=
    hticked.timer cfg cfg.archiveTerminalOrders env.archive (.pendingArchives env.archive.nowNs) rfl
  refine ⟨harchived, ?_, ?_⟩
  · rw [hupstream₄, hupstream₃, hupstream, hqueue]
  · rw [hresponses₄, hresponses₃, hleft]

theorem Sound.iterations (cfg : Config) (pollBatchSize : Nat) (envs : List IterationEnv) {d : Desk}
    (h : d.Sound earlier mine wrote orders) :
    (envs.foldl (Desk.loopIteration cfg pollBatchSize) d).Sound earlier mine wrote orders ∧
      (envs.foldl (Desk.loopIteration cfg pollBatchSize) d).upstream.toList =
        d.upstream.toList.drop (envs.length * batchLimit pollBatchSize) ∧
      (envs.foldl (Desk.loopIteration cfg pollBatchSize) d).responses.toList =
        d.responses.toList.drop (envs.length * batchLimit pollBatchSize) := by
  induction envs generalizing d with
  | nil => exact ⟨h, by simp, by simp⟩
  | cons env envs ih =>
      obtain ⟨hsound, hupstream, hresponses⟩ := h.loopIteration cfg pollBatchSize env
      obtain ⟨hsound', hupstream', hresponses'⟩ := ih hsound
      have hlength : (env :: envs).length * batchLimit pollBatchSize =
          batchLimit pollBatchSize + envs.length * batchLimit pollBatchSize := by
        rw [List.length_cons, Nat.succ_mul, Nat.add_comm]
      rw [List.foldl_cons, hlength]
      refine ⟨hsound', ?_, ?_⟩
      · rw [hupstream', hupstream, List.drop_drop]
      · rw [hresponses', hresponses, List.drop_drop]

end Desk

/-- After a session of a client, every iteration of the loop gives the service the oldest orders
that wait, as many as the batch limit, and takes as many responses: `n` orders are with the service
after `n` divided by the limit, rounded up, iterations. -/
theorem orders_taken_in_batches {cfg : Config} {first : InternalOrderId} {d : Desk}
    (hrest : d.AtRest first)
    (env : Interference (Desk.Busy cfg)) (calls : List ApiCall) (pollBatchSize : Nat)
    (envs : List Desk.IterationEnv) :
    let before := ((clientSession .fresh calls).runAmid env d).2.1
    let after := envs.foldl (Desk.loopIteration cfg pollBatchSize) before
    after.received = before.received ++ before.waiting.take
      (envs.length * Desk.batchLimit pollBatchSize) ∧
      after.waiting = before.waiting.drop (envs.length * Desk.batchLimit pollBatchSize) ∧
      after.responses.toList = before.responses.toList.drop
        (envs.length * Desk.batchLimit pollBatchSize) := by
  intro before after
  obtain ⟨wrote, hserves⟩ := hrest.session env calls
  have hbefore := hserves.sound
  obtain ⟨hafter, hupstream, hresponses⟩ := hbefore.iterations cfg pollBatchSize envs
  have hwaiting : after.waiting = before.waiting.drop
      (envs.length * Desk.batchLimit pollBatchSize) := by
    rw [hafter.waiting_eq, hbefore.waiting_eq, ← List.map_drop]
    exact congrArg _ hupstream
  refine ⟨?_, hwaiting, hresponses⟩
  have hsame := hafter.orders.trans hbefore.orders.symm
  rw [← hafter.waiting_eq, ← hbefore.waiting_eq, hwaiting] at hsame
  have hsplit := List.take_append_drop (envs.length * Desk.batchLimit pollBatchSize) before.waiting
  refine List.append_cancel_right (hsame.trans ?_)
  rw [List.append_assoc, hsplit]

/-- The service and the gateway stand still. -/
def Desk.undisturbed : Interference (Desk.Busy {}) := Interference.idle fun _ _ =>
    Relation.ReflTransGen.refl

/-- A client that submits three orders. -/
def submitThree : List ApiCall :=
  List.replicate 3
    (.submitOrder {} ⟨some (asciiBytes ['6', '0', '0', '0', '0', '0']), 1, 2, 100, 10, none⟩)

theorem three_orders_in_two_iterations :
    ([{}, {}].foldl (Desk.loopIteration {} 2)
      ((clientSession .fresh submitThree).runAmid Desk.undisturbed quietDesk).2.1).received.map
        OrderRequest.internalOrderId = [1, 2, 3] := by
  rw [(orders_taken_in_batches quietDesk_open.atRest Desk.undisturbed submitThree 2 [{}, {}]).1]
  rfl

end AccountServices
