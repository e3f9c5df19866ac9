import AccountServices.Shm.QueueAccesses

/-!
# What passes through the queue

The books of the two ends of `shm/spsc_queue.hpp`: what the answers of the pushes and of the pops
say that has gone into the queue and has come out of it. The books of the FIFO balance, and what the
two processes see of the ring is what they would see of the FIFO, so nothing is lost, doubled or
reordered between them.
-/

set_option autoImplicit false

namespace AccountServices

open Foundation

namespace SpscQueue

variable {κ : Type} {β : κ → Type} [DecidableEq κ] {k : Nat}

/-- What has passed through a queue: the elements whose push has answered that it succeeded and the
elements that pops have answered with, in order. `offered` is the element of the push that the
producer is in, and `taking` says whether the consumer is in a pop. -/
structure Traffic (α : Type) where
  offered : Option α := none
  taking : Bool := false
  pushed : List α := []
  popped : List α := []

/-- The next occurrence of a history. -/
def Traffic.see {α : Type} (s : Traffic α) :
    Occurrence QueueEnd (QueueCall α) (QueueAnswer α) → Traffic α
  | .call .producer (.tryPush item) => { s with offered := some item }
  | .call .consumer .tryPop => { s with taking := true }
  | .call _ _ => s
  | .answer .producer (.pushed true) =>
      { s with pushed := s.pushed ++ s.offered.toList, offered := none }
  | .answer .producer _ => { s with offered := none }
  | .answer .consumer (.item (some x)) =>
      { s with popped := if s.taking then s.popped ++ [x] else s.popped, taking := false }
  | .answer .consumer _ => { s with taking := false }

def trafficIn {α : Type} (h : List (Occurrence QueueEnd (QueueCall α) (QueueAnswer α))) :
    Traffic α :=
  h.foldl Traffic.see {}

section Traffic

variable {α : Type} {capacity : Nat}

/-- The element of a push that has taken effect and has not answered yet. -/
def Traffic.owedPush (s : Traffic α) : Option (QueueCall α ⊕ QueueAnswer α) → List α
  | some (.inr (.pushed true)) => s.offered.toList
  | _ => []

/-- The element of a pop that has taken effect and has not answered yet. -/
def Traffic.owedPop (s : Traffic α) : Option (QueueCall α ⊕ QueueAnswer α) → List α
  | some (.inr (.item (some x))) => if s.taking then [x] else []
  | _ => []

/-- The books of the FIFO: what was pushed is what was popped and what is still there, and the calls
that are open in the books are the ones that the two ends are in. -/
structure Traffic.Balanced (s : Traffic α) (u : Threads QueueEnd (BoundedFifo α capacity)
    (QueueCall α ⊕ QueueAnswer α)) : Prop where
  balance : s.pushed ++ s.owedPush (u.inside .producer) =
    s.popped ++ s.owedPop (u.inside .consumer) ++ u.memory.1
  calls : ∀ e c, u.inside e = some (.inl c) → e.mayCall c
  offered : ∀ item, u.inside .producer = some (.inl (.tryPush item)) → s.offered = some item
  closed : u.inside .producer = none → s.offered = none
  taking : u.inside .consumer = some (.inl .tryPop) → s.taking = true
  keeping : ∀ c, u.inside .consumer = some (.inl c) → c ≠ .tryPop → s.taking = false
  resting : u.inside .consumer = none → s.taking = false

variable {s : Traffic α}
  {u : Threads QueueEnd (BoundedFifo α capacity) (QueueCall α ⊕ QueueAnswer α)}

/-- An end makes a call. -/
theorem Traffic.Balanced.call (h : s.Balanced u) {e : QueueEnd} {c : QueueCall α}
    (hidle : u.inside e = none) (hmay : e.mayCall c) :
    (s.see (.call e c)).Balanced ⟨u.memory, Function.update u.inside e (some (.inl c))⟩ := by
  have hne : QueueEnd.consumer ≠ QueueEnd.producer := QueueEnd.noConfusion
  have hcalls : ∀ e' c', Function.update u.inside e (some (.inl c)) e' = some (.inl c') →
      e'.mayCall c' := by
    intro e' c' he'
    by_cases heq : e' = e
    · subst heq
      rw [Function.update_self, Option.some.injEq, Sum.inl.injEq] at he'
      exact he' ▸ hmay
    · rw [Function.update_of_ne heq] at he'
      exact h.calls e' c' he'
  have hbalance := h.balance
  cases e with
  | producer =>
      rw [hidle] at hbalance
      have hconsumer : Function.update u.inside QueueEnd.producer
          (some (.inl c)) QueueEnd.consumer =
          u.inside QueueEnd.consumer := Function.update_of_ne hne _ _
      -- a push is offered; the other calls of the producer leave the books alone
      have hsee : ∃ item, s.see (.call .producer c) = { s with offered := item } ∧
          ∀ x, c = .tryPush x → item = some x := by
        cases c with
        | tryPush item =>
            exact ⟨some item, rfl, fun x hx => congrArg some (QueueCall.tryPush.inj hx)⟩
        | init => exact ⟨s.offered, rfl, fun x hx => absurd hx (by simp)⟩
        | tryPop => exact ⟨s.offered, rfl, fun x hx => absurd hx (by simp)⟩
        | tryPeek => exact ⟨s.offered, rfl, fun x hx => absurd hx (by simp)⟩
        | size => exact ⟨s.offered, rfl, fun x hx => absurd hx (by simp)⟩
        | empty => exact ⟨s.offered, rfl, fun x hx => absurd hx (by simp)⟩
      obtain ⟨item, hsee, hitem⟩ := hsee
      rw [hsee]
      refine ⟨?_, hcalls, ?_, ?_, ?_, ?_, ?_⟩
      · simp only [hconsumer, Function.update_self]
        exact hbalance
      · intro x hx
        simp only [Function.update_self, Option.some.injEq, Sum.inl.injEq] at hx
        exact hitem x hx
      · intro hnone
        simp only [Function.update_self, reduceCtorEq] at hnone
      · simp only [hconsumer]
        exact h.taking
      · simp only [hconsumer]
        exact h.keeping
      · simp only [hconsumer]
        exact h.resting
  | consumer =>
      rw [hidle] at hbalance
      have hproducer : Function.update u.inside QueueEnd.consumer
          (some (.inl c)) QueueEnd.producer =
          u.inside QueueEnd.producer := Function.update_of_ne (Ne.symm hne) _ _
      have hrest := h.resting hidle
      have hsee : ∃ b, s.see (.call .consumer c) = { s with taking := b } ∧
        (b = true ↔ c = .tryPop) := by
        cases c with
        | tryPop => exact ⟨true, rfl, by simp⟩
        | init => exact ⟨s.taking, rfl, by simp [hrest]⟩
        | tryPush item => exact ⟨s.taking, rfl, by simp [hrest]⟩
        | tryPeek => exact ⟨s.taking, rfl, by simp [hrest]⟩
        | size => exact ⟨s.taking, rfl, by simp [hrest]⟩
        | empty => exact ⟨s.taking, rfl, by simp [hrest]⟩
      obtain ⟨b, hsee, hb⟩ := hsee
      rw [hsee]
      refine ⟨?_, hcalls, ?_, ?_, ?_, ?_, ?_⟩
      · simp only [hproducer, Function.update_self]
        exact hbalance
      · simp only [hproducer]
        exact h.offered
      · simp only [hproducer]
        exact h.closed
      · simp only [Function.update_self, Option.some.injEq, Sum.inl.injEq]
        exact hb.2
      · intro c' hc' hne'
        simp only [Function.update_self, Option.some.injEq, Sum.inl.injEq] at hc'
        exact Bool.eq_false_iff.2 fun ht => hne' (hc' ▸ hb.1 ht)
      · intro hnone
        simp only [Function.update_self, reduceCtorEq] at hnone

/-- A push of the FIFO. -/
theorem fifoSpec.push {xs xs' : BoundedFifo α capacity} {item : α} {a : QueueAnswer α}
    (h : fifoSpec xs (.tryPush item) a xs') :
    (a = .pushed true ∧ xs'.1 = xs.1 ++ [item]) ∨ (a = .pushed false ∧ xs'.1 = xs.1) := by
  rw [fifoSpec, BoundedFifo.call, Prod.mk.injEq] at h
  obtain ⟨rfl, rfl⟩ := h
  rw [BoundedFifo.push]
  split
  · exact Or.inl ⟨rfl, rfl⟩
  · exact Or.inr ⟨rfl, rfl⟩

/-- A pop of the FIFO. -/
theorem fifoSpec.pop {xs xs' : BoundedFifo α capacity} {a : QueueAnswer α}
    (h : fifoSpec xs .tryPop a xs') :
    (∃ x, a = .item (some x) ∧ xs.1 = x :: xs'.1) ∨ (a = .item none ∧ xs'.1 = xs.1) := by
  rw [fifoSpec, BoundedFifo.call, Prod.mk.injEq] at h
  obtain ⟨rfl, rfl⟩ := h
  obtain ⟨l, hl⟩ := xs
  cases l with
  | nil => exact Or.inr ⟨rfl, rfl⟩
  | cons x rest => exact Or.inl ⟨x, rfl, rfl⟩

/-- The other calls of the two ends leave the FIFO as it is, and do not answer as a push that
succeeds. -/
theorem fifoSpec.look {xs xs' : BoundedFifo α capacity} {e : QueueEnd}
    {c : QueueCall α} {a : QueueAnswer α}
    (h : fifoSpec xs c a xs') (hmay : e.mayCall c) (hpush : ∀ item, c ≠ .tryPush item)
    (hpop : c ≠ .tryPop) :
    xs' = xs ∧ a ≠ .pushed true ∧ ∀ x, a = .item (some x) → e = .consumer := by
  cases c with
  | tryPush item => exact absurd rfl (hpush item)
  | tryPop => exact absurd rfl hpop
  | init => cases e <;> exact absurd hmay id
  | tryPeek =>
      rw [fifoSpec, BoundedFifo.call, Prod.mk.injEq] at h
      obtain ⟨rfl, rfl⟩ := h
      cases e with
      | producer => exact absurd hmay id
      | consumer => exact ⟨rfl, by simp, fun _ _ => rfl⟩
  | size =>
      rw [fifoSpec, BoundedFifo.call, Prod.mk.injEq] at h
      obtain ⟨rfl, rfl⟩ := h
      exact ⟨rfl, by simp, by simp⟩
  | empty =>
      rw [fifoSpec, BoundedFifo.call, Prod.mk.injEq] at h
      obtain ⟨rfl, rfl⟩ := h
      exact ⟨rfl, by simp, by simp⟩

theorem Traffic.owedPush_of_ne {a : QueueAnswer α} (h : a ≠ .pushed true) :
    s.owedPush (some (.inr a)) = [] := by
  unfold owedPush
  split
  next heq => exact absurd (Sum.inr.inj (Option.some.inj heq)) h
  next => rfl

theorem Traffic.owedPop_of_keeping {a : QueueAnswer α} (h : s.taking = false) :
    s.owedPop (some (.inr a)) = [] := by
  unfold owedPop
  split
  next => rw [h, if_neg Bool.false_ne_true]
  next => rfl

/-- A call of the producer takes effect. -/
theorem Traffic.Balanced.produced (h : s.Balanced u) {c : QueueCall α} {a : QueueAnswer α}
    {xs : BoundedFifo α capacity} (hin : u.inside .producer = some (.inl c))
    (hspec : fifoSpec u.memory c a xs) :
    s.pushed ++ s.owedPush (some (.inr a)) = s.popped ++ s.owedPop
      (u.inside .consumer) ++ xs.1 := by
  have hbalance := h.balance
  have hnone : s.owedPush (u.inside .producer) = [] := by rw [hin]; rfl
  rw [hnone, List.append_nil] at hbalance
  have hmay := h.calls .producer c hin
  by_cases hpush : ∃ item, c = .tryPush item
  · obtain ⟨item, rfl⟩ := hpush
    rcases hspec.push with ⟨rfl, hxs⟩ | ⟨rfl, hxs⟩
    · have howed : s.owedPush (some (.inr (.pushed true))) = [item] := by
        rw [owedPush, h.offered item hin, Option.toList_some]
      rw [howed, hxs, hbalance, List.append_assoc]
    · rw [owedPush_of_ne (by simp), List.append_nil, hxs, hbalance]
  · have hpop : c ≠ .tryPop := fun heq => by
      subst heq
      exact hmay
    obtain ⟨rfl, ha, -⟩ := hspec.look hmay (fun item heq => hpush ⟨item, heq⟩) hpop
    rw [owedPush_of_ne ha, List.append_nil, hbalance]

/-- A call of the consumer takes effect. -/
theorem Traffic.Balanced.consumed (h : s.Balanced u) {c : QueueCall α} {a : QueueAnswer α}
    {xs : BoundedFifo α capacity} (hin : u.inside .consumer = some (.inl c))
    (hspec : fifoSpec u.memory c a xs) :
    s.pushed ++ s.owedPush (u.inside .producer) = s.popped ++ s.owedPop
      (some (.inr a)) ++ xs.1 := by
  have hbalance := h.balance
  have hnone : s.owedPop (u.inside .consumer) = [] := by rw [hin]; rfl
  rw [hnone, List.append_nil] at hbalance
  have hmay := h.calls .consumer c hin
  by_cases hpop : c = .tryPop
  · subst hpop
    rcases hspec.pop with ⟨x, rfl, hxs⟩ | ⟨rfl, hxs⟩
    · have howed : s.owedPop (some (.inr (.item (some x)))) = [x] := by
        rw [owedPop, h.taking hin, if_pos rfl]
      rw [howed, hbalance, hxs, List.append_assoc]
      rfl
    · rw [hbalance, hxs]
      exact congrArg (· ++ u.memory.1) (List.append_nil s.popped).symm
  · have hpush : ∀ item, c ≠ .tryPush item := fun item heq => by
      subst heq
      exact hmay
    obtain ⟨rfl, -, -⟩ := hspec.look hmay hpush hpop
    rw [owedPop_of_keeping (h.keeping c hin hpop), List.append_nil, hbalance]

/-- A call takes effect. -/
theorem Traffic.Balanced.effect (h : s.Balanced u) {e : QueueEnd} {c : QueueCall α}
    {a : QueueAnswer α} {xs : BoundedFifo α capacity} (hin : u.inside e = some (.inl c))
    (hspec : fifoSpec u.memory c a xs) :
    s.Balanced ⟨xs, Function.update u.inside e (some (.inr a))⟩ := by
  have hcalls : ∀ e' c', Function.update u.inside e (some (.inr a)) e' = some (.inl c') →
      u.inside e' = some (.inl c') := by
    intro e' c' he'
    by_cases heq : e' = e
    · subst heq
      simp at he'
    · rwa [Function.update_of_ne heq] at he'
  have hnone : ∀ e', Function.update u.inside e (some (.inr a)) e' = none → u.inside e' = none := by
    intro e' he'
    by_cases heq : e' = e
    · subst heq
      simp at he'
    · rwa [Function.update_of_ne heq] at he'
  refine ⟨?_, fun e' c' he' => h.calls e' c' (hcalls e' c' he'),
    fun item hitem => h.offered item (hcalls _ _ hitem), fun hp => h.closed (hnone _ hp),
    fun hpop => h.taking (hcalls _ _ hpop), fun c' hc' hne => h.keeping c' (hcalls _ _ hc') hne,
    fun hc => h.resting (hnone _ hc)⟩
  cases e with
  | producer =>
      simp only [Function.update_self, Function.update_of_ne
        (show QueueEnd.consumer ≠ .producer by decide)]
      exact h.produced hin hspec
  | consumer =>
      simp only [Function.update_self, Function.update_of_ne
        (show QueueEnd.producer ≠ .consumer by decide)]
      exact h.consumed hin hspec

theorem Traffic.see_answer_producer (s : Traffic α) (a : QueueAnswer α) :
    s.see (.answer .producer a) =
      { s with pushed := s.pushed ++ s.owedPush (some (.inr a)), offered := none } := by
  cases a with
  | pushed ok => cases ok <;> simp [see, owedPush]
  | done => simp [see, owedPush]
  | item out => simp [see, owedPush]
  | number n => simp [see, owedPush]
  | flag b => simp [see, owedPush]

theorem Traffic.see_answer_consumer (s : Traffic α) (a : QueueAnswer α) :
    s.see (.answer .consumer a) =
      { s with popped := s.popped ++ s.owedPop (some (.inr a)), taking := false } := by
  cases a with
  | item out =>
      cases out with
      | none => simp [see, owedPop]
      | some x =>
          simp only [see, owedPop]
          split
          · rfl
          · rw [List.append_nil]
  | done => simp [see, owedPop]
  | pushed ok => simp [see, owedPop]
  | number n => simp [see, owedPop]
  | flag b => simp [see, owedPop]

/-- A call answers. -/
theorem Traffic.Balanced.answer (h : s.Balanced u) {e : QueueEnd} {a : QueueAnswer α}
    (hin : u.inside e = some (.inr a)) :
    (s.see (.answer e a)).Balanced ⟨u.memory, Function.update u.inside e none⟩ := by
  have hcalls : ∀ e' c', Function.update u.inside e none e' = some (.inl c') →
      e' ≠ e ∧ u.inside e' = some (.inl c') := by
    intro e' c' he'
    by_cases heq : e' = e
    · subst heq
      simp at he'
    · rw [Function.update_of_ne heq] at he'
      exact ⟨heq, he'⟩
  have hbalance := h.balance
  cases e with
  | producer =>
      -- The answer of a push makes its element count as pushed; it was owed until now.
      have hother :=
        Function.update_of_ne (show QueueEnd.consumer ≠ .producer by decide) none u.inside
      rw [see_answer_producer]
      refine ⟨?_, fun e' c' he' => h.calls e' c' (hcalls e' c' he').2,
        fun item hitem => absurd rfl (hcalls _ _ hitem).1, fun _ => rfl,
        fun hpop => h.taking (hcalls _ _ hpop).2, fun c' hc' hne =>
          h.keeping c' (hcalls _ _ hc').2 hne,
        fun hc => h.resting (hother ▸ hc)⟩
      rw [hin] at hbalance
      simp only [Function.update_self, hother]
      exact (List.append_nil _).trans hbalance
  | consumer =>
      -- The answer of a pop makes its element count as popped.
      have hother :=
        Function.update_of_ne (show QueueEnd.producer ≠ .consumer by decide) none u.inside
      rw [see_answer_consumer]
      refine ⟨?_, fun e' c' he' => h.calls e' c' (hcalls e' c' he').2,
        fun item hitem => h.offered item (hcalls _ _ hitem).2, fun hp => h.closed (hother ▸ hp),
        fun hpop => absurd rfl (hcalls _ _ hpop).1, fun c' hc' => absurd rfl (hcalls _ _ hc').1,
        fun _ => rfl⟩
      rw [hin] at hbalance
      simp only [Function.update_self, hother]
      exact hbalance.trans (congrArg (· ++ u.memory.1) (List.append_nil _).symm)

/-- The books of the FIFO are balanced in every run. -/
theorem balanced_of_run {xs : BoundedFifo α capacity}
    {h : List (Occurrence QueueEnd (QueueCall α) (QueueAnswer α))}
    {u : Threads QueueEnd (BoundedFifo α capacity) (Machine.atomic (fifoSpec (α := α))).Local}
    (hxs : xs.1 = [])
    (hrun : (Machine.atomic fifoSpec).Run (fun _ e c => QueueEnd.mayCall e c) xs h u) :
    (trafficIn h).Balanced u := by
  induction hrun with
  | start => exact ⟨hxs.symm, by simp, by simp, fun _ => rfl, by simp, by simp, fun _ => rfl⟩
  | call _ hidle hmay ih =>
      rw [trafficIn, List.foldl_append]
      exact ih.call hidle hmay
  | access _ hin haccess ih =>
      rcases haccess with ⟨c, a, rfl, hout, hspec⟩ | ⟨a, rfl, hout, -⟩
      · obtain rfl := Sum.inl.inj hout
        exact ih.effect hin hspec
      · exact absurd hout (by simp)
  | answer _ hin haccess ih =>
      rcases haccess with ⟨c, a, rfl, hout, -⟩ | ⟨a, rfl, hout, rfl⟩
      · exact absurd hout (by simp)
      · obtain rfl := Sum.inr.inj hout
        rw [trafficIn, List.foldl_append]
        exact ih.answer hin

end Traffic

variable {order : List κ} {buffer : Nat → ∀ i, β i}

/-- Between two processes nothing is lost, doubled or reordered. At every moment what the pushes
that have answered have put in, and the element of a push that has not answered and is already in
the ring, is what pops have answered with, the element of a pop that has not answered and is already
out of the ring, and what the ring holds. So what came out is an initial part of what was accepted,
up to the push that the producer is in; and when neither end is in a call, what is left of it is
what the ring holds. -/
theorem queue_traffic (hk : k < 64) (horder : ∀ i, i ∈ order)
    {h : List (Occurrence QueueEnd (QueueCall (∀ i, β i)) (QueueAnswer (∀ i, β i)))}
    {s : Threads QueueEnd (SpscQueue (∀ i, β i) k) (Progress κ β)}
    (hrun : (machine β k order).Run (fun _ e c => QueueEnd.mayCall e c) (initialised buffer) h s) :
    (∃ entering leaving : List (∀ i, β i), entering <+: (trafficIn h).offered.toList ∧
      leaving.length ≤ (trafficIn h).taking.toNat ∧
      (trafficIn h).pushed ++ entering = (trafficIn h).popped ++ leaving ++ s.memory.toList) ∧
      (trafficIn h).popped <+: (trafficIn h).pushed ++ (trafficIn h).offered.toList ∧
      (s.inside .producer = none → (trafficIn h).offered = none) ∧
      (s.inside .producer = none → s.inside .consumer = none →
        (trafficIn h).pushed = (trafficIn h).popped ++ s.memory.toList) := by
  -- The interleaved run follows an atomic one with the same history, in which the books balance.
  have hstart : BoundedFifo.nil = (initialised buffer : SpscQueue (∀ i, β i) k).fifo :=
    Subtype.ext (toList_initialised buffer).symm
  obtain ⟨u, -, hatomic, hmemory, hfits⟩ :=
    (outline hk horder).follows (g := ()) hstart (fun e => .idle e) hrun
  have hbooks := balanced_of_run rfl hatomic
  have hbalance := hbooks.balance
  -- Between a push that has taken effect and its answer, its element is in the queue and not yet
  -- counted as pushed.
  have hentering :
      (trafficIn h).owedPush (u.inside .producer) <+: (trafficIn h).offered.toList := by
    unfold Traffic.owedPush
    split
    · exact List.prefix_rfl
    · exact List.nil_prefix
  -- The same for a pop: its element has left the queue.
  have hleaving : ((trafficIn h).owedPop (u.inside .consumer)).length ≤
      (trafficIn h).taking.toNat := by
    unfold Traffic.owedPop
    split
    · split
      next htaking => rw [htaking, List.length_singleton, Bool.toNat_true]
      next => exact Nat.zero_le _
    · exact Nat.zero_le _
  have hmemory' : u.memory.1 = s.memory.toList := congrArg Subtype.val hmemory
  refine ⟨⟨_, _, hentering, hleaving, hmemory' ▸ hbalance⟩, ?_, fun hproducer => ?_,
    fun hproducer hconsumer => ?_⟩
  · refine List.IsPrefix.trans ?_ ((List.prefix_append_right_inj _).2 hentering)
    rw [hbalance, List.append_assoc]
    exact List.prefix_append _ _
  -- without a push under way nothing is offered
  · exact hbooks.closed (hproducer ▸ hfits .producer).idle_right
  -- between calls both counts are complete
  · have hp := (hproducer ▸ hfits .producer).idle_right
    have hc := (hconsumer ▸ hfits .consumer).idle_right
    rw [hp, hc, hmemory] at hbalance
    have hpushed : (trafficIn h).pushed ++ [] = (trafficIn h).popped ++ [] ++ s.memory.toList :=
      hbalance
    rwa [List.append_nil, List.append_nil] at hpushed

/-- Two elements pass through a ring of four cells. The second is half way in when the first comes
out. -/
theorem two_element_traffic :
    ∃ s : Threads QueueEnd (SpscQueue (Unit → Nat) 2) (Progress Unit fun _ => Nat),
      (machine (fun _ : Unit => Nat) 2 [()]).Run (fun _ e c => QueueEnd.mayCall e c)
        (initialised fun _ _ => 0)
        ([] ++ [.call .producer (.tryPush fun _ => 7)] ++ [.answer .producer (.pushed true)] ++
          [.call .consumer .tryPop] ++ [.call .producer (.tryPush fun _ => 8)] ++
          [.answer .consumer (.item (some fun _ => 7))] ++ [.answer .producer (.pushed true)]) s ∧
      [fun _ => 7, fun _ => 8] = [fun _ => 7] ++ s.memory.toList := by
  have hstart : (machine (fun _ : Unit => Nat) 2 [()]).Run (fun _ e c => QueueEnd.mayCall e c)
      (initialised fun _ _ => 0) [] ⟨_, fun _ => none⟩ := Machine.Run.start
  have hmayPush : ∀ item : Unit → Nat, QueueEnd.mayCall .producer (.tryPush item) := fun _ =>
    trivial
  have hmayPop : QueueEnd.mayCall .consumer (.tryPop : QueueCall (Unit → Nat)) := trivial
  have hpush := Machine.Run.call hstart rfl (hmayPush fun _ => 7)
  have hhead := Machine.Run.access (i := .producer) hpush rfl (.pushLoadsHead _ _)
  have hroom := Machine.Run.access (i := .producer) hhead rfl (.room (by decide))
  have hword := Machine.Run.access (i := .producer) hroom rfl (.storesWord _ _ _ _ _)
  have hpushed := Machine.Run.answer (i := .producer) hword rfl (.storesHead _ _ _)
  have hpop := Machine.Run.call hpushed rfl hmayPop
  have htail := Machine.Run.access (i := .consumer) hpop rfl (.popLoadsTail _ _)
  have hagain := Machine.Run.call htail rfl (hmayPush fun _ => 8)
  have hhead' := Machine.Run.access (i := .producer) hagain rfl (.pushLoadsHead _ _)
  have hroom' := Machine.Run.access (i := .producer) hhead' rfl (.room (by decide))
  have hword' := Machine.Run.access (i := .producer) hroom' rfl (.storesWord _ _ _ _ _)
  have hsome := Machine.Run.access (i := .consumer) hword' rfl (.something (by decide) fun _ => 0)
  have hload := Machine.Run.access (i := .consumer) hsome rfl (.loadsWord _ _ _ _ _ _)
  have hpopped := Machine.Run.answer (i := .consumer) hload rfl (.storesTail _ _ _)
  have hrun := Machine.Run.answer (i := .producer) hpopped rfl (.storesHead _ _ _)
  exact ⟨_, hrun,
    (queue_traffic (by decide) (fun _ => List.mem_singleton.2 rfl) hrun).2.2.2 rfl rfl⟩

end SpscQueue

end AccountServices
