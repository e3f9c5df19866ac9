import AccountServices.Common.Types
import AccountServices.Foundation.SharedObject
import AccountServices.Shm.QueueRefinement

/-!
# The queue between two processes

`shm/spsc_queue.hpp`, one access to the shared memory at a time. The producer and the consumer run
in two processes, and nothing stops one of them between two loads or stores of the other. An element
takes many words, each of which is copied by an access of its own. The queue is linearizable all the
same: the producer fills the cell at the head before it moves the head, and the consumer leaves a
cell before it moves the tail.
-/

set_option autoImplicit false

namespace AccountServices

open Foundation

/-- The two ends of a queue. -/
inductive QueueEnd where
  | producer | consumer
  deriving DecidableEq

namespace SpscQueue

/-! ## The accesses -/

variable {κ : Type} {β : κ → Type} {k : Nat}

/-- What a call has loaded so far, and the words that it has still to copy. `try_peek` is `try_pop`
that keeps the element. -/
inductive Progress (κ : Type) (β : κ → Type) where
  | push (item : ∀ i, β i)
  | pushFrom (item : ∀ i, β i) (head : Nat)
  | pushWords (item : ∀ i, β i) (head : Nat) (rest : List κ)
  | pop (keep : Bool)
  | popFrom (keep : Bool) (tail : Nat)
  | popWords (keep : Bool) (tail : Nat) (out : ∀ i, β i) (rest : List κ)
  | size
  | sizeFrom (head : Nat)
  | empty
  | emptyFromHead (head : Nat)
  | emptyFromTail (tail : Nat)
  | init
  | initHead

/-- How a call is entered. -/
def begin : QueueCall (∀ i, β i) → Progress κ β
  | .init => .init
  | .tryPush item => .push item
  | .tryPop => .pop false
  | .tryPeek => .pop true
  | .size => .size
  | .empty => .empty

/-- The store of one word of a cell. -/
def storeWord [DecidableEq κ] (q : SpscQueue (∀ i, β i) k) (position : Nat) (i : κ) (word : β i) :
    SpscQueue (∀ i, β i) k :=
  { q with buffer := Function.update q.buffer position (Function.update
    (q.buffer position) i word) }

/-- The store of the head. -/
def storeHead {α : Type} (q : SpscQueue α k) (head : Nat) : SpscQueue α k :=
  { q with head := (head + 1) &&& (2 ^ k - 1), head_lt := and_mask_lt _ }

/-- The store of the tail. -/
def storeTail {α : Type} (q : SpscQueue α k) (tail : Nat) : SpscQueue α k :=
  { q with tail := (tail + 1) &&& (2 ^ k - 1), tail_lt := and_mask_lt _ }

/-- The number that `size` computes from the positions that it has loaded. -/
def sizeOf (k head tail : Nat) : Nat :=
  ((UInt64.ofNat head - UInt64.ofNat tail + UInt64.ofNat (2 ^ k)) &&&
    (UInt64.ofNat (2 ^ k) - 1)).toNat

variable [DecidableEq κ]

/-- One access of a call. `order` is the order in which the words of an element are copied, and
`out` what the variable of the caller holds before. The two loads of `empty` may come in either
order. -/
inductive Access (order : List κ) : Progress κ β → SpscQueue (∀ i, β i) k →
    Progress κ β ⊕ QueueAnswer (∀ i, β i) → SpscQueue (∀ i, β i) k → Prop
  -- `try_push`
  | pushLoadsHead (item : ∀ i, β i) (q : SpscQueue (∀ i, β i) k) :
      Access order (.push item) q (.inl (.pushFrom item q.head)) q
  | full {item : ∀ i, β i} {head : Nat} {q : SpscQueue (∀ i, β i) k}
      (hfull : (head + 1) &&& (2 ^ k - 1) = q.tail) :
      Access order (.pushFrom item head) q (.inr (.pushed false)) q
  | room {item : ∀ i, β i} {head : Nat} {q : SpscQueue (∀ i, β i) k}
      (hroom : (head + 1) &&& (2 ^ k - 1) ≠ q.tail) :
      Access order (.pushFrom item head) q (.inl (.pushWords item head order)) q
  | storesWord (item : ∀ i, β i) (head : Nat) (i : κ) (rest : List κ) (q : SpscQueue (∀ i, β i) k) :
      Access order (.pushWords item head (i :: rest)) q (.inl (.pushWords item head rest))
        (q.storeWord head i (item i))
  | storesHead (item : ∀ i, β i) (head : Nat) (q : SpscQueue (∀ i, β i) k) :
      Access order (.pushWords item head []) q (.inr (.pushed true)) (q.storeHead head)
  -- `try_pop`, and `try_peek`, which leaves the tail
  | popLoadsTail (keep : Bool) (q : SpscQueue (∀ i, β i) k) :
      Access order (.pop keep) q (.inl (.popFrom keep q.tail)) q
  | nothing {keep : Bool} {tail : Nat} {q : SpscQueue (∀ i, β i) k} (hempty : tail = q.head) :
      Access order (.popFrom keep tail) q (.inr (.item none)) q
  | something {keep : Bool} {tail : Nat} {q : SpscQueue (∀ i, β i) k} (hsome : tail ≠ q.head)
      (out : ∀ i, β i) :
      Access order (.popFrom keep tail) q (.inl (.popWords keep tail out order)) q
  | loadsWord (keep : Bool) (tail : Nat) (out : ∀ i, β i) (i : κ) (rest : List κ)
      (q : SpscQueue (∀ i, β i) k) :
      Access order (.popWords keep tail out (i :: rest)) q
        (.inl (.popWords keep tail (Function.update out i (q.buffer tail i)) rest)) q
  | storesTail (tail : Nat) (out : ∀ i, β i) (q : SpscQueue (∀ i, β i) k) :
      Access order (.popWords false tail out []) q (.inr (.item (some out))) (q.storeTail tail)
  | peeked (tail : Nat) (out : ∀ i, β i) (q : SpscQueue (∀ i, β i) k) :
      Access order (.popWords true tail out []) q (.inr (.item (some out))) q
  -- `size`
  | sizeLoadsHead (q : SpscQueue (∀ i, β i) k) : Access order .size q (.inl (.sizeFrom q.head)) q
  | sizeLoadsTail (head : Nat) (q : SpscQueue (∀ i, β i) k) :
      Access order (.sizeFrom head) q (.inr (.number (sizeOf k head q.tail))) q
  -- `empty` compares the two indices, which may be loaded in either order
  | emptyLoadsHead (q : SpscQueue (∀ i, β i) k) :
      Access order .empty q (.inl (.emptyFromHead q.head)) q
  | emptyThenTail (head : Nat) (q : SpscQueue (∀ i, β i) k) :
      Access order (.emptyFromHead head) q (.inr (.flag (decide (head = q.tail)))) q
  | emptyLoadsTail (q : SpscQueue (∀ i, β i) k) :
      Access order .empty q (.inl (.emptyFromTail q.tail)) q
  | emptyThenHead (tail : Nat) (q : SpscQueue (∀ i, β i) k) :
      Access order (.emptyFromTail tail) q (.inr (.flag (decide (q.head = tail)))) q
  -- `init`
  | initStoresHead (q : SpscQueue (∀ i, β i) k) :
      Access order .init q (.inl .initHead) { q with head := 0, head_lt := Nat.two_pow_pos k }
  | initStoresTail (q : SpscQueue (∀ i, β i) k) :
      Access order .initHead q (.inr .done) { q with tail := 0, tail_lt := Nat.two_pow_pos k }

/-- The queue as its two ends see it. -/
def machine (β : κ → Type) (k : Nat) (order : List κ) :
    Machine (SpscQueue (∀ i, β i) k) (QueueCall (∀ i, β i)) (QueueAnswer (∀ i, β i)) where
  Local := Progress κ β
  enter := begin
  Access := Access order

end SpscQueue

/-- The calls of each end. The queue is set up before it is shared. -/
def QueueEnd.mayCall {α : Type} : QueueEnd → QueueCall α → Prop
  | .producer, .tryPush _ => True
  | .consumer, .tryPop => True
  | .consumer, .tryPeek => True
  | _, .size => True
  | _, .empty => True
  | _, _ => False

namespace SpscQueue

variable {κ : Type} {β : κ → Type} {k : Nat}

/-! ## Cells and positions -/

/-- What is in the cell at the head is not in the queue. -/
theorem toList_update_head {α : Type} (q : SpscQueue α k) (cell : α) :
    toList { q with buffer := Function.update q.buffer q.head cell } = q.toList := by
  have h₁ := q.head_lt
  have h₂ := q.tail_lt
  rw [toList, toList]
  refine List.map_congr_left fun i hi => ?_
  have hi' := List.mem_range.1 hi
  have hpos : (q.tail + i) &&& (2 ^ k - 1) ≠ q.head := by
    rw [size_eq] at hi'
    simp only at hi'
    rw [and_mask_eq (by split at hi' <;> omega)]
    split at hi' <;> split <;> omega
  exact Function.update_of_ne hpos _ _


/-! ## What each end knows -/

/-- `try_peek`, or `try_pop`. -/
def taking {α : Type} (keep : Bool) : QueueCall α := if keep then .tryPeek else .tryPop

/-- What an end knows of the ring in a call, and whether the call has taken effect. The producer
owns the head and the consumer the tail, so what one of them has loaded of its own position stays
true. -/
inductive Knows (q : SpscQueue (∀ i, β i) k) :
    QueueEnd → Option (Progress κ β × (QueueCall (∀ i, β i) ⊕ QueueAnswer (∀ i, β i))) → Prop
  | idle (e : QueueEnd) : Knows q e none
  | push (item : ∀ i, β i) : Knows q .producer (some (.push item, .inl (.tryPush item)))
  | pushFrom {item : ∀ i, β i} {head : Nat} (hhead : head = q.head) :
      Knows q .producer (some (.pushFrom item head, .inl (.tryPush item)))
  | pushWords {item : ∀ i, β i} {head : Nat} {rest : List κ} (hhead : head = q.head)
      (hroom : (q.head + 1) &&& (2 ^ k - 1) ≠ q.tail)
      (hstored : ∀ i, i ∉ rest → q.buffer q.head i = item i) :
      Knows q .producer (some (.pushWords item head rest, .inl (.tryPush item)))
  | pop (keep : Bool) : Knows q .consumer (some (.pop keep, .inl (taking keep)))
  | popFrom {keep : Bool} {tail : Nat} (htail : tail = q.tail) :
      Knows q .consumer (some (.popFrom keep tail, .inl (taking keep)))
  | popWords {keep : Bool} {tail : Nat} {out : ∀ i, β i} {rest : List κ} (htail : tail = q.tail)
      (hsome : q.tail ≠ q.head) (hloaded : ∀ i, i ∉ rest → out i = q.buffer q.tail i) :
      Knows q .consumer (some (.popWords keep tail out rest, .inl (taking keep)))
  | size (e : QueueEnd) : Knows q e (some (.size, .inl .size))
  | producerSize {head : Nat} (hhead : head = q.head) :
      Knows q .producer (some (.sizeFrom head, .inl .size))
  | consumerSize {head n : Nat} (hn : n = sizeOf k head q.tail) :
      Knows q .consumer (some (.sizeFrom head, .inr (.number n)))
  | empty (e : QueueEnd) : Knows q e (some (.empty, .inl .empty))
  | producerEmpty {head : Nat} (hhead : head = q.head) :
      Knows q .producer (some (.emptyFromHead head, .inl .empty))
  | consumerEmptied {head : Nat} {b : Bool} (hb : b = decide (head = q.tail)) :
      Knows q .consumer (some (.emptyFromHead head, .inr (.flag b)))
  | producerEmptied {tail : Nat} {b : Bool} (hb : b = decide (q.head = tail)) :
      Knows q .producer (some (.emptyFromTail tail, .inr (.flag b)))
  | consumerEmpty {tail : Nat} (htail : tail = q.tail) :
      Knows q .consumer (some (.emptyFromTail tail, .inl .empty))

variable {q : SpscQueue (∀ i, β i) k}
  {v : Option (Progress κ β × (QueueCall (∀ i, β i) ⊕ QueueAnswer (∀ i, β i)))}

/-- The consumer moves the tail of a ring that holds something. A ring that was not full does not
become full. -/
theorem Knows.tailMoves (h : q.Knows .producer v) (hsome : q.tail ≠ q.head) :
    (q.storeTail q.tail).Knows .producer v := by
  have hhead := q.head_lt
  have htail := q.tail_lt
  cases h with
  | idle => exact .idle _
  | push item => exact .push item
  | pushFrom hhead => exact .pushFrom hhead
  | pushWords hpos hroom hstored =>
      refine .pushWords hpos ?_ hstored
      simp only [storeTail]
      rw [and_mask_eq (by omega), and_mask_eq (by omega)]
      split <;> split <;> omega
  | size => exact .size _
  | producerSize hhead => exact .producerSize hhead
  | empty => exact .empty _
  | producerEmpty hhead => exact .producerEmpty hhead
  | producerEmptied hb => exact .producerEmptied hb

/-- The producer moves the head of a ring that is not full. A ring that held something still holds
it. -/
theorem Knows.headMoves (h : q.Knows .consumer v) (hroom : (q.head + 1) &&& (2 ^ k - 1) ≠ q.tail) :
    (q.storeHead q.head).Knows .consumer v := by
  cases h with
  | idle => exact .idle _
  | pop keep => exact .pop keep
  | popFrom htail => exact .popFrom htail
  | popWords htail hsome hloaded => exact .popWords htail hroom.symm hloaded
  | size => exact .size _
  | consumerSize hn => exact .consumerSize hn
  | empty => exact .empty _
  | consumerEmptied hb => exact .consumerEmptied hb
  | consumerEmpty htail => exact .consumerEmpty htail

variable [DecidableEq κ]

/-- The producer stores a word in the cell at the head, which is not the cell that the consumer
reads. -/
theorem Knows.wordStored (h : q.Knows .consumer v) (i : κ) (word : β i) :
    (q.storeWord q.head i word).Knows .consumer v := by
  cases h with
  | idle => exact .idle _
  | pop keep => exact .pop keep
  | popFrom htail => exact .popFrom htail
  | popWords htail hsome hloaded =>
      refine .popWords htail hsome fun j hj => ?_
      rw [hloaded j hj]
      exact (congrFun (Function.update_of_ne hsome _ q.buffer) j).symm
  | size => exact .size _
  | consumerSize hn => exact .consumerSize hn
  | empty => exact .empty _
  | consumerEmptied hb => exact .consumerEmptied hb
  | consumerEmpty htail => exact .consumerEmpty htail

/-! ## The outline -/

/-- What the queue is for. -/
def fifoSpec {α : Type} {capacity : Nat} (xs : BoundedFifo α capacity) (c : QueueCall α)
    (a : QueueAnswer α) (xs' : BoundedFifo α capacity) : Prop := xs.call c = (a, xs')

/-- A call of the ring is one of the FIFO. -/
theorem fifoSpec_call {α : Type} (hk : k < 64) {r r' : SpscQueue α k}
    {c : QueueCall α} {a : QueueAnswer α}
    (hcall : r.call c = (a, r')) : fifoSpec r.fifo c a r'.fifo := by
  rw [fifoSpec, refines_fifo hk r c, hcall]

omit [DecidableEq κ] in
/-- The other end knows what it knew when the ring has not changed. -/
theorem Knows.unchanged {e : QueueEnd} (e' : QueueEnd)
    (v : Option (Progress κ β × (QueueCall (∀ i, β i) ⊕ QueueAnswer (∀ i, β i)))) (_ : e' ≠ e)
    (h : q.Knows e' v) : q.Knows e' v := h

section Steps

variable {order : List κ} {q' : SpscQueue (∀ i, β i) k} {e : QueueEnd} {l l' : Progress κ β}
  {st : QueueCall (∀ i, β i) ⊕ QueueAnswer (∀ i, β i)} {a : QueueAnswer (∀ i, β i)}

/-- An access that moves a call on. -/
theorem Knows.access (hk : k < 64) (horder : ∀ i, i ∈ order) (h : q.Knows e (some (l, st)))
    (haccess : Access order l q (.inl l') q') :
    ∃ st', Machine.Takes fifoSpec q.fifo st q'.fifo st' ∧ q'.Knows e (some (l', st')) ∧
      ∀ e' v, e' ≠ e → q.Knows e' v → q'.Knows e' v := by
  cases haccess with
  | pushLoadsHead =>
      cases h with
      | push item => exact ⟨_, .nothing _ _, .pushFrom rfl, Knows.unchanged⟩
  | room hroom =>
      cases h with
      | pushFrom hhead =>
          subst hhead
          exact ⟨_, .nothing _ _, .pushWords rfl hroom fun i hi =>
            absurd (horder i) hi, Knows.unchanged⟩
  | storesWord item head i rest =>
      cases h with
      | pushWords hhead hroom hstored =>
          subst hhead
          have hsame : (q.storeWord q.head i (item i)).fifo = q.fifo :=
            Subtype.ext (toList_update_head q _)
          refine ⟨.inl (.tryPush item), ?_, .pushWords rfl hroom fun j hj =>
            ?_, fun e' v hne hv => ?_⟩
          · rw [hsame]
            exact .nothing _ _
          · show Function.update q.buffer q.head
                (Function.update (q.buffer q.head) i (item i)) q.head j = item j
            rw [Function.update_self]
            by_cases hij : j = i
            · subst hij
              rw [Function.update_self]
            · rw [Function.update_of_ne hij]
              exact hstored j fun hmem => (List.mem_cons.1 hmem).elim hij hj
          · cases e' with
            | producer => exact absurd rfl hne
            | consumer => exact hv.wordStored i (item i)
  | popLoadsTail keep =>
      cases h with
      | pop => exact ⟨_, .nothing _ _, .popFrom rfl, Knows.unchanged⟩
  | something hsome out =>
      cases h with
      | popFrom htail =>
          subst htail
          exact ⟨_, .nothing _ _, .popWords rfl hsome fun i hi =>
            absurd (horder i) hi, Knows.unchanged⟩
  | loadsWord keep tail out i rest =>
      cases h with
      | popWords htail hsome hloaded =>
          subst htail
          refine ⟨_, .nothing _ _, .popWords rfl hsome fun j hj => ?_, Knows.unchanged⟩
          by_cases hij : j = i
          · subst hij
            rw [Function.update_self]
          · rw [Function.update_of_ne hij]
            exact hloaded j fun hmem => (List.mem_cons.1 hmem).elim hij hj
  | sizeLoadsHead =>
      cases h with
      | size =>
          cases e with
          | producer => exact ⟨_, .nothing _ _, .producerSize rfl, Knows.unchanged⟩
          | consumer =>
              -- the consumer owns the tail, so the size is decided by the load of the head
              exact ⟨.inr (.number (sizeOf k q.head q.tail)), .effect (fifoSpec_call hk rfl),
                .consumerSize rfl, Knows.unchanged⟩
  | emptyLoadsHead =>
      cases h with
      | empty =>
          cases e with
          | producer => exact ⟨_, .nothing _ _, .producerEmpty rfl, Knows.unchanged⟩
          | consumer =>
              exact ⟨.inr (.flag (decide (q.head = q.tail))), .effect (fifoSpec_call hk rfl),
                .consumerEmptied rfl, Knows.unchanged⟩
  | emptyLoadsTail =>
      cases h with
      | empty =>
          cases e with
          | producer =>
              exact ⟨.inr (.flag (decide (q.head = q.tail))), .effect (fifoSpec_call hk rfl),
                .producerEmptied rfl, Knows.unchanged⟩
          | consumer => exact ⟨_, .nothing _ _, .consumerEmpty rfl, Knows.unchanged⟩
  | initStoresHead => cases h

/-- The access that ends a call. -/
theorem Knows.answer (hk : k < 64) (h : q.Knows e (some (l, st)))
    (haccess : Access order l q (.inr a) q') :
    Machine.Takes fifoSpec q.fifo st q'.fifo (.inr a) ∧ ∀ e' v, e' ≠ e →
      q.Knows e' v → q'.Knows e' v := by
  cases haccess with
  -- The push takes effect where it reads the tail and finds no room.
  | @full item head _ hfull =>
      cases h with
      | pushFrom hhead =>
          subst hhead
          have hcall : q.call (.tryPush item) = (.pushed false, q) := by
            rw [call, tryPush, if_pos hfull]
          exact ⟨.effect (fifoSpec_call hk hcall), Knows.unchanged⟩
  -- The push takes effect where it stores the head: the words of its element are all in the cell.
  | storesHead item head =>
      cases h with
      | pushWords hhead hroom hstored =>
          subst hhead
          have hcell : Function.update q.buffer q.head item = q.buffer := by
            have hitem : item = q.buffer q.head := funext fun i => (hstored i List.not_mem_nil).symm
            rw [hitem, Function.update_eq_self]
          have hcall : q.call (.tryPush item) = (.pushed true, q.storeHead q.head) := by
            rw [call, tryPush, if_neg hroom]
            simp only [storeHead, hcell]
          refine ⟨.effect (fifoSpec_call hk hcall), fun e' v hne hv => ?_⟩
          cases e' with
          | producer => exact absurd rfl hne
          | consumer => exact hv.headMoves hroom
  -- The queue was empty when the head was read.
  | @nothing keep tail _ hempty =>
      cases h with
      | popFrom htail =>
          have hnone : q.tail = q.head := htail.symm.trans hempty
          have hcall : q.call (taking keep) = (.item none, q) := by
            cases keep with
            | true => rw [taking, if_pos rfl, call, tryPeek, if_pos hnone]
            | false =>
                rw [taking, if_neg Bool.false_ne_true, call, tryPop, if_pos hnone]
          exact ⟨.effect (fifoSpec_call hk hcall), Knows.unchanged⟩
  -- The pop takes effect where it stores the tail: until then nobody may overwrite the cell.
  | storesTail tail out =>
      cases h with
      | popWords htail hsome hloaded =>
          subst htail
          have hout : out = q.buffer q.tail := funext fun i => hloaded i List.not_mem_nil
          have hcall : q.call (taking false) = (.item (some out), q.storeTail q.tail) := by
            rw [taking, if_neg Bool.false_ne_true, call, tryPop, if_neg hsome, hout]
            rfl
          refine ⟨.effect (fifoSpec_call hk hcall), fun e' v hne hv => ?_⟩
          cases e' with
          | producer => exact hv.tailMoves hsome
          | consumer => exact absurd rfl hne
  -- A peek takes effect with the last word that it reads.
  | peeked tail out =>
      cases h with
      | popWords htail hsome hloaded =>
          have hout : out = q.buffer q.tail := funext fun i => hloaded i List.not_mem_nil
          have hcall : q.call (taking true) = (.item (some out), q) := by
            rw [taking, if_pos rfl, call, tryPeek, if_neg hsome, hout]
          exact ⟨.effect (fifoSpec_call hk hcall), Knows.unchanged⟩
  -- The producer loaded its own index first, so its call takes effect now; that of the consumer did
  -- at the load of the head.
  | sizeLoadsTail head =>
      cases h with
      | producerSize hhead =>
          subst hhead
          exact ⟨.effect (fifoSpec_call hk rfl), Knows.unchanged⟩
      | consumerSize hn =>
          subst hn
          exact ⟨.nothing _ _, Knows.unchanged⟩
  | emptyThenTail head =>
      cases h with
      | producerEmpty hhead =>
          subst hhead
          exact ⟨.effect (fifoSpec_call hk rfl), Knows.unchanged⟩
      | consumerEmptied hb =>
          subst hb
          exact ⟨.nothing _ _, Knows.unchanged⟩
  | emptyThenHead tail =>
      cases h with
      | producerEmptied hb =>
          subst hb
          exact ⟨.nothing _ _, Knows.unchanged⟩
      | consumerEmpty htail =>
          subst htail
          exact ⟨.effect (fifoSpec_call hk rfl), Knows.unchanged⟩
  -- Before its last store the call has no answer.
  | initStoresTail => cases h

end Steps

/-- The outline: the FIFO is what is in the ring. -/
theorem outline (hk : k < 64) {order : List κ} (horder : ∀ i, i ∈ order) :
    Machine.Outline (machine β k order) (fun _ e c => e.mayCall c) fifoSpec
      (fun _ q xs (_ : Unit) => xs = q.fifo) (fun e v q _ _ => q.Knows e v) where
  call := by
    rintro h q xs ⟨⟩ e c hxs - hmay
    refine ⟨(), hxs, ?_, Knows.unchanged⟩
    cases c with
    | init => cases e <;> exact absurd hmay id
    | tryPush item =>
        cases e with
        | producer => exact .push item
        | consumer => exact absurd hmay id
    | tryPop =>
        cases e with
        | producer => exact absurd hmay id
        | consumer => exact .pop false
    | tryPeek =>
        cases e with
        | producer => exact absurd hmay id
        | consumer => exact .pop true
    | size => exact .size e
    | empty => exact .empty e
  access := by
    rintro h q xs ⟨⟩ e l st l' q' rfl hknows haccess
    obtain ⟨st', htakes, hknows', hothers⟩ := hknows.access hk horder haccess
    exact ⟨_, st', (), htakes, rfl, hknows', hothers⟩
  answer := by
    rintro h q xs ⟨⟩ e l st a q' rfl hknows haccess
    obtain ⟨htakes, hothers⟩ := hknows.answer hk haccess
    exact ⟨_, (), htakes, rfl, .idle e, hothers⟩

/-- The queue between two processes is a FIFO: however the loads and stores of the producer and of
the consumer interleave, and however an element is copied word by word, what the two ends see is
what they would see of a bounded FIFO whose calls take effect at once. -/
theorem queue_linearizable (hk : k < 64) {order : List κ} (horder : ∀ i, i ∈ order)
    (buffer : Nat → ∀ i, β i) :
    (machine β k order).Linearizable (fun _ e c => QueueEnd.mayCall e c)
      (initialised buffer) fifoSpec (BoundedFifo.nil : BoundedFifo (∀ i, β i) (2 ^ k - 1)) := by
  have hstart : BoundedFifo.nil = (initialised buffer : SpscQueue (∀ i, β i) k).fifo :=
    Subtype.ext (toList_initialised buffer).symm
  exact (outline hk horder).linearizable (g := ()) hstart fun e => .idle e

/-- The queue of order indices, whose elements are single words. -/
theorem index_queue_linearizable :
    ((18 : Nat) < 64 ∧ ∀ i : Unit, i ∈ [()]) ∧
      (machine (fun _ : Unit => OrderIndex) 18 [()]).Linearizable
        (fun _ e c => QueueEnd.mayCall e c)
        (initialised fun _ _ => 0) fifoSpec
          (BoundedFifo.nil : BoundedFifo (Unit → OrderIndex) (2 ^ 18 - 1)) :=
  ⟨⟨by decide, fun _ => List.mem_singleton.2 rfl⟩,
    queue_linearizable (by decide) (fun _ => List.mem_singleton.2 rfl) fun _ _ => 0⟩

end SpscQueue

end AccountServices
