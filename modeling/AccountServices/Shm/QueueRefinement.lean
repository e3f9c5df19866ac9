import AccountServices.Foundation.Refinement
import AccountServices.Shm.SpscQueue

/-!
# The ring is a bounded FIFO

What the ring is for: a list of at most `Capacity - 1` elements that grows at its end and shrinks at
its head. Every call of `spsc_queue` does to the list that the ring stands for what the call does to
the FIFO, with the same answer, so the two cannot be told apart by any sequence of calls, however
often the positions have wrapped.
-/

set_option autoImplicit false

namespace AccountServices

open Foundation

/-- A call of `spsc_queue`. -/
inductive QueueCall (α : Type) where
  | init
  | tryPush (item : α)
  | tryPop
  | tryPeek
  | size
  | empty

/-- What a call returns; an item that is handed out only on success is an option. -/
inductive QueueAnswer (α : Type) where
  | done
  | pushed (ok : Bool)
  | item (out : Option α)
  | number (n : Nat)
  | flag (b : Bool)

/-- The call has failed. -/
def QueueAnswer.failed {α : Type} : QueueAnswer α → Bool
  | .pushed ok => !ok
  | .item out => out.isNone
  | _ => false

namespace SpscQueue

variable {α : Type} {k : Nat}

/-- The queue that `init` leaves: the cells keep what they held. -/
def initialised (buffer : Nat → α) : SpscQueue α k where
  head := 0
  tail := 0
  buffer := buffer
  head_lt := Nat.two_pow_pos k
  tail_lt := Nat.two_pow_pos k

/-- `try_peek`. -/
def tryPeek (q : SpscQueue α k) : Option α :=
  if q.tail = q.head then none else some (q.buffer q.tail)

/-- `size` in the arithmetic of `std::size_t`, where the difference may wrap. -/
def wrappedSize (q : SpscQueue α k) : UInt64 :=
  (UInt64.ofNat q.head - UInt64.ofNat q.tail + UInt64.ofNat (2 ^ k)) &&& (UInt64.ofNat (2 ^ k) - 1)

/-- `empty`. -/
def isEmpty (q : SpscQueue α k) : Bool := decide (q.head = q.tail)

/-- A call on the queue. -/
def call (q : SpscQueue α k) : QueueCall α → QueueAnswer α × SpscQueue α k
  | .init => (.done, initialised q.buffer)
  | .tryPush item => (.pushed (q.tryPush item).1, (q.tryPush item).2)
  | .tryPop => (.item q.tryPop.1, q.tryPop.2)
  | .tryPeek => (.item q.tryPeek, q)
  | .size => (.number q.wrappedSize.toNat, q)
  | .empty => (.flag q.isEmpty, q)

/-! ## The list that the ring stands for -/

theorem length_toList (q : SpscQueue α k) : q.toList.length = q.size := by
  rw [toList, List.length_map, List.length_range]

theorem size_lt (q : SpscQueue α k) : q.size < 2 ^ k := and_mask_lt _

theorem toList_initialised (buffer : Nat → α) :
    (initialised buffer : SpscQueue α k).toList = [] := by
  have hsize : (initialised buffer : SpscQueue α k).size = 0 := by
    rw [size_eq]
    simp [initialised]
  rw [toList, hsize]
  rfl

/-- The ring is full exactly when its list has one element less than it has cells. -/
theorem tryPush_iff_length (q : SpscQueue α k) (item : α) :
    (q.tryPush item).1 = true ↔ q.toList.length < 2 ^ k - 1 := by
  have hhead := q.head_lt
  have htail := q.tail_lt
  have hpos := Nat.two_pow_pos k
  rw [tryPush_true_iff, length_toList, size_eq, and_mask_eq (by omega)]
  by_cases hwrap : q.head + 1 < 2 ^ k
  · rw [if_pos hwrap]
    split <;> omega
  · rw [if_neg hwrap]
    split <;> omega

theorem head_eq_tail_iff (q : SpscQueue α k) : q.tail = q.head ↔ q.toList = [] := by
  have hhead := q.head_lt
  have htail := q.tail_lt
  rw [← List.length_eq_zero_iff, length_toList, size_eq]
  split <;> omega

/-- How many elements wait in the ring, as a difference of the indices. -/
def occupied (q : SpscQueue α k) : Nat :=
  if q.tail ≤ q.head then q.head - q.tail else q.head + 2 ^ k - q.tail

theorem occupied_eq (q : SpscQueue α k) : q.occupied = q.toList.length := by
  rw [length_toList, size_eq, occupied]

theorem occupied_of_tryPop {q q' : SpscQueue α k} {item : α} (h : q.tryPop = (some item, q')) :
    q'.occupied < q.occupied := by
  have hpop : q.tryPop.1 = some item := congrArg Prod.fst h
  rw [occupied_eq, occupied_eq, toList_tryPop hpop, h]
  exact Nat.lt_succ_self _

theorem tryPop_of_nil {q : SpscQueue α k} (h : q.toList = []) : q.tryPop = (none, q) := by
  rw [tryPop, if_pos (q.head_eq_tail_iff.2 h)]

/-- The oldest element of the ring is the head of its list. -/
theorem head?_toList (q : SpscQueue α k) : q.tryPop.1 = q.toList.head? ∧
    q.tryPop.2.toList = q.toList.tail := by
  cases hpop : q.tryPop.1 with
  | none =>
      have hnil : q.toList = [] := by
        rw [← head_eq_tail_iff]
        by_contra hne
        rw [tryPop, if_neg hne] at hpop
        exact absurd hpop (by simp)
      rw [tryPop_of_nil hnil, hnil]
      exact ⟨rfl, rfl⟩
  | some item =>
      have hcons := toList_tryPop hpop
      rw [hcons]
      exact ⟨rfl, rfl⟩

theorem tryPeek_eq (q : SpscQueue α k) : q.tryPeek = q.tryPop.1 := by
  simp only [tryPeek, tryPop]
  split
  · rfl
  · rfl

/-- The wrapped difference is the number of elements. -/
theorem wrappedSize_toNat (hk : k < 64) (q : SpscQueue α k) : q.wrappedSize.toNat = q.size := by
  have hhead := q.head_lt
  have htail := q.tail_lt
  have hpos := Nat.two_pow_pos k
  have hhalf : 2 ^ k ≤ 2 ^ 63 := Nat.pow_le_pow_right (by decide) (by omega)
  have hword : ∀ n ≤ 2 ^ k, (UInt64.ofNat n).toNat = n := by
    intro n hn
    rw [UInt64.toNat_ofNat', Nat.mod_eq_of_lt (by omega)]
  have hcells := hword (2 ^ k) (Nat.le_refl _)
  have hmask : (UInt64.ofNat (2 ^ k) - 1).toNat = 2 ^ k - 1 := by
    rw [UInt64.toNat_sub_of_le _ _ (by rw [UInt64.le_iff_toNat_le, hcells]; exact hpos), hcells]
    rfl
  have hhead' := hword q.head (by omega)
  have htail' := hword q.tail (by omega)
  -- the word size is a multiple of the number of cells, so the mask forgets the wrap
  have hdvd : 2 ^ k ∣ 2 ^ 64 := Nat.pow_dvd_pow 2 (by omega)
  rw [wrappedSize, UInt64.toNat_and, hmask, UInt64.toNat_add, UInt64.toNat_sub, hcells, hhead',
    htail', size, Nat.and_two_pow_sub_one_eq_mod, Nat.and_two_pow_sub_one_eq_mod,
    Nat.mod_mod_of_dvd _ hdvd, Nat.add_mod_right, Nat.mod_mod_of_dvd _ hdvd]
  obtain ⟨c, hc⟩ := hdvd
  have hsplit : 2 ^ 64 - q.tail + q.head = q.head + 2 ^ k - q.tail + 2 ^ k * (c - 1) := by
    have hone : 1 ≤ c := by
      rcases Nat.eq_zero_or_pos c with hzero | hge
      · rw [hzero] at hc
        omega
      · exact hge
    have hmul : 2 ^ k * (c - 1) + 2 ^ k = 2 ^ 64 := by
      rw [hc, ← Nat.mul_succ]
      congr 1
      omega
    omega
  rw [hsplit, Nat.add_mul_mod_self_left]

end SpscQueue

/-! ## The FIFO -/

/-- A list of at most `capacity` elements. -/
def BoundedFifo (α : Type) (capacity : Nat) : Type := { xs : List α // xs.length ≤ capacity }

namespace BoundedFifo

variable {α : Type} {capacity : Nat}

def nil : BoundedFifo α capacity := ⟨[], Nat.zero_le capacity⟩

/-- The list with one more element, if there is room for it. -/
def push (xs : BoundedFifo α capacity) (item : α) : Bool × BoundedFifo α capacity :=
  if h : xs.1.length < capacity then
    (true, ⟨xs.1 ++ [item], by rw [List.length_append]; exact h⟩)
  else (false, xs)

/-- The list without its head. -/
def pop (xs : BoundedFifo α capacity) : BoundedFifo α capacity :=
  ⟨xs.1.tail, by have := xs.2; simp only [List.length_tail]; omega⟩

/-- A call on the FIFO. -/
def call (xs : BoundedFifo α capacity) : QueueCall α → QueueAnswer α × BoundedFifo α capacity
  | .init => (.done, nil)
  | .tryPush item => (.pushed (xs.push item).1, (xs.push item).2)
  | .tryPop => (.item xs.1.head?, xs.pop)
  | .tryPeek => (.item xs.1.head?, xs)
  | .size => (.number xs.1.length, xs)
  | .empty => (.flag (decide (xs.1.length = 0)), xs)

end BoundedFifo

namespace SpscQueue

variable {α : Type} {k : Nat}

/-- The FIFO that a ring stands for. -/
def fifo (q : SpscQueue α k) : BoundedFifo α (2 ^ k - 1) :=
  ⟨q.toList, by have := q.size_lt; rw [length_toList]; omega⟩

theorem fifo_tryPush (q : SpscQueue α k) (item : α) :
    q.fifo.push item = ((q.tryPush item).1, (q.tryPush item).2.fifo) := by
  by_cases hroom : q.toList.length < 2 ^ k - 1
  · have hok := (q.tryPush_iff_length item).2 hroom
    have hpush : q.fifo.push item = (true, ⟨q.toList ++ [item], by simp; omega⟩) := dif_pos hroom
    rw [hpush, hok]
    refine Prod.ext rfl (Subtype.ext ?_)
    exact (toList_tryPush hok).symm
  · have hnot : (q.tryPush item).1 = false := by
      rw [← Bool.not_eq_true, tryPush_iff_length]
      exact hroom
    have hpush : q.fifo.push item = (false, q.fifo) := dif_neg hroom
    rw [hpush, hnot, tryPush_of_false hnot]

/-- Every call of the ring is the call of its FIFO. -/
theorem refines_fifo (hk : k < 64) :
    Refines (SpscQueue.call (α := α) (k := k)) (BoundedFifo.call (α := α)) SpscQueue.fifo := by
  intro q c
  cases c with
  | init => exact Prod.ext rfl (Subtype.ext (toList_initialised q.buffer).symm)
  | tryPush item =>
      simp only [BoundedFifo.call, call, fifo_tryPush]
  | tryPop =>
      obtain ⟨hhead, htail⟩ := q.head?_toList
      refine Prod.ext ?_ (Subtype.ext htail.symm)
      simp only [BoundedFifo.call, call, hhead, fifo]
  | tryPeek =>
      simp only [BoundedFifo.call, call, tryPeek_eq, q.head?_toList.1, fifo]
  | size =>
      simp only [BoundedFifo.call, call, wrappedSize_toNat hk, fifo, length_toList]
  | empty =>
      have hiff : q.toList.length = 0 ↔ q.head = q.tail := by
        rw [List.length_eq_zero_iff, ← head_eq_tail_iff]
        exact eq_comm
      simp only [BoundedFifo.call, call, isEmpty, fifo, hiff]

/-- A call that fails leaves the ring as it was. -/
theorem call_of_failed {q : SpscQueue α k} {c : QueueCall α} (h : (q.call c).1.failed = true) :
    (q.call c).2 = q := by
  cases c with
  | init => exact Bool.noConfusion h
  | tryPush item => exact tryPush_of_false (by simpa [call, QueueAnswer.failed] using h)
  | tryPop =>
      have hnone : q.tryPop.1 = none := by simpa [call, QueueAnswer.failed] using h
      have hnil : q.toList = [] := by
        rw [← List.head?_eq_none_iff, ← q.head?_toList.1]
        exact hnone
      simp only [call, tryPop_of_nil hnil]
  | tryPeek => rfl
  | size => rfl
  | empty => rfl

/-- The ring behaves as a bounded FIFO: from an initialised queue every sequence of calls gets the
answers of the FIFO and leaves its elements in order, and a call that fails after any of these
sequences changes nothing. -/
theorem queue_refines_fifo (hk : k < 64) (buffer : Nat → α) (calls : List (QueueCall α)) :
    (answers SpscQueue.call (initialised buffer : SpscQueue α k) calls).1 =
        (answers BoundedFifo.call (BoundedFifo.nil : BoundedFifo α (2 ^ k - 1)) calls).1 ∧
      (answers SpscQueue.call (initialised buffer : SpscQueue α k) calls).2.toList =
        (answers BoundedFifo.call (BoundedFifo.nil : BoundedFifo α (2 ^ k - 1)) calls).2.1 ∧
      ∀ c, ((answers SpscQueue.call (initialised buffer : SpscQueue α k) calls).2.call c).1.failed =
        true → ((answers SpscQueue.call (initialised buffer : SpscQueue α k) calls).2.call c).2 =
          (answers SpscQueue.call (initialised buffer : SpscQueue α k) calls).2 := by
  have hstart : (initialised buffer : SpscQueue α k).fifo = BoundedFifo.nil :=
    Subtype.ext (toList_initialised buffer)
  have hrun := (refines_fifo hk).answers (initialised buffer : SpscQueue α k) calls
  rw [hstart] at hrun
  rw [hrun]
  exact ⟨rfl, rfl, fun c hfailed => call_of_failed hfailed⟩

/-- Three elements pass through a ring of two cells. -/
theorem queue_refines_fifo_wrapping :
    (answers SpscQueue.call (initialised (fun _ => 0) : SpscQueue Nat 1)
        [.tryPush 5, .tryPush 6, .tryPop, .tryPush 7, .size, .tryPop, .tryPop]).1 =
      [.pushed true, .pushed false, .item (some 5), .pushed true, .number 1,
        .item (some 7), .item none] :=
  (queue_refines_fifo (by decide) (fun _ => 0)
    [.tryPush 5, .tryPush 6, .tryPop, .tryPush 7, .size, .tryPop, .tryPop]).1.trans rfl

end SpscQueue

end AccountServices
