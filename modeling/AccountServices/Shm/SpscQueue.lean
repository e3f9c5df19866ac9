import Mathlib.Algebra.Ring.Nat
import Mathlib.Data.List.Basic
import Mathlib.Logic.Function.Basic

/-!
# The single-producer single-consumer queue

`shm/spsc_queue.hpp`: a ring of `2 ^ k` cells with a head, where the producer writes, and a tail,
where the consumer reads. Positions wrap by a mask, and one cell stays free so that a full ring can
be told from an empty one. `toList` reads the ring as the list of its elements, oldest first; a
successful push appends to that list and a successful pop removes its head.
-/

set_option autoImplicit false

namespace AccountServices

/-- `spsc_queue<T, Capacity>` with `Capacity = 2 ^ k`. -/
structure SpscQueue (α : Type) (k : Nat) where
  head : Nat
  tail : Nat
  buffer : Nat → α
  head_lt : head < 2 ^ k
  tail_lt : tail < 2 ^ k

namespace SpscQueue

variable {α : Type} {k : Nat}

theorem and_mask_lt (x : Nat) : x &&& (2 ^ k - 1) < 2 ^ k := by
  rw [Nat.and_two_pow_sub_one_eq_mod]
  exact Nat.mod_lt _ (Nat.two_pow_pos k)

/-- `init`. -/
def init (d : α) : SpscQueue α k where
  head := 0
  tail := 0
  buffer := fun _ => d
  head_lt := Nat.two_pow_pos k
  tail_lt := Nat.two_pow_pos k

/-- A queue without a free cell. -/
def filled (d : α) : SpscQueue α k where
  head := 2 ^ k - 1
  tail := 0
  buffer := fun _ => d
  head_lt := Nat.sub_lt (Nat.two_pow_pos k) Nat.one_pos
  tail_lt := Nat.two_pow_pos k

/-- `try_push`. -/
def tryPush (q : SpscQueue α k) (item : α) : Bool × SpscQueue α k :=
  if (q.head + 1) &&& (2 ^ k - 1) = q.tail then (false, q)
  else
    (true,
      { q with
        head := (q.head + 1) &&& (2 ^ k - 1)
        buffer := Function.update q.buffer q.head item
        head_lt := and_mask_lt _ })

/-- `try_pop`. -/
def tryPop (q : SpscQueue α k) : Option α × SpscQueue α k :=
  if q.tail = q.head then (none, q)
  else (some (q.buffer q.tail),
    { q with tail := (q.tail + 1) &&& (2 ^ k - 1), tail_lt := and_mask_lt _ })

/-- `size`. -/
def size (q : SpscQueue α k) : Nat := (q.head + 2 ^ k - q.tail) &&& (2 ^ k - 1)

/-- The elements in the ring, oldest first. -/
def toList (q : SpscQueue α k) : List α :=
  (List.range q.size).map fun i => q.buffer ((q.tail + i) &&& (2 ^ k - 1))

/-- The masked position of a number below twice the capacity. -/
theorem and_mask_eq {x : Nat} (h : x < 2 * 2 ^ k) :
    x &&& (2 ^ k - 1) = if x < 2 ^ k then x else x - 2 ^ k := by
  rw [Nat.and_two_pow_sub_one_eq_mod]
  split
  case isTrue hx => exact Nat.mod_eq_of_lt hx
  case isFalse hx =>
    rw [Nat.mod_eq_sub_mod (by omega)]
    exact Nat.mod_eq_of_lt (by omega)

theorem size_eq (q : SpscQueue α k) :
    q.size = if q.tail ≤ q.head then q.head - q.tail else q.head + 2 ^ k - q.tail := by
  have h₁ := q.head_lt
  have h₂ := q.tail_lt
  rw [size, and_mask_eq (by omega)]
  split <;> split <;> omega

theorem tryPush_true_iff (q : SpscQueue α k) (item : α) :
    (q.tryPush item).1 = true ↔ (q.head + 1) &&& (2 ^ k - 1) ≠ q.tail := by
  rw [tryPush]
  split <;> simp_all

/-- A push that is refused changes nothing. -/
theorem tryPush_of_false {q : SpscQueue α k} {item : α} (h : (q.tryPush item).1 = false) :
    (q.tryPush item).2 = q := by
  by_cases hfull : (q.head + 1) &&& (2 ^ k - 1) = q.tail
  · rw [tryPush, if_pos hfull]
  · rw [(tryPush_true_iff q item).2 hfull] at h
    exact absurd h (by decide)

/-- A push that is accepted appends its element. -/
theorem toList_tryPush {q : SpscQueue α k} {item : α} (h : (q.tryPush item).1 = true) :
    (q.tryPush item).2.toList = q.toList ++ [item] := by
  have hne := (tryPush_true_iff q item).1 h
  have h₁ := q.head_lt
  have h₂ := q.tail_lt
  have hhead : (q.tryPush item).2.head = (q.head + 1) &&& (2 ^ k - 1) := by
    rw [tryPush, if_neg hne]
  have hbound : q.size < 2 ^ k := by
    rw [size_eq]
    split <;> omega
  have htail : (q.tryPush item).2.tail = q.tail := by
    rw [tryPush, if_neg hne]
  -- The size grows by one, whether or not the head wraps.
  have hsize : (q.tryPush item).2.size = q.size + 1 := by
    rw [size_eq (q.tryPush item).2, size_eq q, hhead, htail]
    rw [and_mask_eq (by omega)] at hne ⊢
    by_cases hwrap : q.head + 1 < 2 ^ k
    · rw [if_pos hwrap] at hne ⊢
      split <;> split <;> omega
    · rw [if_neg hwrap] at hne ⊢
      split <;> split <;> omega
  have hbuf : (q.tryPush item).2.buffer = Function.update q.buffer q.head item := by
    rw [tryPush, if_neg hne]
  rw [toList, hsize, htail, hbuf, List.range_succ, List.map_append, List.map_singleton]
  -- The new element is at the end of the list; none of the older ones lies in its cell.
  have hlast : (q.tail + q.size) &&& (2 ^ k - 1) = q.head := by
    rw [and_mask_eq (by omega), size_eq]
    split <;> split <;> omega
  rw [hlast, Function.update_self, toList]
  congr 1
  refine List.map_congr_left fun i hi => ?_
  have hi' := List.mem_range.1 hi
  have hpos : (q.tail + i) &&& (2 ^ k - 1) ≠ q.head := by
    rw [and_mask_eq (by omega)]
    rw [size_eq] at hi'
    split at hi' <;> split <;> omega
  rw [Function.update_of_ne hpos]

/-- A pop returns and removes the oldest element. -/
theorem toList_tryPop {q : SpscQueue α k} {item : α} (h : q.tryPop.1 = some item) :
    q.toList = item :: q.tryPop.2.toList := by
  have h₁ := q.head_lt
  have h₂ := q.tail_lt
  have hne : q.tail ≠ q.head := by
    intro he
    simp [tryPop, he] at h
  have hitem : q.buffer q.tail = item := by simpa [tryPop, hne] using h
  have htail : q.tryPop.2.tail = (q.tail + 1) &&& (2 ^ k - 1) := by
    rw [tryPop, if_neg hne]
  have hhead : q.tryPop.2.head = q.head := by
    rw [tryPop, if_neg hne]
  -- The size falls by one, whether or not the tail wraps.
  have hsize : q.size = q.tryPop.2.size + 1 := by
    rw [size_eq q, size_eq q.tryPop.2, hhead, htail, and_mask_eq (by omega)]
    by_cases hwrap : q.tail + 1 < 2 ^ k
    · rw [if_pos hwrap]
      split <;> split <;> omega
    · rw [if_neg hwrap]
      split <;> split <;> omega
  have hbuf : q.tryPop.2.buffer = q.buffer := by
    rw [tryPop, if_neg hne]
  have hzero : (q.tail + 0) &&& (2 ^ k - 1) = q.tail := by
    rw [and_mask_eq (by omega)]
    split <;> omega
  have hbound : q.size < 2 ^ k := by
    rw [size_eq]
    split <;> omega
  rw [toList, hsize, List.range_succ_eq_map, List.map_cons, hzero, hitem, toList, htail, hbuf,
    List.map_map]
  congr 1
  -- The elements behind the first one are read at the same places from the next tail.
  refine List.map_congr_left fun i hi => ?_
  have hi' := List.mem_range.1 hi
  have hpos : (q.tail + (i + 1)) &&& (2 ^ k - 1) =
      ((q.tail + 1) &&& (2 ^ k - 1)) + i &&& (2 ^ k - 1) := by
    rw [Nat.and_two_pow_sub_one_eq_mod, Nat.and_two_pow_sub_one_eq_mod,
      Nat.and_two_pow_sub_one_eq_mod, Nat.mod_add_mod]
    congr 1
    omega
  simp only [Function.comp_apply, Nat.succ_eq_add_one, hpos]

end SpscQueue

end AccountServices
