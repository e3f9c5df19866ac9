import Mathlib.Algebra.BigOperators.Group.List.Basic
import Mathlib.Algebra.Ring.Nat
import Mathlib.Data.List.Basic

/-!
# Frames in a memory of bytes

Numbers are stored with the least significant byte first. A frame is a record that says how long it
is, and frames that lie one behind another are found again by reading them in turn from the first:
`scan` stops at the address behind the last one and has then seen every frame once, with its address
(`scan_frames`).
-/

set_option autoImplicit false

namespace AccountServices.Foundation

/-! ## Numbers as bytes -/

/-- `n` in `k` bytes. -/
def leBytes : Nat → Nat → List UInt8
  | 0, _ => []
  | k + 1, n => UInt8.ofNat n :: leBytes k (n / 256)

/-- The number that the bytes stand for. -/
def ofLeBytes : List UInt8 → Nat
  | [] => 0
  | byte :: rest => byte.toNat + 256 * ofLeBytes rest

@[simp] theorem length_leBytes (k n : Nat) : (leBytes k n).length = k := by
  induction k generalizing n with
  | zero => rfl
  | succ k ih => rw [leBytes, List.length_cons, ih]

theorem ofLeBytes_leBytes {k n : Nat} (h : n < 256 ^ k) : ofLeBytes (leBytes k n) = n := by
  induction k generalizing n with
  | zero =>
      rw [Nat.pow_zero, Nat.lt_one_iff] at h
      exact h.symm
  | succ k ih =>
      have hquot : n / 256 < 256 ^ k := by
        rw [Nat.div_lt_iff_lt_mul (by decide), ← Nat.pow_succ]
        exact h
      rw [leBytes, ofLeBytes, ih hquot, UInt8.toNat_ofNat']
      exact Nat.mod_add_div n 256

/-! ## Memory -/

/-- A memory of bytes. -/
abbrev Memory := Nat → UInt8

namespace Memory

variable {m : Memory} {a b n k : Nat} {bytes : List UInt8}

/-- The bytes from an address on. -/
def read (m : Memory) (a n : Nat) : List UInt8 := (List.range n).map fun i => m (a + i)

/-- The memory with the bytes at an address. -/
def write (m : Memory) (a : Nat) (bytes : List UInt8) : Memory :=
  fun i => if a ≤ i then (bytes[i - a]?).getD (m i) else m i

@[simp] theorem length_read (m : Memory) (a n : Nat) : (m.read a n).length = n := by
  rw [read, List.length_map, List.length_range]

theorem read_add (m : Memory) (a n k : Nat) :
    m.read a (n + k) = m.read a n ++ m.read (a + n) k := by
  rw [read, read, read, List.range_add, List.map_append, List.map_map]
  congr 1
  refine List.map_congr_left fun i _ => ?_
  rw [Function.comp_apply, Nat.add_assoc]

theorem read_write_self (m : Memory) (a : Nat) (bytes : List UInt8) :
    (m.write a bytes).read a bytes.length = bytes := by
  refine List.ext_getElem (length_read _ _ _) fun i hi _ => ?_
  rw [length_read] at hi
  simp only [read, List.getElem_map, List.getElem_range, write]
  rw [if_pos (Nat.le_add_right a i), Nat.add_sub_cancel_left, List.getElem?_eq_getElem hi,
    Option.getD_some]

/-- A write leaves the bytes in front of it and behind it alone. -/
theorem read_write_apart (h : b + n ≤ a ∨ a + bytes.length ≤ b) :
    (m.write a bytes).read b n = m.read b n := by
  refine List.map_congr_left fun i hi => ?_
  rw [List.mem_range] at hi
  rw [write]
  split
  next hle =>
    rcases h with hbefore | hbehind
    · omega
    · rw [List.getElem?_eq_none (by omega), Option.getD_none]
  next => rfl

/-- Two writes, one behind the other, are one. -/
theorem write_append (m : Memory) (a : Nat) (bytes rest : List UInt8) :
    (m.write a bytes).write (a + bytes.length) rest = m.write a (bytes ++ rest) := by
  funext i
  simp only [write]
  by_cases hfirst : i < a + bytes.length
  · rw [if_neg (Nat.not_le.mpr hfirst)]
    by_cases hin : a ≤ i
    · rw [if_pos hin, if_pos hin, List.getElem?_append_left (by omega)]
    · rw [if_neg hin, if_neg hin]
  · rw [if_pos (by omega), if_pos (by omega), if_pos (by omega),
      List.getElem?_append_right (by omega),
      List.getElem?_eq_none (l := bytes) (by omega), Option.getD_none, Nat.sub_add_eq]

end Memory

/-! ## Frames -/

/-- A format of frames: the bytes of a frame, and the frame that is read at an address. -/
structure FrameFormat (α : Type) where
  encode : α → List UInt8
  size : α → Nat
  frameAt : Memory → Nat → α
  length_encode : ∀ x, (encode x).length = size x
  size_pos : ∀ x, 0 < size x
  frameAt_of_read : ∀ (m : Memory) (a : Nat) (x : α), m.read a (size x) = encode x → frameAt m a = x

namespace FrameFormat

variable {α : Type} (f : FrameFormat α) {m : Memory} {a : Nat} {xs ys : List α} {x : α}

/-- The bytes of frames that lie one behind another. -/
def encodeAll (xs : List α) : List UInt8 := xs.flatMap f.encode

/-- Their number of bytes. -/
def total (xs : List α) : Nat := (xs.map f.size).sum

/-- The frames with their addresses. -/
def placed : Nat → List α → List (Nat × α)
  | _, [] => []
  | a, x :: xs => (a, x) :: placed (a + f.size x) xs

@[simp] theorem total_nil : f.total [] = 0 := rfl

@[simp] theorem total_cons (x : α) (xs : List α) : f.total (x :: xs) = f.size x + f.total xs := by
  rw [total, List.map_cons, List.sum_cons, total]

@[simp] theorem total_append (xs ys : List α) : f.total (xs ++ ys) = f.total xs + f.total ys := by
  rw [total, List.map_append, List.sum_append, total, total]

theorem length_encodeAll (xs : List α) : (f.encodeAll xs).length = f.total xs := by
  rw [encodeAll, List.length_flatMap, total]
  congr 1
  exact List.map_congr_left fun x _ => f.length_encode x

theorem length_le_total (xs : List α) : xs.length ≤ f.total xs := by
  induction xs with
  | nil => exact Nat.zero_le 0
  | cons x xs ih =>
      have hpos := f.size_pos x
      rw [List.length_cons, total_cons]
      omega

theorem encodeAll_append (xs ys : List α) :
    f.encodeAll (xs ++ ys) = f.encodeAll xs ++ f.encodeAll ys :=
  List.flatMap_append

theorem placed_append (a : Nat) (xs ys : List α) :
    f.placed a (xs ++ ys) = f.placed a xs ++ f.placed (a + f.total xs) ys := by
  induction xs generalizing a with
  | nil => rfl
  | cons x xs ih =>
      rw [List.cons_append, placed, ih, placed, total_cons, Nat.add_assoc, List.cons_append]

theorem length_placed (a : Nat) (xs : List α) : (f.placed a xs).length = xs.length := by
  induction xs generalizing a with
  | nil => rfl
  | cons x xs ih => rw [placed, List.length_cons, List.length_cons, ih]

theorem map_snd_placed (a : Nat) (xs : List α) : (f.placed a xs).map Prod.snd = xs := by
  induction xs generalizing a with
  | nil => rfl
  | cons x xs ih => rw [placed, List.map_cons, ih]

/-- The frames lie in the memory from the address on. -/
def Holds (m : Memory) (a : Nat) (xs : List α) : Prop := m.read a (f.total xs) = f.encodeAll xs

theorem holds_nil (m : Memory) (a : Nat) : f.Holds m a [] := rfl

theorem holds_append : f.Holds m a (xs ++ ys) ↔ f.Holds m a xs ∧ f.Holds m (a + f.total xs) ys := by
  rw [Holds, Holds, Holds, total_append, encodeAll_append, Memory.read_add]
  constructor
  · intro h
    exact List.append_inj h (by rw [Memory.length_read, length_encodeAll])
  · rintro ⟨hxs, hys⟩
    rw [hxs, hys]

theorem holds_singleton : f.Holds m a [x] ↔ m.read a (f.size x) = f.encode x := by
  rw [Holds, total_cons, total_nil, Nat.add_zero, encodeAll, List.flatMap_singleton]

/-- A frame that is written behind others lies behind them. -/
theorem holds_write (h : f.Holds m a xs) (x : α) :
    f.Holds (m.write (a + f.total xs) (f.encode x)) a (xs ++ [x]) := by
  rw [holds_append]
  constructor
  · rw [Holds, Memory.read_write_apart (Or.inl (Nat.le_refl _))]
    exact h
  · rw [holds_singleton, ← f.length_encode]
    exact Memory.read_write_self m _ _

/-- The frames that are read in turn up to a limit, and the address at which the reading stops. -/
def scan (m : Memory) (limit : Nat) : Nat → Nat → List (Nat × α) × Nat
  | 0, a => ([], a)
  | fuel + 1, a =>
      if a < limit then
        let x := f.frameAt m a
        if a + f.size x > limit then ([], a)
        else
          let rest := scan m limit fuel (a + f.size x)
          ((a, x) :: rest.1, rest.2)
      else ([], a)

/-- Frames that end at the limit are read one after another, each once. -/
theorem scan_frames (h : f.Holds m a xs) {fuel limit : Nat} (hlimit : limit = a + f.total xs)
    (hfuel : xs.length ≤ fuel) : f.scan m limit fuel a = (f.placed a xs, limit) := by
  induction xs generalizing a fuel with
  | nil =>
      rw [total_nil, Nat.add_zero] at hlimit
      subst hlimit
      cases fuel with
      | zero => rfl
      | succ fuel => rw [scan, if_neg (Nat.lt_irrefl _), placed]
  | cons x xs ih =>
      rw [← List.singleton_append, holds_append, holds_singleton] at h
      have hframe := f.frameAt_of_read m a x h.1
      have hpos := f.size_pos x
      rw [total_cons, total_nil, Nat.add_zero] at h
      rw [total_cons] at hlimit
      cases fuel with
      | zero => exact absurd hfuel (Nat.not_succ_le_zero _)
      | succ fuel =>
          rw [scan, if_pos (by omega)]
          simp only
          rw [hframe, if_neg (by omega), ih h.2 (by omega) (Nat.le_of_succ_le_succ hfuel), placed]

end FrameFormat

end AccountServices.Foundation
