import Mathlib.Algebra.Ring.Nat
import Mathlib.Data.List.Basic

/-!
# Unsigned machine words

The overflow tests that C++ code writes on unsigned 64-bit words, read as statements about natural
numbers: `a + b < a` is the wrap-around test of an addition, and a subtraction guarded by a
comparison is exact.
-/

set_option autoImplicit false

namespace AccountServices.Foundation

namespace Word

theorem toNat_add_of_lt {a b : UInt64} (h : a.toNat + b.toNat < 2 ^ 64) :
    (a + b).toNat = a.toNat + b.toNat := by
  rw [UInt64.toNat_add, Nat.mod_eq_of_lt h]

/-- The wrap-around test of an addition. -/
theorem add_lt_self_iff (a b : UInt64) : a + b < a ↔ 2 ^ 64 ≤ a.toNat + b.toNat := by
  have ha := a.toNat_lt
  have hb := b.toNat_lt
  rw [UInt64.lt_iff_toNat_lt, UInt64.toNat_add]
  by_cases h : a.toNat + b.toNat < 2 ^ 64
  · rw [Nat.mod_eq_of_lt h]
    omega
  · rw [Nat.mod_eq_sub_mod (by omega), Nat.mod_eq_of_lt (by omega)]
    omega

/-- An addition that passes its wrap-around test is exact. -/
theorem toNat_add_of_not_lt {a b : UInt64} (h : ¬ a + b < a) :
    a.toNat + b.toNat < 2 ^ 64 ∧ (a + b).toNat = a.toNat + b.toNat := by
  rw [add_lt_self_iff] at h
  have hlt : a.toNat + b.toNat < 2 ^ 64 := by omega
  exact ⟨hlt, toNat_add_of_lt hlt⟩

/-- A subtraction behind its guard is exact. -/
theorem toNat_sub_of_not_lt {a b : UInt64} (h : ¬ a < b) :
    b.toNat ≤ a.toNat ∧ (a - b).toNat = a.toNat - b.toNat := by
  have hle : b ≤ a := by
    rw [UInt64.lt_iff_toNat_lt] at h
    rw [UInt64.le_iff_toNat_le]
    omega
  exact ⟨UInt64.le_iff_toNat_le.1 hle, UInt64.toNat_sub_of_le a b hle⟩

theorem toNat_min (a b : UInt64) : (min a b).toNat = min a.toNat b.toNat := by
  show (if a ≤ b then a else b).toNat = _
  split
  next h =>
    rw [UInt64.le_iff_toNat_le] at h
    omega
  next h =>
    rw [UInt64.le_iff_toNat_le] at h
    omega

theorem toNat_max (a b : UInt64) : (max a b).toNat = max a.toNat b.toNat := by
  show (if a ≤ b then b else a).toNat = _
  split
  next h =>
    rw [UInt64.le_iff_toNat_le] at h
    omega
  next h =>
    rw [UInt64.le_iff_toNat_le] at h
    omega

theorem lt_iff (a b : UInt64) : a < b ↔ a.toNat < b.toNat := UInt64.lt_iff_toNat_lt

theorem le_iff (a b : UInt64) : a ≤ b ↔ a.toNat ≤ b.toNat := UInt64.le_iff_toNat_le

theorem eq_iff (a b : UInt64) : a = b ↔ a.toNat = b.toNat := UInt64.toNat_inj.symm

/-- A counter below some bound can be raised by one. -/
theorem toNat_succ_of_lt {a b : UInt32} (h : a < b) : (a + 1).toNat = a.toNat + 1 := by
  have hbelow := UInt32.lt_iff_toNat_lt.1 h
  have hbound := b.toNat_lt
  rw [UInt32.toNat_add]
  simp only [UInt32.reduceToNat]
  omega

end Word

end AccountServices.Foundation
