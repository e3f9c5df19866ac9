import Mathlib.Algebra.BigOperators.Group.List.Basic
import Mathlib.Algebra.Order.Floor.Div
import Mathlib.Data.List.Basic

/-!
# Splitting a number evenly

A number is split into a given count of parts that differ by at most one, the larger parts first.
The parts add up to the number (`sum_evenSplit`), and none of them exceeds a bound as soon as that
many parts of the size of the bound would hold the number (`le_of_mem_evenSplit`).
-/

set_option autoImplicit false

namespace AccountServices.Foundation

/-- `n` in `k` parts, as equal as they can be. -/
def evenSplit (n k : Nat) : List Nat :=
  List.replicate (n % k) (n / k + 1) ++ List.replicate (k - n % k) (n / k)

variable {n k m x : Nat}

theorem length_evenSplit (hk : 0 < k) : (evenSplit n k).length = k := by
  have hlt := Nat.mod_lt n hk
  rw [evenSplit, List.length_append, List.length_replicate, List.length_replicate]
  omega

theorem sum_evenSplit (hk : 0 < k) : (evenSplit n k).sum = n := by
  have hlt := Nat.mod_lt n hk
  have hdiv := Nat.div_add_mod n k
  rw [evenSplit, List.sum_append, List.sum_replicate, List.sum_replicate, smul_eq_mul, smul_eq_mul]
  calc n % k * (n / k + 1) + (k - n % k) * (n / k)
      = (n % k + (k - n % k)) * (n / k) + n % k := by
        rw [Nat.add_mul, Nat.mul_add, Nat.mul_one]; omega
    _ = k * (n / k) + n % k := by rw [Nat.add_sub_cancel' hlt.le]
    _ = n := hdiv

theorem mem_evenSplit (hx : x ∈ evenSplit n k) : n / k ≤ x ∧ x ≤ n / k + 1 := by
  rw [evenSplit, List.mem_append] at hx
  rcases hx with hx | hx
  · rw [List.eq_of_mem_replicate hx]
    omega
  · rw [List.eq_of_mem_replicate hx]
    omega

theorem pos_of_mem_evenSplit (hk : 0 < k) (hle : k ≤ n) (hx : x ∈ evenSplit n k) : 0 < x :=
  (Nat.div_pos hle hk).trans_le (mem_evenSplit hx).1

theorem pairwise_evenSplit (n k : Nat) : (evenSplit n k).Pairwise (· ≥ ·) := by
  rw [evenSplit, List.pairwise_append]
  refine ⟨List.pairwise_replicate.2 (Or.inr (le_refl _)), List.pairwise_replicate.2
    (Or.inr (le_refl _)), ?_⟩
  intro a ha b hb
  rw [List.eq_of_mem_replicate ha, List.eq_of_mem_replicate hb]
  exact Nat.le_succ _

/-- The larger parts exist only when the quotient is inexact, and then they still fit the bound. -/
theorem le_of_mem_evenSplit (hk : 0 < k) (hfits : n ≤ m * k) (hx : x ∈ evenSplit n k) : x ≤ m := by
  have hdiv := Nat.div_add_mod n k
  have hquot : n / k ≤ m := Nat.div_le_of_le_mul (by rwa [Nat.mul_comm] at hfits)
  rw [evenSplit, List.mem_append] at hx
  rcases hx with hx | hx
  · have hrest := List.ne_nil_of_mem hx
    have hpos : 0 < n % k := by
      apply Nat.pos_of_ne_zero
      intro hzero
      exact hrest (by rw [hzero, List.replicate_zero])
    have hlt : n / k < m := by
      rw [Nat.div_lt_iff_lt_mul hk]
      refine lt_of_le_of_ne hfits ?_
      intro heq
      rw [heq, Nat.mul_mod_left] at hpos
      exact absurd hpos (lt_irrefl 0)
    rw [List.eq_of_mem_replicate hx]
    exact hlt
  · rw [List.eq_of_mem_replicate hx]
    exact hquot

end AccountServices.Foundation
