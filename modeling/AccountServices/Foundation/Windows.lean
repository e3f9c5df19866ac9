import Mathlib.Algebra.Ring.Nat
import Mathlib.Data.List.Basic

/-!
# Counting windows

Records with a time are counted in windows of a fixed width. Every record lies in its window, and
two windows do not overlap; they need not be aligned, and there may be gaps between them. An
interval as long as a window then touches two windows at most, so what is bounded in every window is
bounded by twice as much in every such interval.
-/

set_option autoImplicit false

namespace AccountServices.Foundation

variable {α : Type}

/-- What holds of the records that satisfy one of two properties is counted by the two counts. -/
theorem countP_le_add {p q r : α → Bool} {l : List α}
    (h : ∀ a ∈ l, p a = true → q a = true ∨ r a = true) : l.countP p ≤ l.countP q + l.countP r := by
  induction l with
  | nil => exact Nat.zero_le _
  | cons a l ih =>
      have hrest := ih fun b hb => h b (List.mem_cons_of_mem a hb)
      have hhead := h a List.mem_cons_self
      simp only [List.countP_cons]
      cases hp : p a with
      | false =>
          simp only [Bool.false_eq_true, if_false]
          omega
      | true =>
          rcases hhead hp with hq | hr
          · rw [if_pos hq, if_pos rfl]
            omega
          · rw [if_pos hr, if_pos rfl]
            omega

/-- Every record lies in the window that starts at `start`, and different windows do not overlap. -/
structure Windowed (start time : α → Nat) (width : Nat) (records : List α) : Prop where
  covers : ∀ r ∈ records, start r ≤ time r ∧ time r < start r + width
  apart : ∀ r ∈ records, ∀ r' ∈ records,
    start r = start r' ∨ start r + width ≤ start r' ∨ start r' + width ≤ start r

namespace Windowed

variable {start time : α → Nat} {width : Nat} {records : List α}

theorem nil : Windowed start time width [] where
  covers _ hr := absurd hr List.not_mem_nil
  apart _ hr := absurd hr List.not_mem_nil

/-- A record that continues the last window or starts a later one. -/
theorem snoc (h : Windowed start time width records) {r : α}
    (hcovers : start r ≤ time r ∧ time r < start r + width)
    (hlater : ∀ r' ∈ records, start r' = start r ∨ start r' + width ≤ start r) :
    Windowed start time width (records ++ [r]) where
  covers r' hr' := by
    rcases List.mem_append.1 hr' with hr' | hr'
    · exact h.covers r' hr'
    · rw [List.mem_singleton.1 hr']
      exact hcovers
  apart r₁ h₁ r₂ h₂ := by
    rcases List.mem_append.1 h₁ with h₁ | h₁ <;> rcases List.mem_append.1 h₂ with h₂ | h₂
    · exact h.apart r₁ h₁ r₂ h₂
    · rw [List.mem_singleton.1 h₂]
      exact (hlater r₁ h₁).imp id Or.inl
    · rw [List.mem_singleton.1 h₁]
      exact (hlater r₂ h₂).imp Eq.symm Or.inr
    · rw [List.mem_singleton.1 h₁, List.mem_singleton.1 h₂]
      exact Or.inl rfl

/-- An interval as long as a window touches two windows at most. -/
theorem two_windows (h : Windowed start time width records) {t : Nat}
    {r₁ r₂ r₃ : α} (h₁ : r₁ ∈ records)
    (h₂ : r₂ ∈ records) (h₃ : r₃ ∈ records) (ht₁ : t ≤ time r₁ ∧ time r₁ ≤ t + width)
    (ht₂ : t ≤ time r₂ ∧ time r₂ ≤ t + width) (ht₃ : t ≤ time r₃ ∧ time r₃ ≤ t + width)
    (hne : start r₁ ≠ start r₂) : start r₃ = start r₁ ∨ start r₃ = start r₂ := by
  have hc₁ := h.covers r₁ h₁
  have hc₂ := h.covers r₂ h₂
  have hc₃ := h.covers r₃ h₃
  have h₁₂ := h.apart r₁ h₁ r₂ h₂
  have h₁₃ := h.apart r₁ h₁ r₃ h₃
  have h₂₃ := h.apart r₂ h₂ r₃ h₃
  -- three windows that are apart reach over more than two widths
  omega

/-- What is counted at most `bound` times in every window is counted at most twice as often in every
interval as long as a window. -/
theorem countP_interval_le (h : Windowed start time width records) {p : α → Bool} {bound : Nat}
    (hbound : ∀ s, records.countP (fun r => decide (start r = s) && p r) ≤ bound) (t : Nat) :
    records.countP (fun r => decide (t ≤ time r ∧ time r ≤ t + width) && p r) ≤ 2 * bound := by
  by_cases hsome : ∃ r₁ ∈ records, t ≤ time r₁ ∧ time r₁ ≤ t + width
  · obtain ⟨r₁, h₁, ht₁⟩ := hsome
    -- the second window is the one of a record that is not in the first
    have hsecond : ∃ s, ∀ r ∈ records, t ≤ time r ∧ time r ≤ t + width →
        start r = start r₁ ∨ start r = s := by
      by_cases hother : ∃ r₂ ∈ records, (t ≤ time r₂ ∧ time r₂ ≤ t + width) ∧ start r₁ ≠ start r₂
      · obtain ⟨r₂, h₂, ht₂, hne⟩ := hother
        exact ⟨start r₂, fun r hr ht => h.two_windows h₁ h₂ hr ht₁ ht₂ ht hne⟩
      · refine ⟨start r₁, fun r hr ht => Or.inl ?_⟩
        by_contra hne
        exact hother ⟨r, hr, ht, Ne.symm hne⟩
    obtain ⟨s, hs⟩ := hsecond
    have hsum : records.countP (fun r => decide (t ≤ time r ∧ time r ≤ t + width) && p r) ≤
        records.countP (fun r => decide (start r = start r₁) && p r) +
          records.countP (fun r => decide (start r = s) && p r) := by
      refine countP_le_add fun r hr hin => ?_
      simp only [Bool.and_eq_true, decide_eq_true_eq] at hin ⊢
      exact (hs r hr hin.1).imp (fun heq => ⟨heq, hin.2⟩) fun heq => ⟨heq, hin.2⟩
    have hfirst := hbound (start r₁)
    have hlast := hbound s
    omega
  · have hzero : records.countP (fun r => decide (t ≤ time r ∧ time r ≤ t + width) && p r) = 0 := by
      refine List.countP_eq_zero.2 fun r hr hin => ?_
      simp only [Bool.and_eq_true, decide_eq_true_eq] at hin
      exact hsome ⟨r, hr, hin.1⟩
    rw [hzero]
    exact Nat.zero_le _

end Windowed

end AccountServices.Foundation
