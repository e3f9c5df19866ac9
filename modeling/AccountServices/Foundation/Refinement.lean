import Mathlib.Algebra.Ring.Nat
import Mathlib.Data.List.Basic

/-!
# Refinement of machines with answers

A machine takes a call in a state, gives an answer and moves on. One machine refines another when an
abstraction of its states commutes with every call: then it gives the same answers to every sequence
of calls, and its last state stands for the last state of the other one.
-/

set_option autoImplicit false

namespace AccountServices.Foundation

variable {σ τ ι ω : Type}

/-- The answers to a sequence of calls, and the state after the last one. -/
def answers (call : σ → ι → ω × σ) : σ → List ι → List ω × σ
  | s, [] => ([], s)
  | s, i :: is =>
      let rest := answers call (call s i).2 is
      ((call s i).1 :: rest.1, rest.2)

/-- `abs` commutes with every call. -/
def Refines (call : σ → ι → ω × σ) (spec : τ → ι → ω × τ) (abs : σ → τ) : Prop :=
  ∀ s i, spec (abs s) i = ((call s i).1, abs (call s i).2)

theorem Refines.answers {call : σ → ι → ω × σ} {spec : τ → ι → ω × τ} {abs : σ → τ}
    (h : Refines call spec abs) (s : σ) (is : List ι) :
    answers spec (abs s) is = ((answers call s is).1, abs (answers call s is).2) := by
  induction is generalizing s with
  | nil => rfl
  | cons i is ih => simp only [Foundation.answers, h s i, ih]

end AccountServices.Foundation
