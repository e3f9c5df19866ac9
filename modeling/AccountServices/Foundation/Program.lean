import Mathlib.Algebra.Ring.Nat
import Mathlib.Logic.Relation
import Mathlib.Data.List.Basic

/-!
# Programs as sequences of atomic steps

A `Program L σ α` is a tree of atomic steps over a state `σ`: each step carries a label, changes the
state, and chooses the rest of the program from the state it started in. `Program.run` executes it
without interruption; `Program.Preserves` and `Program.Ensures` are the invariant rule and the
postcondition rule of such executions. The second part of the module is about runs of a step
function.
-/

set_option autoImplicit false

namespace AccountServices.Foundation

/-- A program: finished with a value, or one atomic step followed by the program that the state
before the step selects. -/
inductive Program (L σ α : Type) : Type where
  | done (a : α)
  | step (label : L) (effect : σ → σ) (next : σ → Program L σ α)

namespace Program

variable {L σ α β : Type}

/-- Sequential composition. -/
def bind : Program L σ α → (α → Program L σ β) → Program L σ β
  | .done a, f => f a
  | .step l e k, f => .step l e fun s => (k s).bind f

instance : Monad (Program L σ) where
  pure := Program.done
  bind := Program.bind

/-- One atomic step that reads and writes the state in one go. -/
def atomic (l : L) (f : σ → α × σ) : Program L σ α :=
  .step l (fun s => (f s).2) fun s => .done (f s).1

/-- One atomic step without a result. -/
def modify (l : L) (f : σ → σ) : Program L σ Unit :=
  .step l f fun _ => .done ()

/-- Read the state: an atomic step without effect. -/
def read (l : L) (f : σ → α) : Program L σ α :=
  .step l id fun s => .done (f s)

/-- Run the program for every element of a list, in order. -/
def forEach {ι : Type} (f : ι → Program L σ Unit) : List ι → Program L σ Unit
  | [] => .done ()
  | x :: xs => (f x).bind fun _ => forEach f xs

/-- Uninterrupted execution. -/
def run : Program L σ α → σ → α × σ
  | .done a, s => (a, s)
  | .step _ e k, s => (k s).run (e s)

@[simp] theorem run_pure (a : α) (s : σ) : (pure a : Program L σ α).run s = (a, s) := rfl

@[simp] theorem run_done (a : α) (s : σ) : (Program.done a : Program L σ α).run s = (a, s) := rfl

theorem run_bind' (p : Program L σ α) (f : α → Program L σ β) (s : σ) :
    (p.bind f).run s = (f (p.run s).1).run (p.run s).2 := by
  induction p generalizing s with
  | done a => rfl
  | step l e k ih => exact ih s (e s)

@[simp] theorem run_bind (p : Program L σ α) (f : α → Program L σ β) (s : σ) :
    (p >>= f).run s = (f (p.run s).1).run (p.run s).2 :=
  run_bind' p f s

@[simp] theorem run_atomic (l : L) (f : σ → α × σ) (s : σ) : (atomic l f).run s = f s := rfl

@[simp] theorem run_modify (l : L) (f : σ → σ) (s : σ) : (modify l f).run s = ((), f s) := rfl

@[simp] theorem run_read (l : L) (f : σ → α) (s : σ) : (read l f).run s = (f s, s) := rfl

@[simp] theorem run_forEach_nil {ι : Type} (f : ι → Program L σ Unit) (s : σ) :
    (forEach f []).run s = ((), s) := rfl

@[simp] theorem run_forEach_cons {ι : Type} (f : ι → Program L σ Unit) (x : ι) (xs : List ι)
    (s : σ) : (forEach f (x :: xs)).run s = (forEach f xs).run ((f x).run s).2 :=
  run_bind' (f x) (fun _ => forEach f xs) s

/-! ## Properties a program preserves -/

/-- Uninterrupted execution preserves the property `Inv` of the state. -/
def Preserves (Inv : σ → Prop) (p : Program L σ α) : Prop := ∀ s, Inv s → Inv (p.run s).2

section Preserves

variable {Inv : σ → Prop}

theorem Preserves.pure (a : α) : Preserves Inv (Pure.pure a : Program L σ α) := fun _ h => h

theorem Preserves.bind {p : Program L σ α} {f : α → Program L σ β} (hp : Preserves Inv p)
    (hf : ∀ a, Preserves Inv (f a)) : Preserves Inv (p >>= f) := by
  intro s h
  rw [run_bind]
  exact hf _ _ (hp s h)

theorem Preserves.atomic {l : L} {f : σ → α × σ} (h : ∀ s, Inv s → Inv (f s).2) :
    Preserves Inv (Program.atomic l f) := h

theorem Preserves.modify {l : L} {f : σ → σ} (h : ∀ s, Inv s → Inv (f s)) :
    Preserves Inv (Program.modify l f) := h

theorem Preserves.read {l : L} {f : σ → α} : Preserves Inv (Program.read l f) := fun _ h => h

theorem Preserves.ite {c : Prop} [Decidable c] {p q : Program L σ α} (hp : Preserves Inv p)
    (hq : Preserves Inv q) : Preserves Inv (if c then p else q) := by
  split
  · exact hp
  · exact hq

theorem Preserves.forEach {ι : Type} {f : ι → Program L σ Unit} (hf : ∀ x, Preserves Inv (f x)) :
    ∀ xs, Preserves Inv (Program.forEach f xs)
  | [] => fun _ h => h
  | x :: xs => by
      intro s h
      rw [run_forEach_cons]
      exact Preserves.forEach hf xs _ (hf x s h)

end Preserves

/-! ## What a program ensures -/

/-- Uninterrupted execution from `s` ends with a value and a state that satisfy `Q`. -/
def Ensures (p : Program L σ α) (s : σ) (Q : α → σ → Prop) : Prop := Q (p.run s).1 (p.run s).2

section Ensures

variable {s : σ} {Q : β → σ → Prop}

theorem Ensures.pure {Q : α → σ → Prop} {a : α} (h : Q a s) :
    Ensures (Pure.pure a : Program L σ α) s Q := h

theorem Ensures.atomic {Q : α → σ → Prop} {l : L} {f : σ → α × σ} (h : Q (f s).1 (f s).2) :
    Ensures (Program.atomic l f) s Q := h

theorem Ensures.modify {Q : Unit → σ → Prop} {l : L} {f : σ → σ} (h : Q () (f s)) :
    Ensures (Program.modify l f) s Q := h

theorem Ensures.read {Q : α → σ → Prop} {l : L} {f : σ → α} (h : Q (f s) s) :
    Ensures (Program.read l f) s Q := h

theorem Ensures.bind {p : Program L σ α} {f : α → Program L σ β}
    (h : Ensures p s fun a t => Ensures (f a) t Q) : Ensures (p >>= f) s Q := by
  rw [Ensures] at h ⊢
  rw [run_bind]
  exact h

theorem Ensures.mono {Q R : α → σ → Prop} {p : Program L σ α} (h : Ensures p s Q)
    (himp : ∀ a t, Q a t → R a t) : Ensures p s R := himp _ _ h

theorem Preserves.ensures {Inv : σ → Prop} {p : Program L σ α} (hp : Preserves Inv p) (hs : Inv s) :
    Ensures p s fun _ t => Inv t := hp s hs

theorem Ensures.forEach {ι : Type} {f : ι → Program L σ Unit} {Inv : σ → Prop} {xs : List ι}
    (hf : ∀ x ∈ xs, ∀ t, Inv t → Ensures (f x) t fun _ t' => Inv t') {s : σ} (hs : Inv s) :
    Ensures (Program.forEach f xs) s fun _ t => Inv t := by
  induction xs generalizing s with
  | nil => exact hs
  | cons x xs ih =>
      rw [Ensures]
      rw [run_forEach_cons]
      exact ih (fun y hy => hf y (List.mem_cons_of_mem x hy)) (hf x List.mem_cons_self s hs)

end Ensures

end Program

/-! ## Runs of a step function -/

section Runs

variable {σ ι : Type} (step : σ → ι → σ)

/-- The states that a run passes through, the first and the last included. -/
def trace : σ → List ι → List σ
  | s, [] => [s]
  | s, i :: is => s :: trace (step s i) is

/-- Every step of the run meets the condition, in the state in which it is taken. -/
def StepsMeet (cond : σ → ι → Prop) : σ → List ι → Prop
  | _, [] => True
  | s, i :: is => cond s i ∧ StepsMeet cond (step s i) is

/-- The number of steps of the run that `p` selects, each in the state in which it is taken. -/
def stepCount (p : σ → ι → Bool) : σ → List ι → Nat
  | _, [] => 0
  | s, i :: is => (if p s i then 1 else 0) + stepCount p (step s i) is

variable {step}

/-- What only `enter` steps begin is ended by `leave` steps at most as often as it begins, a
beginning before the run included. -/
theorem stepCount_leave_le {present : σ → Bool} {leave enter : σ → ι → Bool}
    (hleave : ∀ s i, leave s i = true → present s = true ∧ present (step s i) = false)
    (henter : ∀ s i, present s = false → present (step s i) = true → enter s i = true) (s : σ)
    (is : List ι) :
    stepCount step leave s is ≤ (if present s then 1 else 0) + stepCount step enter s is := by
  induction is generalizing s with
  | nil => exact Nat.zero_le _
  | cons i is ih =>
      have hrest := ih (step s i)
      simp only [stepCount]
      by_cases hl : leave s i = true
      · -- the step ends the presence, so the rest of the run starts without it
        obtain ⟨hbefore, hafter⟩ := hleave s i hl
        rw [hafter, if_neg Bool.false_ne_true] at hrest
        rw [if_pos hl, if_pos hbefore]
        omega
      · rw [if_neg hl]
        by_cases hbefore : present s = true
        · rw [if_pos hbefore]
          split at hrest <;> omega
        · rw [Bool.not_eq_true] at hbefore
          by_cases hafter : present (step s i) = true
          · rw [if_pos hafter] at hrest
            rw [if_pos (henter s i hbefore hafter)]
            omega
          · rw [if_neg hafter] at hrest
            omega

/-- A run ends in a state that it passes through. -/
theorem foldl_mem_trace (step : σ → ι → σ) (s : σ) (is : List ι) :
    is.foldl step s ∈ trace step s is := by
  induction is generalizing s with
  | nil => exact List.mem_singleton.2 rfl
  | cons i is ih => exact List.mem_cons_of_mem s (ih (step s i))

theorem stepsMeet_true (step : σ → ι → σ) (s : σ) (is : List ι) :
    StepsMeet step (fun _ _ => True) s is := by
  induction is generalizing s with
  | nil => trivial
  | cons i is ih => exact ⟨trivial, ih (step s i)⟩

theorem StepsMeet.and_mem {cond : σ → ι → Prop} {P : ι → Prop} {s : σ} {is : List ι}
    (hmeet : StepsMeet step cond s is) (hP : ∀ i ∈ is, P i) :
    StepsMeet step (fun s i => P i ∧ cond s i) s is := by
  induction is generalizing s with
  | nil => trivial
  | cons i is ih =>
      exact ⟨⟨hP i List.mem_cons_self, hmeet.1⟩,
        ih hmeet.2 fun j hj => hP j (List.mem_cons_of_mem i hj)⟩

/-- The invariant rule: what every step that meets the condition preserves holds in every state of a
run whose steps meet it. -/
theorem trace_invariant (Inv : σ → Prop) {cond : σ → ι → Prop}
    (hstep : ∀ s i, Inv s → cond s i → Inv (step s i)) {s : σ} {is : List ι} (hs : Inv s)
    (hmeet : StepsMeet step cond s is) : ∀ t ∈ trace step s is, Inv t := by
  induction is generalizing s with
  | nil =>
      intro t ht
      rw [trace, List.mem_singleton] at ht
      exact ht ▸ hs
  | cons i is ih =>
      intro t ht
      rw [trace, List.mem_cons] at ht
      cases ht with
      | inl heq => exact heq ▸ hs
      | inr hmem => exact ih (hstep s i hs hmeet.1) hmeet.2 t hmem

/-- What the invariant and the condition give of a step holds of every step of the run. -/
theorem stepsMeet_of_invariant (Inv : σ → Prop) {cond good : σ → ι → Prop}
    (hstep : ∀ s i, Inv s → cond s i → Inv (step s i))
    (hgood : ∀ s i, Inv s → cond s i → good s i) {s : σ}
    {is : List ι} (hs : Inv s) (hmeet : StepsMeet step cond s is) : StepsMeet step good s is := by
  induction is generalizing s with
  | nil => trivial
  | cons i is ih => exact ⟨hgood s i hs hmeet.1, ih (hstep s i hs hmeet.1) hmeet.2⟩

end Runs

end AccountServices.Foundation
