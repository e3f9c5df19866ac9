import AccountServices.Foundation.Program

/-!
# Programs amid other parties

A program rarely runs alone: between two of its steps other parties change the state. An
`Interference` is such a schedule. Before the `n`-th step, labelled `l`, it replaces the state by
one that `Rely l` allows. `Program.runAmid` executes a program under a schedule; it is a total
function, so a program returns whatever the others do.

`Program.Triple` describes such executions by a precondition and a postcondition, for all schedules
at once, with one rule for each way of building a program. The
precondition of an atomic step has to be steady: no allowed interference may end it.
-/

set_option autoImplicit false

namespace AccountServices.Foundation

variable {L σ α β : Type}

/-- A schedule of what the other parties do before each step. -/
structure Interference (Rely : L → σ → σ → Prop) where
  act : Nat → L → σ → σ
  rely : ∀ n l s, Rely l s (act n l s)

namespace Interference

variable {Rely : L → σ → σ → Prop}

/-- The schedule after one step. -/
def tail (env : Interference Rely) : Interference Rely where
  act n := env.act (n + 1)
  rely n := env.rely (n + 1)

/-- The other parties stand still. -/
def idle (h : ∀ l s, Rely l s s) : Interference Rely where
  act _ _ s := s
  rely _ l s := h l s

end Interference

/-- No interference ends the property. -/
def Steady (Rely : L → σ → σ → Prop) (P : σ → Prop) : Prop := ∀ l s t, Rely l s t → P s → P t

namespace Program

variable {Rely : L → σ → σ → Prop}

/-- Execution under a schedule: the value, the state after the last step, and what is left of the
schedule. -/
def runAmid : Program L σ α → Interference Rely → σ → α × σ × Interference Rely
  | .done a, env, s => (a, s, env)
  | .step l e k, env, s => (k (env.act 0 l s)).runAmid env.tail (e (env.act 0 l s))

theorem runAmid_bind (p : Program L σ α) (f : α → Program L σ β) (env : Interference Rely) (s : σ) :
    (p >>= f).runAmid env s =
      (f (p.runAmid env s).1).runAmid (p.runAmid env s).2.2 (p.runAmid env s).2.1 := by
  change (p.bind f).runAmid env s = _
  induction p generalizing env s with
  | done a => rfl
  | step l e k ih => exact ih _ env.tail _

/-! ## Preconditions and postconditions -/

/-- From a state that satisfies `P`, under every schedule, the program ends with a value and a state
that satisfy `Q`. -/
def Triple (Rely : L → σ → σ → Prop) (P : σ → Prop) (p : Program L σ α) (Q : α → σ → Prop) : Prop :=
  ∀ (env : Interference Rely) (s : σ), P s → Q (p.runAmid env s).1 (p.runAmid env s).2.1

section Triple

variable {P P' : σ → Prop}

theorem Triple.pure {a : α} {Q : α → σ → Prop} (h : ∀ s, P s → Q a s) :
    Triple Rely P (Pure.pure a : Program L σ α) Q := fun _ s hs => h s hs

theorem Triple.atomic {l : L} {f : σ → α × σ} {Q : α → σ → Prop} (hsteady : Steady Rely P)
    (h : ∀ s t, Rely l s t → P t → Q (f t).1 (f t).2) : Triple Rely P (Program.atomic l f) Q := by
  intro env s hs
  exact h s _ (env.rely 0 l s) (hsteady l s _ (env.rely 0 l s) hs)

theorem Triple.bind {p : Program L σ α} {f : α → Program L σ β} {R : α → σ → Prop}
    {Q : β → σ → Prop} (hp : Triple Rely P p R) (hf : ∀ a, Triple Rely (R a) (f a) Q) :
    Triple Rely P (p >>= f) Q := by
  intro env s hs
  rw [runAmid_bind]
  exact hf _ _ _ (hp env s hs)

theorem Triple.modify {l : L} {f : σ → σ} {Q : Unit → σ → Prop} (hsteady : Steady Rely P)
    (h : ∀ s, P s → Q () (f s)) : Triple Rely P (Program.modify l f) Q := by
  intro env s hs
  exact h _ (hsteady l s _ (env.rely 0 l s) hs)

theorem Triple.read {l : L} {f : σ → α} {Q : α → σ → Prop} (hsteady : Steady Rely P)
    (h : ∀ s, P s → Q (f s) s) : Triple Rely P (Program.read l f) Q := by
  intro env s hs
  exact h _ (hsteady l s _ (env.rely 0 l s) hs)

theorem Triple.ite {c : Prop} [Decidable c] {p q : Program L σ α} {Q : α → σ → Prop}
    (hp : c → Triple Rely P p Q) (hq : ¬ c → Triple Rely P q Q) :
    Triple Rely P (if c then p else q) Q := by
  split
  next h => exact hp h
  next h => exact hq h

/-- The part of a precondition that does not look at the state. -/
theorem Triple.pure_and {φ : Prop} {p : Program L σ α} {Q : α → σ → Prop}
    (h : φ → Triple Rely P p Q) : Triple Rely (fun s => φ ∧ P s) p Q :=
  fun env s hs => h hs.1 env s hs.2

theorem Triple.exists {ι : Type} {R : ι → σ → Prop} {p : Program L σ α} {Q : α → σ → Prop}
    (h : ∀ i, Triple Rely (R i) p Q) : Triple Rely (fun s => ∃ i, R i s) p Q := by
  rintro env s ⟨i, hi⟩
  exact h i env s hi

/-- What every turn of a loop keeps, the loop keeps. -/
theorem Triple.forEach {ι : Type} {f : ι → Program L σ Unit}
    (hf : ∀ x, Triple Rely P (f x) fun _ => P) (xs : List ι) :
    Triple Rely P (Program.forEach f xs) fun _ => P := by
  induction xs with
  | nil => exact Triple.pure fun _ hs => hs
  | cons x xs ih => exact Triple.bind (hf x) fun _ => ih

theorem Triple.mono {p : Program L σ α} {Q R : α → σ → Prop} (h : Triple Rely P p Q)
    (hpre : ∀ s, P' s → P s) (hpost : ∀ a s, Q a s → R a s) : Triple Rely P' p R :=
  fun env s hs => hpost _ _ (h env s (hpre s hs))

/-! ## Without interference -/

/-- When the others stand still, the program runs as if it were alone. -/
theorem runAmid_idle (hrefl : ∀ l s, Rely l s s) (p : Program L σ α) (s : σ) :
    p.runAmid (Interference.idle hrefl) s =
      ((p.run s).1, (p.run s).2, Interference.idle hrefl) := by
  induction p generalizing s with
  | done a => rfl
  | step l e k ih => exact ih s (e s)

/-- What holds under every schedule holds of an uninterrupted execution. -/
theorem Triple.ensures {p : Program L σ α} {Q : α → σ → Prop} (h : Triple Rely P p Q)
    (hrefl : ∀ l s, Rely l s s) {s : σ} (hs : P s) : Ensures p s Q := by
  have hrun := h (Interference.idle hrefl) s hs
  rw [runAmid_idle] at hrun
  exact hrun

end Triple

end Program

end AccountServices.Foundation
