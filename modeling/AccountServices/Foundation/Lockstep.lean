import AccountServices.Foundation.Program

/-!
# Programs in lockstep

Two programs run side by side, each over a state of its own. They are in lockstep when states that
are related stay related and the values that the programs return are related too. The rules are
those of a relational program logic whose two sides take the same branches.
-/

set_option autoImplicit false

namespace AccountServices.Foundation.Program

variable {L σ τ α β α' β' : Type}

/-- From states related by `R` the programs return values related by `V`, in states related by
`S`. -/
def Lockstep (R S : σ → τ → Prop) (V : α → β → Prop) (p : Program L σ α) (q : Program L τ β) :
    Prop :=
  ∀ s t, R s t → V (p.run s).1 (q.run t).1 ∧ S (p.run s).2 (q.run t).2

variable {R S T : σ → τ → Prop} {V : α → β → Prop} {W : α' → β' → Prop}

theorem Lockstep.pure {a : α} {b : β} (h : V a b) :
    Lockstep R R V (Pure.pure a : Program L σ α) (Pure.pure b : Program L τ β) :=
  fun _ _ hR => ⟨h, hR⟩

theorem Lockstep.bind {p : Program L σ α} {q : Program L τ β} {f : α → Program L σ α'}
    {g : β → Program L τ β'} (hp : Lockstep R S V p q)
    (hf : ∀ a b, V a b → Lockstep S T W (f a) (g b)) :
    Lockstep R T W (p >>= f) (q >>= g) := by
  intro s t hR
  rw [run_bind, run_bind]
  obtain ⟨hvalue, hstate⟩ := hp s t hR
  exact hf _ _ hvalue _ _ hstate

theorem Lockstep.atomic {l l' : L} {f : σ → α × σ} {g : τ → β × τ}
    (h : ∀ s t, R s t → V (f s).1 (g t).1 ∧ S (f s).2 (g t).2) :
    Lockstep R S V (Program.atomic l f) (Program.atomic l' g) := h

theorem Lockstep.modify {l l' : L} {f : σ → σ} {g : τ → τ} (h : ∀ s t, R s t → S (f s) (g t)) :
    Lockstep R S Eq (Program.modify l f) (Program.modify l' g) :=
  fun s t hR => ⟨rfl, h s t hR⟩

theorem Lockstep.read {l l' : L} {f : σ → α} {g : τ → β} (h : ∀ s t, R s t → V (f s) (g t)) :
    Lockstep R R V (Program.read l f) (Program.read l' g) :=
  fun s t hR => ⟨h s t hR, hR⟩

/-- Both sides take the same branch. -/
theorem Lockstep.ite {c d : Prop} [Decidable c] [Decidable d] (hbranch : c ↔ d)
    {p p' : Program L σ α}
    {q q' : Program L τ β} (hthen : c → Lockstep R S V p q) (helse : ¬ c → Lockstep R S V p' q') :
    Lockstep R S V (if c then p else p') (if d then q else q') := by
  by_cases hc : c
  · rw [if_pos hc, if_pos (hbranch.1 hc)]
    exact hthen hc
  · rw [if_neg hc, if_neg fun hd => hc (hbranch.2 hd)]
    exact helse hc

theorem Lockstep.forEach {ι : Type} {f : ι → Program L σ Unit} {g : ι → Program L τ Unit}
    (h : ∀ x, Lockstep R R Eq (f x) (g x)) (xs : List ι) :
    Lockstep R R Eq (Program.forEach f xs) (Program.forEach g xs) := by
  induction xs with
  | nil => exact fun _ _ hR => ⟨rfl, hR⟩
  | cons x xs ih =>
      intro s t hR
      rw [run_forEach_cons, run_forEach_cons]
      exact ih _ _ (h x s t hR).2

/-- The rule of consequence, for the states before. -/
theorem Lockstep.weaken {R' : σ → τ → Prop} {p : Program L σ α} {q : Program L τ β}
    (h : Lockstep R S V p q) (himp : ∀ s t, R' s t → R s t) : Lockstep R' S V p q :=
  fun s t hR => h s t (himp s t hR)

end AccountServices.Foundation.Program
