import Mathlib.Data.List.Flatten
import Mathlib.Logic.Basic

/-!
# Loading in stages

A loader walks a document in stages. Each stage checks a part of the document and applies the
settings that it finds there to a state, and the first failure ends the load. A stage `Enters` a
list of settings if it succeeds exactly when the part is well formed and its settings can be
applied, with the state that applying them gives, so that the order of checks and settings within
the stage does not matter. Stages compose in sequence (`Enters.bind`) and over a list
(`Enters.foldlM`).
-/

set_option autoImplicit false

namespace AccountServices.Foundation

variable {σ α ι ε δ : Type}

/-- The settings applied in order. -/
def applyAll (apply : σ → α → Except δ σ) (settings : List α) (s : σ) : Except δ σ :=
  settings.foldlM apply s

@[simp] theorem applyAll_nil (apply : σ → α → Except δ σ) (s : σ) :
    applyAll apply [] s = .ok s := rfl

@[simp] theorem applyAll_singleton (apply : σ → α → Except δ σ) (a : α) (s : σ) :
    applyAll apply [a] s = apply s a := by
  simp only [applyAll, List.foldlM_cons, List.foldlM_nil]
  exact bind_pure _

/-- A sequence of two steps succeeds if the first does and the second from there. -/
theorem bind_eq_ok {τ : Type} {step : Except ε σ} {next : σ → Except ε τ} {t : τ} :
    (step >>= next) = .ok t ↔ ∃ s, step = .ok s ∧ next s = .ok t := by
  cases step with
  | error e =>
      constructor
      · intro h
        cases h
      · rintro ⟨_, h, _⟩
        cases h
  | ok s =>
      constructor
      · intro h
        exact ⟨s, rfl, h⟩
      · rintro ⟨_, hs, h⟩
        cases hs
        exact h

/-- A sequence of two steps fails if the first does, or the second after it. -/
theorem bind_eq_error {τ : Type} {step : Except ε σ} {next : σ → Except ε τ} {e : ε} :
    (step >>= next) = .error e ↔ step = .error e ∨ ∃ s, step = .ok s ∧ next s = .error e := by
  cases step with
  | error e' =>
      constructor
      · intro h
        cases h
        exact Or.inl rfl
      · rintro (h | ⟨_, h, _⟩)
        · cases h
          rfl
        · cases h
  | ok s =>
      constructor
      · intro h
        exact Or.inr ⟨s, rfl, h⟩
      · rintro (h | ⟨_, hs, h⟩)
        · cases h
        · cases hs
          exact h

theorem applyAll_append (apply : σ → α → Except δ σ) (first second : List α) (s : σ) :
    applyAll apply (first ++ second) s = (applyAll apply first s >>= applyAll apply second) :=
  List.foldlM_append

/-- The stage succeeds exactly if its part is formed and the settings can be applied, and then with
the state they lead to. All that it reports is `reported`. -/
structure Enters (apply : σ → α → Except δ σ) (reported : ε → Prop)
    (formed : Prop) (settings : List α) (stage : σ → Except ε σ) : Prop where
  ok : ∀ s s', stage s = .ok s' ↔ formed ∧ applyAll apply settings s = .ok s'
  error : ∀ s e, stage s = .error e → reported e

namespace Enters

variable {apply : σ → α → Except δ σ} {reported : ε → Prop} {p q : Prop} {settings more : List α}
  {stage next : σ → Except ε σ}

/-- What is checked in other words. -/
theorem congr (h : p ↔ q) (hstage : Enters apply reported p settings stage) :
    Enters apply reported q settings stage where
  ok s s' := by rw [hstage.ok, h]
  error := hstage.error

/-- A stage that does nothing. -/
theorem pure (hp : p) : Enters apply reported p [] (fun s => .ok s) where
  ok s s' := by
    simp only [applyAll_nil, Except.ok.injEq]
    exact ⟨fun h => ⟨hp, h⟩, fun h => h.2⟩
  error _ _ h := by cases h

/-- A stage whose part is not formed. -/
theorem fail {e : ε} (he : reported e) (hp : ¬ p) :
    Enters apply reported p settings (fun _ => .error e) where
  ok s s' := by
    constructor
    · intro h
      cases h
    · rintro ⟨h, -⟩
      exact absurd h hp
  error _ _ h := by
    cases h
    exact he

/-- Two stages in sequence. -/
theorem bind (hstage : Enters apply reported p settings stage)
    (hnext : Enters apply reported q more next) :
    Enters apply reported (p ∧ q) (settings ++ more) (fun s => stage s >>= next) where
  ok s s' := by
    rw [applyAll_append, bind_eq_ok, bind_eq_ok]
    constructor
    · rintro ⟨m, hm, hs'⟩
      obtain ⟨hp, hm⟩ := (hstage.ok s m).1 hm
      obtain ⟨hq, hs'⟩ := (hnext.ok m s').1 hs'
      exact ⟨⟨hp, hq⟩, m, hm, hs'⟩
    · rintro ⟨⟨hp, hq⟩, m, hm, hs'⟩
      exact ⟨m, (hstage.ok s m).2 ⟨hp, hm⟩, (hnext.ok m s').2 ⟨hq, hs'⟩⟩
  error s e h := by
    rcases bind_eq_error.1 h with h | ⟨m, -, h⟩
    · exact hstage.error s e h
    · exact hnext.error m e h

/-- A check in front of a stage. -/
theorem guard {check : Except ε Unit} (hcheck : check = .ok () ↔ p)
    (hreported : ∀ e, check = .error e → reported e)
    (hstage : Enters apply reported q settings stage) :
    Enters apply reported (p ∧ q) settings (fun s => check >>= fun _ => stage s) where
  ok s s' := by
    rw [bind_eq_ok, and_assoc, ← hstage.ok, ← hcheck]
    exact ⟨fun ⟨_, hc, h⟩ => ⟨hc, h⟩, fun ⟨hc, h⟩ => ⟨(), hc, h⟩⟩
  error s e h := by
    rcases bind_eq_error.1 h with h | ⟨_, -, h⟩
    · exact hreported e h
    · exact hstage.error s e h

/-- One stage for each element of a list. -/
theorem foldlM {stage : ι → σ → Except ε σ} {formed : ι → Prop} {settings : ι → List α} {l : List ι}
    (h : ∀ i ∈ l, Enters apply reported (formed i) (settings i) (stage i)) :
    Enters apply reported (∀ i ∈ l, formed i) (l.flatMap settings)
      (fun s => l.foldlM (fun s i => stage i s) s) := by
  induction l with
  | nil => exact pure (fun _ hi => absurd hi List.not_mem_nil)
  | cons i l ih =>
      have hrest := ih fun j hj => h j (List.mem_cons_of_mem _ hj)
      simpa only [List.forall_mem_cons, List.flatMap_cons, List.foldlM_cons]
        using (h i List.mem_cons_self).bind hrest

end Enters

end AccountServices.Foundation
