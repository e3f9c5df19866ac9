import Mathlib.Logic.Function.Basic
import Mathlib.Data.List.Basic

/-!
# Objects in shared memory

An object in shared memory is used by several threads at once. A call takes many accesses to the
memory, and between two of them the other threads move. A `Machine` says which accesses a call
makes, and `Machine.Run` are the runs of its threads, one access at a time, in any order. What a run
shows is its history: the calls and the answers.

An object is linearizable when every history is also one of the `atomic` object, whose calls take
effect in one access. `Machine.Outline` is the rule that proves it: an invariant of the memory, an
assertion for each thread that the steps of the other threads keep, and a step in each call at which
it takes effect.
-/

set_option autoImplicit false

namespace AccountServices.Foundation

/-- The calls of an object as sequences of accesses. A call is entered without an access; an access
moves the call on, or ends it with an answer. -/
structure Machine (σ C A : Type) where
  Local : Type
  enter : C → Local
  Access : Local → σ → Local ⊕ A → σ → Prop

/-- What a thread shows: a call, or an answer to its call. -/
inductive Occurrence (ι C A : Type) where
  | call (i : ι) (c : C)
  | answer (i : ι) (a : A)
  deriving DecidableEq

/-- The memory, and the call that each thread is in. -/
structure Threads (ι σ Λ : Type) where
  memory : σ
  inside : ι → Option Λ

variable {ι σ τ γ C A : Type} [DecidableEq ι]

namespace Machine

/-- The runs of the threads from the memory `m`, with their histories. `MayCall` says which thread
may make which call after a history. -/
inductive Run (M : Machine σ C A) (MayCall : List (Occurrence ι C A) → ι → C → Prop) (m : σ) :
    List (Occurrence ι C A) → Threads ι σ M.Local → Prop
  | start : Run M MayCall m [] ⟨m, fun _ => none⟩
  | call {h : List (Occurrence ι C A)} {s : Threads ι σ M.Local} {i : ι} {c : C}
      (hrun : Run M MayCall m h s) (hidle : s.inside i = none) (hmay : MayCall h i c) :
      Run M MayCall m (h ++ [.call i c]) ⟨s.memory, Function.update s.inside i (some (M.enter c))⟩
  | access {h : List (Occurrence ι C A)} {s : Threads ι σ M.Local} {i : ι} {l l' : M.Local} {m' : σ}
      (hrun : Run M MayCall m h s) (hin : s.inside i = some l)
      (haccess : M.Access l s.memory (.inl l') m') :
      Run M MayCall m h ⟨m', Function.update s.inside i (some l')⟩
  | answer {h : List (Occurrence ι C A)} {s : Threads ι σ M.Local} {i : ι}
      {l : M.Local} {a : A} {m' : σ}
      (hrun : Run M MayCall m h s) (hin : s.inside i = some l)
      (haccess : M.Access l s.memory (.inr a) m') :
      Run M MayCall m (h ++ [.answer i a]) ⟨m', Function.update s.inside i none⟩

/-- The object whose calls take effect in one access. Until then a call is pending, from then on it
is decided. -/
def atomic (Spec : τ → C → A → τ → Prop) : Machine τ C A where
  Local := C ⊕ A
  enter := Sum.inl
  Access l t out t' :=
    (∃ c a, l = .inl c ∧ out = .inl (.inr a) ∧ Spec t c a t') ∨ ∃ a, l = .inr a ∧
      out = .inr a ∧ t' = t

/-- Two kinds of calls on one memory. -/
def beside {C' A' : Type} (M : Machine σ C A) (N : Machine σ C' A') :
    Machine σ (C ⊕ C') (A ⊕ A') where
  Local := M.Local ⊕ N.Local
  enter := Sum.map M.enter N.enter
  Access l m out m' :=
    (∃ k o, l = .inl k ∧ M.Access k m o m' ∧ out = o.map .inl .inl) ∨
      ∃ k o, l = .inr k ∧ N.Access k m o m' ∧ out = o.map .inr .inr

/-- Every history is one of the atomic object. -/
def Linearizable (M : Machine σ C A) (MayCall : List (Occurrence ι C A) → ι → C → Prop) (m : σ)
    (Spec : τ → C → A → τ → Prop) (t : τ) : Prop :=
  ∀ h s, M.Run MayCall m h s → ∃ u, (atomic Spec).Run MayCall t h u

/-! ## The rule -/

/-- A step of a call, seen from the atomic object: the call takes effect, or nothing happens. -/
inductive Takes (Spec : τ → C → A → τ → Prop) : τ → C ⊕ A → τ → C ⊕ A → Prop
  | nothing (t : τ) (st : C ⊕ A) : Takes Spec t st t st
  | effect {t t' : τ} {c : C} {a : A} (hspec : Spec t c a t') : Takes Spec t (.inl c) t' (.inr a)

/-- A proof outline: `Shared` is the invariant of the memory, and `Own i` is what thread `i` knows
while it is idle (`none`) or in a call. Both may mention the atomic object and ghost state. Every
step keeps what the other threads know. -/
structure Outline (M : Machine σ C A) (MayCall : List (Occurrence ι C A) → ι → C → Prop)
    (Spec : τ → C → A → τ → Prop) (Shared : List (Occurrence ι C A) → σ → τ → γ → Prop)
    (Own : ι → Option (M.Local × (C ⊕ A)) → σ → τ → γ → Prop) : Prop where
  call : ∀ {h m t g i c}, Shared h m t g → Own i none m t g → MayCall h i c →
    ∃ g', Shared (h ++ [.call i c]) m t g' ∧ Own i (some (M.enter c, .inl c)) m t g' ∧
      ∀ j v, j ≠ i → Own j v m t g → Own j v m t g'
  access : ∀ {h m t g i l st l' m'}, Shared h m t g → Own i (some (l, st)) m t g →
    M.Access l m (.inl l') m' →
    ∃ t' st' g', Takes Spec t st t' st' ∧ Shared h m' t' g' ∧ Own i (some (l', st')) m' t' g' ∧
      ∀ j v, j ≠ i → Own j v m t g → Own j v m' t' g'
  answer : ∀ {h m t g i l st a m'}, Shared h m t g → Own i (some (l, st)) m t g →
    M.Access l m (.inr a) m' →
    ∃ t' g', Takes Spec t st t' (.inr a) ∧ Shared (h ++ [.answer i a]) m' t' g' ∧
      Own i none m' t' g' ∧ ∀ j v, j ≠ i → Own j v m t g → Own j v m' t' g'

section Atomic

variable {Spec : τ → C → A → τ → Prop} {MayCall : List (Occurrence ι C A) → ι → C → Prop}
  {t₀ : τ} {h : List (Occurrence ι C A)} {u : Threads ι τ (C ⊕ A)} {i : ι}
    {st st' : C ⊕ A} {t' : τ} {a : A}

/-- The atomic object follows a step of the call of thread `i`. -/
theorem Takes.run (hrun : (atomic Spec).Run MayCall t₀ h u) (hin : u.inside i = some st)
    (htakes : Takes Spec u.memory st t' st') :
    (atomic Spec).Run MayCall t₀ h ⟨t', Function.update u.inside i (some st')⟩ := by
  cases htakes with
  | nothing =>
      have hsame :
          (⟨u.memory, Function.update u.inside i (some st)⟩ : Threads ι τ (C ⊕ A)) = u := by
        rw [← hin, Function.update_eq_self]
      exact hsame.symm ▸ hrun
  | effect hspec => exact Run.access hrun hin (Or.inl ⟨_, _, rfl, rfl, hspec⟩)

/-- A decided call answers. -/
theorem Run.decided (hrun : (atomic Spec).Run MayCall t₀ h u) (hin : u.inside i = some (.inr a)) :
    (atomic Spec).Run MayCall t₀ (h ++ [.answer i a]) ⟨u.memory, Function.update u.inside i none⟩ :=
  Run.answer hrun hin (Or.inr ⟨a, rfl, rfl, rfl⟩)

/-- A run of an atomic object, seen in a coarser state. -/
theorem Run.map {υ : Type} {Spec' : υ → C → A → υ → Prop} {abs : τ → υ}
    (habs : ∀ t c a t', Spec t c a t' → Spec' (abs t) c a (abs t'))
    {u : Threads ι τ (atomic Spec).Local} (hrun : (atomic Spec).Run MayCall t₀ h u) :
    (atomic Spec').Run MayCall (abs t₀) h ⟨abs u.memory, u.inside⟩ := by
  induction hrun with
  | start => exact Run.start
  | call _ hidle hmay ih => exact Run.call ih hidle hmay
  | access _ hin haccess ih =>
      rcases haccess with ⟨c, a, rfl, hout, hspec⟩ | ⟨a, -, hout, -⟩
      · obtain rfl := Sum.inl.inj hout
        exact Run.access ih hin (Or.inl ⟨c, a, rfl, rfl, habs _ _ _ _ hspec⟩)
      · exact absurd hout (by simp)
  | answer _ hin haccess ih =>
      rcases haccess with ⟨c, a, -, hout, -⟩ | ⟨a, rfl, hout, rfl⟩
      · exact absurd hout (by simp)
      · obtain rfl := Sum.inr.inj hout
        exact Run.decided ih hin

/-- An object that is linearizable is so in a coarser state. -/
theorem Linearizable.map {υ : Type} {Spec' : υ → C → A → υ → Prop} {M : Machine σ C A} {m : σ}
    (hlin : M.Linearizable MayCall m Spec t₀) (abs : τ → υ)
    (habs : ∀ t c a t', Spec t c a t' → Spec' (abs t) c a (abs t')) :
    M.Linearizable MayCall m Spec' (abs t₀) := by
  intro h s hrun
  obtain ⟨u, hu⟩ := hlin h s hrun
  exact ⟨_, hu.map habs⟩

/-- After a step of thread `i` the others are in the calls that they were in. -/
theorem update_eq_some {Λ : Type} {f : ι → Option Λ} {v : Option Λ} {x : Λ} {j : ι}
    (h : Function.update f i v j = some x) : v = some x ∨ f j = some x := by
  by_cases hj : j = i
  · subst hj
    rw [Function.update_self] at h
    exact Or.inl h
  · rw [Function.update_of_ne hj] at h
    exact Or.inr h

/-- What holds of every answer when the calls are of a certain kind: an invariant of the atomic
object, which the calls of that kind keep and from which their answers follow. -/
theorem Run.answers {Inv : τ → Prop} {Kind : C → Prop} {Post : A → Prop}
    -- The induction carries the calls and the answers under way, since an answer is given a step
    -- after its effect.
    (hspec : ∀ t c a t', Spec t c a t' → Inv t → Kind c → Inv t' ∧ Post a) (hinv : Inv t₀)
    {u : Threads ι τ (atomic Spec).Local} (hrun : (atomic Spec).Run MayCall t₀ h u)
    (hkind : ∀ i c, .call i c ∈ h → Kind c) :
    Inv u.memory ∧ (∀ i c, u.inside i = some (.inl c) → Kind c) ∧
      (∀ i a, u.inside i = some (.inr a) → Post a) ∧ ∀ i a, .answer i a ∈ h → Post a := by
  induction hrun with
  | start => exact ⟨hinv, by simp, by simp, by simp⟩
  | @call h s i c _ _ _ ih =>
      obtain ⟨hm, hpending, hdecided, hanswered⟩ := ih fun i c hc =>
        hkind i c (List.mem_append_left _ hc)
      refine ⟨hm, fun j c' hj => ?_, fun j a hj => ?_, fun j a ha =>
        hanswered j a (by simpa using ha)⟩
      · rcases update_eq_some hj with heq | hj
        · obtain rfl := Sum.inl.inj (Option.some.inj heq)
          exact hkind i c (List.mem_append_right _ List.mem_cons_self)
        · exact hpending j c' hj
      · rcases update_eq_some hj with heq | hj
        · exact absurd (Option.some.inj heq) (by simp [atomic])
        · exact hdecided j a hj
  | @access h s i l l' m' _ hin haccess ih =>
      obtain ⟨hm, hpending, hdecided, hanswered⟩ := ih hkind
      rcases haccess with ⟨c, a, rfl, hout, htakes⟩ | ⟨a, -, hout, -⟩
      · obtain rfl := Sum.inl.inj hout
        obtain ⟨hm', hpost⟩ := hspec _ _ _ _ htakes hm (hpending i c hin)
        refine ⟨hm', fun j c' hj => ?_, fun j a' hj => ?_, hanswered⟩
        · exact hpending j c'
            ((update_eq_some hj).resolve_left fun heq => absurd (Option.some.inj heq) (by simp))
        · rcases update_eq_some hj with heq | hj
          · obtain rfl := Sum.inr.inj (Option.some.inj heq)
            exact hpost
          · exact hdecided j a' hj
      · exact absurd hout (by simp)
  | @answer h s i l a m' _ hin haccess ih =>
      obtain ⟨hm, hpending, hdecided, hanswered⟩ := ih fun i c hc =>
        hkind i c (List.mem_append_left _ hc)
      rcases haccess with ⟨c, a', -, hout, -⟩ | ⟨a', rfl, hout, rfl⟩
      · exact absurd hout (by simp)
      · obtain rfl := Sum.inr.inj hout
        refine ⟨hm, fun j c' hj => ?_, fun j a' hj => ?_, fun j a' ha => ?_⟩
        · exact hpending j c' ((update_eq_some hj).resolve_left fun heq => absurd heq (by simp))
        · exact hdecided j a' ((update_eq_some hj).resolve_left fun heq => absurd heq (by simp))
        · rcases List.mem_append.1 ha with ha | ha
          · exact hanswered j a' ha
          · rw [List.mem_singleton] at ha
            obtain ⟨rfl, rfl⟩ := Occurrence.answer.inj ha
            exact hdecided _ _ hin

/-- The answers of an object that is linearizable. -/
theorem Linearizable.answers {M : Machine σ C A} {m : σ} (hlin : M.Linearizable MayCall m Spec t₀)
    {Inv : τ → Prop}
    {Kind : C → Prop} {Post : A → Prop} (hspec : ∀ t c a t', Spec t c a t' → Inv t →
      Kind c → Inv t' ∧ Post a)
    (hinv : Inv t₀) {s : Threads ι σ M.Local} (hrun : M.Run MayCall m h s)
    (hkind : ∀ i c, .call i c ∈ h → Kind c) : ∀ i a, .answer i a ∈ h → Post a := by
  obtain ⟨u, hu⟩ := hlin h s hrun
  exact (hu.answers hspec hinv hkind).2.2.2

end Atomic

/-- The threads of the two objects are in the same calls. -/
inductive Fits {M : Machine σ C A} (Knows : ι → Option (M.Local × (C ⊕ A)) → Prop) (i : ι) :
    Option M.Local → Option (C ⊕ A) → Prop
  | idle (hknows : Knows i none) : Fits Knows i none none
  | inside {l : M.Local} {st : C ⊕ A} (hknows : Knows i (some (l, st))) :
      Fits Knows i (some l) (some st)

omit [DecidableEq ι] in
/-- When a thread is idle it is idle in both. -/
theorem Fits.idle_right {M : Machine σ C A} {Knows : ι → Option (M.Local × (C ⊕ A)) → Prop} {i : ι}
    {st : Option (C ⊕ A)} (h : Fits Knows i none st) : st = none := by
  cases h with
  | idle => rfl

section Rule

variable {M : Machine σ C A} {Knows Knows' : ι → Option (M.Local × (C ⊕ A)) → Prop}
  {inside : ι → Option M.Local} {inside' : ι → Option (C ⊕ A)} {i : ι}

/-- After a step of thread `i` the threads fit again. -/
theorem fits_update (hfits : ∀ j, Fits Knows j (inside j) (inside' j))
    (hothers : ∀ j v, j ≠ i → Knows j v → Knows' j v) {l : Option M.Local} {st : Option (C ⊕ A)}
    (hown : Fits Knows' i l st) (j : ι) :
    Fits Knows' j (Function.update inside i l j) (Function.update inside' i st j) := by
  by_cases hj : j = i
  · subst hj
    rw [Function.update_self, Function.update_self]
    exact hown
  · rw [Function.update_of_ne hj, Function.update_of_ne hj]
    have hfit := hfits j
    generalize inside j = l₀ at hfit
    generalize inside' j = st₀ at hfit
    cases hfit with
    | idle hknows => exact .idle (hothers j _ hj hknows)
    | inside hknows => exact .inside (hothers j _ hj hknows)

variable {MayCall : List (Occurrence ι C A) → ι → C → Prop} {Spec : τ → C → A → τ → Prop}
  {Shared : List (Occurrence ι C A) → σ → τ → γ → Prop}
  {Own : ι → Option (M.Local × (C ⊕ A)) → σ → τ → γ → Prop}

/-- Along an outline the atomic object follows every run. -/
theorem Outline.follows (ho : Outline M MayCall Spec Shared Own) {m : σ} {t : τ} {g : γ}
    (hshared : Shared [] m t g) (hidle : ∀ i, Own i none m t g) {h : List (Occurrence ι C A)}
    {s : Threads ι σ M.Local} (hrun : M.Run MayCall m h s) :
    ∃ (u : Threads ι τ (C ⊕ A)) (g : γ), (atomic Spec).Run MayCall t h u ∧
      Shared h s.memory u.memory g ∧
      ∀ i, Fits (fun i v => Own i v s.memory u.memory g) i (s.inside i) (u.inside i) := by
  induction hrun with
  | start => exact ⟨⟨t, fun _ => none⟩, g, Run.start, hshared, fun i => .idle (hidle i)⟩
  | @call h s i c _ hidle hmay ih =>
      obtain ⟨u, g, hatomic, hinv, hfits⟩ := ih
      have hi := hfits i
      rw [hidle] at hi
      generalize hin : u.inside i = st at hi
      cases hi with
      | idle hknows =>
          obtain ⟨g', hinv', hown, hothers⟩ := ho.call hinv hknows hmay
          exact ⟨_, g', Run.call hatomic hin hmay, hinv', fits_update hfits hothers (.inside hown)⟩
  | @access h s i l l' m' _ hin haccess ih =>
      obtain ⟨u, g, hatomic, hinv, hfits⟩ := ih
      have hi := hfits i
      rw [hin] at hi
      generalize hinu : u.inside i = st at hi
      cases hi with
      | inside hknows =>
          obtain ⟨t', st', g', htakes, hinv', hown, hothers⟩ := ho.access hinv hknows haccess
          exact ⟨_, g', htakes.run hatomic hinu, hinv', fits_update hfits hothers (.inside hown)⟩
  | @answer h s i l a m' _ hin haccess ih =>
      obtain ⟨u, g, hatomic, hinv, hfits⟩ := ih
      have hi := hfits i
      rw [hin] at hi
      generalize hinu : u.inside i = st at hi
      cases hi with
      | inside hknows =>
          obtain ⟨t', g', htakes, hinv', hown, hothers⟩ := ho.answer hinv hknows haccess
          -- the call takes effect at the latest in its last access, and then answers
          have hdecided := Run.decided (htakes.run hatomic hinu) (Function.update_self i _ u.inside)
          have hsame : (⟨t', Function.update (Function.update u.inside i (some (.inr a))) i none⟩ :
              Threads ι τ (C ⊕ A)) = ⟨t', Function.update u.inside i none⟩ := by
            rw [Function.update_idem]
          exact ⟨_, g', hsame ▸ hdecided, hinv', fits_update hfits hothers (.idle hown)⟩

/-- The rule. -/
theorem Outline.linearizable (ho : Outline M MayCall Spec Shared Own) {m : σ} {t : τ} {g : γ}
    (hshared : Shared [] m t g) (hidle : ∀ i, Own i none m t g) :
    M.Linearizable MayCall m Spec t := by
  intro h s hrun
  obtain ⟨u, -, hatomic, -⟩ := ho.follows hshared hidle hrun
  exact ⟨u, hatomic⟩

end Rule

end Machine

end AccountServices.Foundation
