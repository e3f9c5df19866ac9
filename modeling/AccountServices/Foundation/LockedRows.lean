import AccountServices.Foundation.Program
import AccountServices.Foundation.SharedObject

/-!
# Rows with locks

A table whose rows have a lock each. A call works on one row: it waits for the lock, makes its
accesses, which are a `Program` on the row, and releases the lock. Some calls are answered without
touching a row.

However the accesses of the threads interleave, the table is linearizable: a call takes effect when
it releases the lock, and does to its row what its program does without interruption.
-/

set_option autoImplicit false

namespace AccountServices.Foundation

/-- A lock is a flag. A thread that waits leaves the flag as it finds it, and a thread that gets the
lock has found it free. -/
structure Lock where
  Wait : Type
  first : Wait
  Access : Wait → Bool → Option Wait → Bool → Prop
  waits : ∀ {w w' b b'}, Access w b (some w') b' → b' = b
  takes : ∀ {w b b'}, Access w b none b' → b = false ∧ b' = true

/-- The rows, each with the flag of its lock. -/
structure LockedRows {ρ : Type} (α : ρ → Type) where
  locked : ρ → Bool
  content : ∀ r, α r

namespace LockedRows

variable {ρ L C A ι : Type} {α : ρ → Type}

/-- Where a call is. -/
inductive Step (lock : Lock) (L : Type) (α : ρ → Type) (A : Type) where
  | refused (a : A)
  | waiting (r : ρ) (w : lock.Wait) (body : Program L (α r) A)
  | inside (r : ρ) (rest : Program L (α r) A)

variable [DecidableEq ρ]

/-- One access of a call. -/
inductive Access (lock : Lock) : Step lock L α A → LockedRows α →
    Step lock L α A ⊕ A → LockedRows α → Prop
  | refuses (a : A) (m : LockedRows α) : Access lock (.refused a) m (.inr a) m
  | waits {r : ρ} {w w' : lock.Wait} {body : Program L (α r) A} {m : LockedRows α} {b : Bool}
      (hlock : lock.Access w (m.locked r) (some w') b) :
      Access lock (.waiting r w body) m (.inl (.waiting r w' body))
        { m with locked := Function.update m.locked r b }
  | takes {r : ρ} {w : lock.Wait} {body : Program L (α r) A} {m : LockedRows α} {b : Bool}
      (hlock : lock.Access w (m.locked r) none b) :
      Access lock (.waiting r w body) m (.inl (.inside r body))
        { m with locked := Function.update m.locked r b }
  | works (r : ρ) (label : L) (effect : α r → α r) (next : α r → Program L (α r) A)
      (m : LockedRows α) :
      Access lock (.inside r (.step label effect next)) m (.inl (.inside r (next (m.content r))))
        { m with content := Function.update m.content r (effect (m.content r)) }
  | releases (r : ρ) (a : A) (m : LockedRows α) :
      Access lock (.inside r (.done a)) m (.inr a)
        { m with locked := Function.update m.locked r false }

/-- The table whose calls are answered at once or work on a row, as `plan` says. -/
def machine (lock : Lock) (plan : C → A ⊕ Σ r, Program L (α r) A) : Machine (LockedRows α) C A where
  Local := Step lock L α A
  enter c := (plan c).elim .refused fun body => .waiting body.1 lock.first body.2
  Access := Access lock

/-- What a call does without interruption. -/
def spec (plan : C → A ⊕ Σ r, Program L (α r) A) (t : ∀ r, α r) (c : C) (a : A) (t' : ∀ r, α r) :
    Prop :=
  (∃ a', plan c = .inl a' ∧ a = a' ∧ t' = t) ∨
    ∃ r body, plan c = .inr ⟨r, body⟩ ∧ a = (body.run (t r)).1 ∧
      t' = Function.update t r (body.run (t r)).2

/-! ## The outline -/

/-- The invariant of the memory. A row that nobody holds is as the calls so far have left it. -/
def Holds (m : LockedRows α) (t : ∀ r, α r) (holder : ρ → Option ι) : Prop :=
  ∀ r, m.locked r = (holder r).isSome ∧ (holder r = none → m.content r = t r)

/-- What a thread knows. Inside, what is left of the program does to the row as it is what the whole
program does to the row as it was. -/
inductive Knows (lock : Lock) (plan : C → A ⊕ Σ r, Program L (α r) A) (i : ι)
    (m : LockedRows α) (t : ∀ r, α r)
    (holder : ρ → Option ι) : Option (Step lock L α A × (C ⊕ A)) → Prop
  | idle (hfree : ∀ r, holder r ≠ some i) : Knows lock plan i m t holder none
  | refused {c : C} {a : A} (hfree : ∀ r, holder r ≠ some i) (hplan : plan c = .inl a) :
      Knows lock plan i m t holder (some (.refused a, .inl c))
  | waiting {c : C} {r : ρ} {w : lock.Wait} {body : Program L (α r) A}
      (hfree : ∀ r, holder r ≠ some i)
      (hplan : plan c = .inr ⟨r, body⟩) :
      Knows lock plan i m t holder (some (.waiting r w body, .inl c))
  | inside {c : C} {r : ρ} {body rest : Program L (α r) A} (hheld : holder r = some i)
      (hfree : ∀ r', r' ≠ r → holder r' ≠ some i) (hplan : plan c = .inr ⟨r, body⟩)
      (hrest : rest.run (m.content r) = body.run (t r)) :
      Knows lock plan i m t holder (some (.inside r rest, .inl c))

variable {lock : Lock} {plan : C → A ⊕ Σ r, Program L (α r) A} {i : ι}
  {m m' : LockedRows α} {t t' : ∀ r, α r} {holder holder' : ρ → Option ι}

omit [DecidableEq ρ] in
/-- A thread keeps what it knows when the others take and leave rows that it does not hold, and
change only such rows. -/
theorem Knows.keeps {j : ι} {v : Option (Step lock L α A × (C ⊕ A))}
    (hk : Knows lock plan j m t holder v) (hholder : ∀ r, holder' r = some j ↔ holder r = some j)
    (hrows : ∀ r, holder r = some j → m'.content r = m.content r ∧ t' r = t r) :
    Knows lock plan j m' t' holder' v := by
  have hfree' : ∀ r, holder r ≠ some j → holder' r ≠ some j := fun r hr hr' =>
    hr ((hholder r).1 hr')
  cases hk with
  | idle hfree => exact .idle fun r => hfree' r (hfree r)
  | refused hfree hplan => exact .refused (fun r => hfree' r (hfree r)) hplan
  | waiting hfree hplan => exact .waiting (fun r => hfree' r (hfree r)) hplan
  | inside hheld hfree hplan hrest =>
      obtain ⟨hm, ht⟩ := hrows _ hheld
      exact .inside ((hholder _).2 hheld) (fun r hr => hfree' r (hfree r hr)) hplan
        (by rw [hm, ht, hrest])

theorem outline {MayCall : List (Occurrence ι C A) → ι → C → Prop} :
    Machine.Outline (machine lock plan) MayCall (spec plan) (fun _ m t holder => Holds m t holder)
      (fun i v m t holder => Knows lock plan i m t holder v) where
  call := by
    intro h m t holder i c hh hk _
    refine ⟨holder, hh, ?_, fun _ _ _ hj => hj⟩
    cases hk with
    | idle hfree =>
        cases hplan : plan c with
        | inl a =>
            simp only [machine, hplan, Sum.elim_inl]
            exact .refused hfree hplan
        | inr body =>
            simp only [machine, hplan, Sum.elim_inr]
            exact .waiting hfree hplan
  access := by
    intro h m t holder i l st l' m' hh hk haccess
    cases haccess with
    -- Waiting at a lock that is taken changes nothing.
    | @waits r w w' body _ b hlock =>
        cases hk with
        | waiting hfree hplan =>
            have hsame : Function.update m.locked r b = m.locked := by
              rw [lock.waits hlock, Function.update_eq_self]
            rw [hsame]
            exact ⟨t, _, holder, .nothing _ _, hh, .waiting hfree hplan, fun _ _ _ hj => hj⟩
    -- The lock of the row was free, so nobody was inside, and the state of the row is the one that
    -- the others see.
    | @takes r w body _ b hlock =>
        cases hk with
        | @waiting c _ _ _ hfree hplan =>
            obtain ⟨hwas, rfl⟩ := lock.takes hlock
            have hnobody : holder r = none := by
              rw [← Option.isNone_iff_eq_none, ← Option.not_isSome, ← (hh r).1, hwas]
              rfl
            refine ⟨t, .inl c, Function.update holder r (some i), .nothing _ _, fun r' => ?_,
              .inside (Function.update_self _ _ _) (fun r' hr' => ?_) hplan ?_,
                fun j v hj hk' => ?_⟩
            · by_cases hr : r' = r
              · subst hr
                simp
              · simp only [Function.update_of_ne hr]
                exact hh r'
            · rw [Function.update_of_ne hr']
              exact hfree r'
            · simp only [(hh r).2 hnobody]
            · refine hk'.keeps (fun r' => ?_) fun _ _ => ⟨rfl, rfl⟩
              by_cases hr : r' = r
              · subst hr
                rw [Function.update_self, hnobody, Option.some.injEq]
                exact ⟨fun hij => absurd hij.symm hj, fun h' => absurd h' (by simp)⟩
              · rw [Function.update_of_ne hr]
    -- Inside, only the content of the own row changes, which nobody else reads.
    | works r label effect next =>
        cases hk with
        | @inside c _ body _ hheld hfree hplan hrest =>
            refine ⟨t, .inl c, holder, .nothing _ _, fun r' => ⟨(hh r').1, fun hnone => ?_⟩,
              .inside hheld hfree hplan ?_, fun j v hj hk' => hk'.keeps (fun _ => Iff.rfl)
                fun r' hr' => ⟨?_, rfl⟩⟩
            · have hr : r' ≠ r := by
                rintro rfl
                rw [hheld] at hnone
                exact absurd hnone (by simp)
              simp only [Function.update_of_ne hr]
              exact (hh r').2 hnone
            · simp only [Function.update_self]
              exact hrest
            · have hr : r' ≠ r := by
                rintro rfl
                exact hj (Option.some.inj (hr'.symm.trans hheld))
              simp only [Function.update_of_ne hr]
  answer := by
    intro h m t holder i l st a m' hh hk haccess
    cases haccess with
    -- A refused call takes effect without a lock.
    | refuses =>
        cases hk with
        | refused hfree hplan =>
            exact ⟨t, holder, .effect (Or.inl ⟨a, hplan, rfl, rfl⟩), hh,
              .idle hfree, fun _ _ _ hj => hj⟩
    -- The call takes effect where it releases the lock: the row then holds what its body computes.
    | releases r =>
        cases hk with
        | @inside c _ body _ hheld hfree hplan hrest =>
            have hout : a = (body.run (t r)).1 := congrArg Prod.fst hrest
            have hrow : m.content r = (body.run (t r)).2 := congrArg Prod.snd hrest
            refine ⟨Function.update t r (m.content r), Function.update holder r none,
              .effect (Or.inr ⟨r, body, hplan, hout, by rw [hrow]⟩), fun r' =>
                ?_, .idle fun r' => ?_,
              fun j v hj hk' => hk'.keeps (fun r' => ?_) fun r' hr' => ⟨rfl, ?_⟩⟩
            · by_cases hr : r' = r
              · subst hr
                simp
              · simp only [Function.update_of_ne hr]
                exact hh r'
            · by_cases hr : r' = r
              · subst hr
                simp
              · rw [Function.update_of_ne hr]
                exact hfree r' hr
            · by_cases hr : r' = r
              · subst hr
                rw [Function.update_self, hheld, Option.some.injEq]
                exact ⟨fun h' => absurd h' (by simp), fun hij => absurd hij.symm hj⟩
              · rw [Function.update_of_ne hr]
            · have hr : r' ≠ r := by
                rintro rfl
                exact hj (Option.some.inj (hr'.symm.trans hheld))
              exact Function.update_of_ne hr _ _

/-- The rule for tables with row locks. -/
theorem linearizable [DecidableEq ι] {MayCall : List (Occurrence ι C A) → ι → C → Prop}
    (t : ∀ r, α r) : (machine lock plan).Linearizable MayCall ⟨fun _ => false, t⟩ (spec plan) t :=
  outline.linearizable (g := fun _ => none) (fun _ => ⟨rfl, fun _ => rfl⟩) fun _ =>
    .idle fun _ => by simp

end LockedRows

end AccountServices.Foundation
