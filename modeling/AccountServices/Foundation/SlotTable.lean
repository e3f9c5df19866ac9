import Mathlib.Algebra.Ring.Nat
import Mathlib.Data.List.AList
import Mathlib.Algebra.BigOperators.Group.List.Basic

/-!
# Keyed storage in a fixed number of slots

`SlotTable K V n` stores values under keys in `n` numbered slots: a slot array, a map from keys to
slot numbers, and a stack of free slots. The well-formedness of the three parts is carried by the
structure: different keys have different slots, no used slot is free, no free slot is listed twice,
and every slot below `n` is either used or free. The laws below speak about `find?` and `total`
only, so a development built on the table does not see slot numbers.
-/

set_option autoImplicit false

namespace AccountServices.Foundation

/-- Finite maps with one value type. -/
abbrev Map (K V : Type) : Type := AList fun _ : K => V

namespace Map

variable {K V : Type} [DecidableEq K]

theorem lookup_insert_eq (m : Map K V) (k k' : K) (v : V) :
    (m.insert k v).lookup k' = if k' = k then some v else m.lookup k' := by
  split
  case isTrue h =>
    subst h
    exact AList.lookup_insert m
  case isFalse h => exact AList.lookup_insert_ne h

theorem lookup_erase_eq (m : Map K V) (k k' : K) :
    (m.erase k).lookup k' = if k' = k then none else m.lookup k' := by
  split
  case isTrue h =>
    subst h
    exact AList.lookup_erase k' m
  case isFalse h => exact AList.lookup_erase_ne h

/-- The sum of `f` over all entries. -/
def total (m : Map K V) (f : V → Nat) : Nat := (m.entries.map fun e => f e.2).sum

theorem mem_entries_iff {m : Map K V} {k : K} {v : V} :
    (⟨k, v⟩ : (_ : K) × V) ∈ m.entries ↔ m.lookup k = some v :=
  (AList.mem_lookup_iff (s := m)).symm

theorem total_insert_of_lookup_none {m : Map K V} {f : V → Nat} {k : K} {v : V}
    (h : m.lookup k = none) : total (m.insert k v) f = total m f + f v := by
  have hk : k ∉ m := AList.lookup_eq_none.1 h
  rw [total, AList.entries_insert_of_notMem hk, List.map_cons, List.sum_cons, total, Nat.add_comm]

theorem total_erase_add {m : Map K V} {f : V → Nat} {k : K} {v : V} (h : m.lookup k = some v) :
    total (m.erase k) f + f v = total m f := by
  have hk : k ∈ m.entries.keys := List.mem_keys_of_mem (mem_entries_iff.2 h)
  obtain ⟨v', l₁, l₂, hnot, hl, he⟩ := List.exists_of_kerase hk
  have hv : v' = v := by
    have hmem : (⟨k, v'⟩ : (_ : K) × V) ∈ m.entries := by
      rw [hl]
      exact List.mem_append_right _ List.mem_cons_self
    rw [mem_entries_iff, h] at hmem
    exact (Option.some.inj hmem).symm
  subst hv
  have he' : (m.erase k).entries = l₁ ++ l₂ := he
  rw [total, total, he', hl]
  simp only [List.map_append, List.map_cons, List.sum_append, List.sum_cons]
  omega

theorem le_total {m : Map K V} {f : V → Nat} {k : K} {v : V} (h : m.lookup k = some v) :
    f v ≤ total m f := by
  have := total_erase_add (f := f) h
  omega

/-- Replacing a value replaces its share of the sum. -/
theorem total_insert_of_lookup_some {m : Map K V} {f : V → Nat} {k : K} {v : V}
    (h : m.lookup k = some v) (v' : V) : total (m.insert k v') f + f v = total m f + f v' := by
  have hsum : total (m.insert k v') f = f v' + total (m.erase k) f := by
    rw [total, AList.entries_insert, List.map_cons, List.sum_cons]
    rfl
  have := total_erase_add (f := f) h
  omega

theorem total_congr {m : Map K V} {f g : V → Nat}
    (h : ∀ k v, m.lookup k = some v → f v = g v) : total m f = total m g := by
  rw [total]
  congr 1
  refine List.map_congr_left fun e he => ?_
  exact h e.1 e.2 (mem_entries_iff.1 he)

omit [DecidableEq K] in
theorem total_add (m : Map K V) (f g : V → Nat) :
    total m (fun v => f v + g v) = total m f + total m g := by
  simp only [total]
  induction m.entries with
  | nil => rfl
  | cons e es ih =>
      simp only [List.map_cons, List.sum_cons] at ih ⊢
      omega

omit [DecidableEq K] in
/-- The number of entries. -/
theorem total_one (m : Map K V) : (total m fun _ => 1) = m.entries.length := by
  simp only [total, List.map_const', List.sum_replicate_nat, Nat.mul_one]

omit [DecidableEq K] in
@[simp] theorem total_empty (f : V → Nat) : total (∅ : Map K V) f = 0 := rfl

end Map

/-- Values under keys in `n` slots. -/
structure SlotTable (K V : Type) [DecidableEq K] (n : Nat) where
  /-- The slot array. -/
  slots : Nat → V
  /-- The slot of each stored key. -/
  index : Map K Nat
  /-- The free slots; the head is the top of the stack. -/
  free : List Nat
  index_inj : ∀ {k k' i}, index.lookup k = some i → index.lookup k' = some i → k = k'
  free_nodup : free.Nodup
  free_unused : ∀ {k i}, index.lookup k = some i → i ∉ free
  covers : ∀ i, i < n ↔ (i ∈ free ∨ ∃ k, index.lookup k = some i)

namespace SlotTable

variable {K V : Type} [DecidableEq K] {n : Nat}

/-- The empty table, with slot `0` on top of the free stack. -/
def empty (d : V) : SlotTable K V n where
  slots := fun _ => d
  index := ∅
  free := List.range' 0 n
  index_inj := by simp
  free_nodup := List.nodup_range'
  free_unused := by simp
  covers := by simp [List.mem_range'_1]

/-- The value stored under `k`. -/
def find? (t : SlotTable K V n) (k : K) : Option V := (t.index.lookup k).map t.slots

/-- Store `v` under the new key `k`, in the slot on top of the free stack. The table is unchanged
when the key is taken or no slot is free. -/
def insert (t : SlotTable K V n) (k : K) (v : V) : SlotTable K V n :=
  match hk : t.index.lookup k, hf : t.free with
  -- A new key takes the first free slot.
  | none, i :: free =>
      { slots := Function.update t.slots i v
        index := t.index.insert k i
        free := free
        index_inj := by
          intro a b j ha hb
          rw [Map.lookup_insert_eq] at ha hb
          -- the slot was free, so no key is mapped to it
          have hfree : ∀ {c}, t.index.lookup c ≠ some i := by
            intro c hc
            exact t.free_unused hc (hf ▸ List.mem_cons_self)
          split at ha <;> split at hb
          · simp_all
          · simp only [Option.some.injEq] at ha
            exact absurd (ha ▸ hb) hfree
          · simp only [Option.some.injEq] at hb
            exact absurd (hb ▸ ha) hfree
          · exact t.index_inj ha hb
        free_nodup := by
          have := t.free_nodup
          rw [hf] at this
          exact (List.nodup_cons.1 this).2
        free_unused := by
          intro c j hc
          rw [Map.lookup_insert_eq] at hc
          have hnd := t.free_nodup
          rw [hf] at hnd
          split at hc
          · simp only [Option.some.injEq] at hc
            exact hc ▸ (List.nodup_cons.1 hnd).1
          · intro hj
            exact t.free_unused hc (hf ▸ List.mem_cons_of_mem _ hj)
        covers := by
          intro j
          rw [t.covers j, hf]
          constructor
          · rintro (hj | ⟨c, hc⟩)
            · rcases List.mem_cons.1 hj with rfl | hj
              · exact Or.inr ⟨k, AList.lookup_insert _⟩
              · exact Or.inl hj
            · refine Or.inr ⟨c, ?_⟩
              rw [Map.lookup_insert_eq, if_neg]
              · exact hc
              · rintro rfl
                simp [hk] at hc
          · rintro (hj | ⟨c, hc⟩)
            · exact Or.inl (List.mem_cons_of_mem _ hj)
            · rw [Map.lookup_insert_eq] at hc
              split at hc
              · simp only [Option.some.injEq] at hc
                exact Or.inl (hc ▸ List.mem_cons_self)
              · exact Or.inr ⟨c, hc⟩ }
  -- A known key, or a full table: nothing changes.
  | _, _ => t

/-- Change the value stored under `k`, if there is one. -/
def modify (t : SlotTable K V n) (k : K) (g : V → V) : SlotTable K V n :=
  match t.index.lookup k with
  | some i => { t with slots := Function.update t.slots i (g (t.slots i)) }
  | none => t

/-- Drop the key `k`: its slot is reset to `d` and pushed on the free stack. -/
def erase (t : SlotTable K V n) (k : K) (d : V) : SlotTable K V n :=
  match hk : t.index.lookup k with
  -- A known key leaves, and its slot becomes the first free one.
  | some i =>
      { slots := Function.update t.slots i d
        index := t.index.erase k
        free := i :: t.free
        index_inj := by
          intro a b j ha hb
          rw [Map.lookup_erase_eq] at ha hb
          split at ha <;> split at hb
          · simp at ha
          · simp at ha
          · simp at hb
          · exact t.index_inj ha hb
        free_nodup := List.nodup_cons.2 ⟨t.free_unused hk, t.free_nodup⟩
        free_unused := by
          intro c j hc
          rw [Map.lookup_erase_eq] at hc
          split at hc
          · simp at hc
          case isFalse hne =>
            rintro hj
            rcases List.mem_cons.1 hj with rfl | hj
            · exact hne (t.index_inj hc hk)
            · exact t.free_unused hc hj
        covers := by
          intro j
          rw [t.covers j]
          constructor
          · rintro (hj | ⟨c, hc⟩)
            · exact Or.inl (List.mem_cons_of_mem _ hj)
            · by_cases hck : c = k
              · subst hck
                rw [hk, Option.some.injEq] at hc
                exact Or.inl (hc ▸ List.mem_cons_self)
              · exact Or.inr ⟨c, by rw [Map.lookup_erase_eq, if_neg hck]; exact hc⟩
          · rintro (hj | ⟨c, hc⟩)
            · rcases List.mem_cons.1 hj with rfl | hj
              · exact Or.inr ⟨k, hk⟩
              · exact Or.inl hj
            · rw [Map.lookup_erase_eq] at hc
              split at hc
              · simp at hc
              · exact Or.inr ⟨c, hc⟩ }
  | none => t

/-! ## Laws of `find?` -/

@[simp] theorem find?_empty (d : V) (k : K) : (empty d : SlotTable K V n).find? k = none := rfl

theorem find?_eq_none_iff {t : SlotTable K V n} {k : K} :
    t.find? k = none ↔ t.index.lookup k = none := by
  simp [find?]

theorem find?_insert {t : SlotTable K V n} {k : K} {v : V} (hk : t.find? k = none)
    (hf : t.free ≠ []) (k' : K) :
    (t.insert k v).find? k' = if k' = k then some v else t.find? k' := by
  rw [find?_eq_none_iff] at hk
  obtain ⟨i, free, hf⟩ := List.exists_cons_of_ne_nil hf
  have hunused : ∀ {c j}, t.index.lookup c = some j → j ≠ i := by
    rintro c j hc rfl
    exact t.free_unused hc (hf ▸ List.mem_cons_self)
  rw [insert]
  split
  case h_1 i' free' _ hf' =>
    rw [hf, List.cons.injEq] at hf'
    obtain ⟨rfl, rfl⟩ := hf'
    simp only [find?, Map.lookup_insert_eq]
    split
    · simp
    · cases hc : t.index.lookup k' with
      | none => rfl
      | some j => simp [Function.update_of_ne (hunused hc)]
  case h_2 h => exact absurd hf (h i free hk)

theorem find?_modify (t : SlotTable K V n) (k : K) (g : V → V) (k' : K) :
    (t.modify k g).find? k' = if k' = k then (t.find? k).map g else t.find? k' := by
  rw [modify]
  cases hk : t.index.lookup k with
  | none =>
      simp only
      split
      · subst k'
        simp [find?, hk]
      · rfl
  | some i =>
      simp only [find?, hk]
      split
      · subst k'
        simp [hk]
      case isFalse hne =>
        cases hc : t.index.lookup k' with
        | none => rfl
        | some j =>
            have hji : j ≠ i := by
              rintro rfl
              exact hne (t.index_inj hc hk)
            simp [Function.update_of_ne hji]

/-- Only the value that the function gives on what is stored matters. -/
theorem modify_congr {t : SlotTable K V n} {k : K} {g g' : V → V}
    (h : ∀ v, t.find? k = some v → g v = g' v) : t.modify k g = t.modify k g' := by
  simp only [modify]
  cases hk : t.index.lookup k with
  | none => rfl
  | some i =>
      have hv : g (t.slots i) = g' (t.slots i) := h _ (by simp [find?, hk])
      simp only [hv]

/-- Writing back the value that is stored changes nothing. -/
theorem modify_of_eq {t : SlotTable K V n} {k : K} {g : V → V}
    (h : ∀ v, t.find? k = some v → g v = v) : t.modify k g = t := by
  rw [modify]
  cases hk : t.index.lookup k with
  | none => rfl
  | some i =>
      have hv : g (t.slots i) = t.slots i := h _ (by simp [find?, hk])
      simp only [hv, Function.update_eq_self]

theorem find?_erase (t : SlotTable K V n) (k : K) (d : V) (k' : K) :
    (t.erase k d).find? k' = if k' = k then none else t.find? k' := by
  rw [erase]
  split
  case h_1 i hk =>
    simp only [find?, Map.lookup_erase_eq]
    split
    · rfl
    case isFalse hne =>
      cases hc : t.index.lookup k' with
      | none => rfl
      | some j =>
          have hji : j ≠ i := by
            rintro rfl
            exact hne (t.index_inj hc hk)
          simp [Function.update_of_ne hji]
  case h_2 hk =>
    split
    · subst k'
      exact find?_eq_none_iff.2 hk
    · rfl

/-! ## Tables that use the same slots -/

/-- The slots that an insertion leaves: a new key takes the one on top of the free stack. -/
theorem shape_insert (t : SlotTable K V n) (k : K) (v : V) :
    ((t.insert k v).index, (t.insert k v).free) =
      match t.index.lookup k, t.free with
      | none, i :: free => (t.index.insert k i, free)
      | _, _ => (t.index, t.free) := by
  rw [insert]
  split
  next hk hf => simp only [hk, hf]
  next hnot =>
    split
    next hk hf => exact absurd hf (hnot _ _ hk)
    next => rfl

/-- The slots that an erasure leaves. -/
theorem shape_erase (t : SlotTable K V n) (k : K) (d : V) :
    ((t.erase k d).index, (t.erase k d).free) =
      match t.index.lookup k with
      | some i => (t.index.erase k, i :: t.free)
      | none => (t.index, t.free) := by
  rw [erase]
  split
  next hk => simp only [hk]
  next hk => simp only [hk]

/-! ## Sums over the stored values -/

/-- The sum of `f` over all stored values. -/
def total (t : SlotTable K V n) (f : V → Nat) : Nat := Map.total t.index fun i => f (t.slots i)

@[simp] theorem total_empty (d : V) (f : V → Nat) : (empty d : SlotTable K V n).total f = 0 := rfl

theorem le_total {t : SlotTable K V n} {f : V → Nat} {k : K} {v : V} (h : t.find? k = some v) :
    f v ≤ t.total f := by
  obtain ⟨i, hi, rfl⟩ := Option.map_eq_some_iff.1 h
  exact Map.le_total (f := fun i => f (t.slots i)) hi

/-- Writing a slot that no key uses leaves the sum alone. -/
theorem total_update_unused {index : Map K Nat} {slots : Nat → V} {i : Nat} {v : V}
    (h : ∀ k, index.lookup k ≠ some i) (f : V → Nat) :
    (Map.total index fun j => f (Function.update slots i v j)) =
      Map.total index fun j => f (slots j) := by
  rw [Map.total]
  congr 1
  refine List.map_congr_left fun e he => ?_
  have hne : e.2 ≠ i := fun hei => h e.1 (hei ▸ Map.mem_entries_iff.1 he)
  simp only [Function.update_of_ne hne]

theorem total_insert {t : SlotTable K V n} {k : K} {v : V} (f : V → Nat) (hk : t.find? k = none)
    (hf : t.free ≠ []) : (t.insert k v).total f = t.total f + f v := by
  rw [find?_eq_none_iff] at hk
  obtain ⟨i, free, hf⟩ := List.exists_cons_of_ne_nil hf
  have hunused : ∀ c, t.index.lookup c ≠ some i := by
    intro c hc
    exact t.free_unused hc (hf ▸ List.mem_cons_self)
  rw [insert]
  split
  case h_1 i' free' _ hf' =>
    rw [hf, List.cons.injEq] at hf'
    obtain ⟨rfl, rfl⟩ := hf'
    simp only [total]
    rw [Map.total_insert_of_lookup_none hk, total_update_unused hunused]
    simp
  case h_2 h => exact absurd hf (h i free hk)

theorem total_erase {t : SlotTable K V n} {k : K} {v : V} (d : V) (f : V → Nat)
    (hk : t.find? k = some v) : (t.erase k d).total f + f v = t.total f := by
  obtain ⟨i, hi, rfl⟩ := Option.map_eq_some_iff.1 hk
  rw [erase]
  split
  case h_1 i' hi' =>
    rw [hi, Option.some.injEq] at hi'
    subst hi'
    have hunused : ∀ c, (t.index.erase k).lookup c ≠ some i := by
      intro c hc
      rw [Map.lookup_erase_eq] at hc
      split at hc
      · simp at hc
      case isFalse hne => exact hne (t.index_inj hc hi)
    simp only [total]
    rw [total_update_unused hunused]
    exact Map.total_erase_add (f := fun i => f (t.slots i)) hi
  case h_2 hn => simp [hi] at hn

theorem total_modify {t : SlotTable K V n} {k : K} {v : V} (g : V → V) (f : V → Nat)
    (hk : t.find? k = some v) : (t.modify k g).total f + f v = t.total f + f (g v) := by
  obtain ⟨i, hi, rfl⟩ := Option.map_eq_some_iff.1 hk
  have hunused : ∀ c, (t.index.erase k).lookup c ≠ some i := by
    intro c hc
    rw [Map.lookup_erase_eq] at hc
    split at hc
    · simp at hc
    case isFalse hne => exact hne (t.index_inj hc hi)
  have h₁ := Map.total_erase_add (f := fun j => f (t.slots j)) hi
  have h₂ := Map.total_erase_add
    (f := fun j => f (Function.update t.slots i (g (t.slots i)) j)) hi
  rw [total_update_unused hunused] at h₂
  simp only [Function.update_self] at h₂
  simp only [modify, hi, total]
  omega

theorem total_eq_zero {t : SlotTable K V n} {f : V → Nat}
    (h : ∀ k v, t.find? k = some v → f v = 0) : t.total f = 0 := by
  apply List.sum_eq_zero
  intro x hx
  obtain ⟨⟨k, i⟩, hentry, rfl⟩ := List.mem_map.1 hx
  exact h k (t.slots i) (by rw [find?, Map.mem_entries_iff.1 hentry, Option.map_some])

/-- The number of stored values. -/
theorem total_one (t : SlotTable K V n) : t.total (fun _ => 1) = t.index.entries.length :=
  Map.total_one t.index

/-- A table that stores less than `n` values has a free slot. -/
theorem free_ne_nil {t : SlotTable K V n} (h : t.total (fun _ => 1) < n) : t.free ≠ [] := by
  intro hnil
  have hsub : List.range n ⊆ t.index.entries.map (·.2) := by
    intro i hi
    rcases (t.covers i).1 (List.mem_range.1 hi) with hfree | ⟨k, hk⟩
    · rw [hnil] at hfree
      exact absurd hfree (by simp)
    · exact List.mem_map.2 ⟨⟨k, i⟩, Map.mem_entries_iff.2 hk, rfl⟩
  have hlength := (List.subperm_of_subset List.nodup_range hsub).length_le
  rw [List.length_range, List.length_map] at hlength
  rw [total_one] at h
  omega

end SlotTable

end AccountServices.Foundation
