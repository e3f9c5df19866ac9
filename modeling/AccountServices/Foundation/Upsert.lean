import Mathlib.Data.List.Dedup
import Mathlib.Data.List.Induction
import AccountServices.Foundation.SlotTable

/-!
# Tables that are filled row by row

A table is a list of keys with their values. A row for a known key replaces the value in its place,
and a row for a new key goes to the end. The table that a list of rows leaves behind has the keys in
the order of their first appearance, each with the value of its last row (`foldl_upsert`). An index
of the rows of a table by their keys finds every row again when the keys differ
(`lookup_foldl_insert`).
-/

set_option autoImplicit false

namespace AccountServices.Foundation

variable {K V : Type} [DecidableEq K]

/-- Insert or update one row. -/
def upsert (table : List (K × V)) (row : K × V) : List (K × V) :=
  if row.1 ∈ table.map Prod.fst then table.map fun r => if r.1 = row.1 then row else r
  else table ++ [row]

/-- The keys in the order of their first appearance, each once. -/
def firstKeys (keys : List K) : List K := keys.reverse.dedup.reverse

/-- The value of the last row for a key. -/
def lastValue (rows : List (K × V)) (key : K) : Option V :=
  (rows.reverse.find? fun r => decide (r.1 = key)).map Prod.snd

theorem mem_firstKeys {keys : List K} {key : K} : key ∈ firstKeys keys ↔ key ∈ keys := by
  rw [firstKeys, List.mem_reverse, List.mem_dedup, List.mem_reverse]

theorem firstKeys_append (keys : List K) (key : K) :
    firstKeys (keys ++ [key]) = if key ∈ keys then firstKeys keys else firstKeys keys ++ [key] := by
  rw [firstKeys, List.reverse_append, List.reverse_singleton, List.singleton_append]
  split
  next hmem => rw [List.dedup_cons_of_mem (List.mem_reverse.2 hmem), firstKeys]
  next hnot =>
    rw [List.dedup_cons_of_notMem fun h => hnot (List.mem_reverse.1 h),
      List.reverse_cons, firstKeys]

theorem lastValue_append (rows : List (K × V)) (row : K × V) (key : K) :
    lastValue (rows ++ [row]) key = if row.1 = key then some row.2 else lastValue rows key := by
  rw [lastValue, List.reverse_append, List.reverse_singleton,
    List.singleton_append, List.find?_cons]
  by_cases heq : row.1 = key
  · simp only [heq, decide_true, Option.map_some, if_true]
  · simp only [heq, decide_false, if_false, lastValue]

/-- More rows have at least as many keys. -/
theorem length_firstKeys_le (keys more : List K) :
    (firstKeys keys).length ≤ (firstKeys (keys ++ more)).length := by
  induction more using List.reverseRecOn with
  | nil => rw [List.append_nil]
  | append_singleton more key ih =>
      rw [← List.append_assoc, firstKeys_append]
      split
      · exact ih
      · rw [List.length_append]
        omega

/-- The table after a list of rows has the keys in the order of their first appearance, each with
the value of its last row. -/
theorem foldl_upsert (rows : List (K × V)) :
    (rows.foldl upsert []).map (fun r => (r.1, some r.2)) =
      (firstKeys (rows.map Prod.fst)).map fun key => (key, lastValue rows key) := by
  induction rows using List.reverseRecOn with
  | nil => rfl
  | append_singleton rows row ih =>
      rw [List.foldl_append, List.foldl_cons, List.foldl_nil]
      have hkeys : (rows.foldl upsert []).map Prod.fst = firstKeys (rows.map Prod.fst) := by
        have hfst := congrArg (List.map Prod.fst) ih
        simp only [List.map_map] at hfst
        have hid : (Prod.fst ∘ fun key => (key, lastValue rows key)) = id := rfl
        rw [hid, List.map_id] at hfst
        exact hfst
      rw [List.map_append, List.map_singleton, firstKeys_append]
      by_cases hmem : row.1 ∈ rows.map Prod.fst
      · rw [if_pos hmem]
        rw [upsert, if_pos (by rw [hkeys]; exact mem_firstKeys.2 hmem), List.map_map]
        -- the value of the row replaces the one of its key in both tables
        have hboth :=
          congrArg (List.map fun r : K × Option V => (r.1, if row.1 = r.1 then some row.2 else r.2))
          ih
        rw [List.map_map, List.map_map] at hboth
        refine Eq.trans (Eq.trans ?_ hboth) ?_
        · refine List.map_congr_left fun r _ => ?_
          simp only [Function.comp_apply]
          by_cases heq : r.1 = row.1
          · rw [if_pos heq, if_pos heq.symm, heq]
          · rw [if_neg heq, if_neg fun h => heq h.symm]
        · refine List.map_congr_left fun key _ => ?_
          simp only [Function.comp_apply, lastValue_append]
      · rw [if_neg hmem]
        rw [upsert, if_neg (by rw [hkeys]; exact fun h => hmem (mem_firstKeys.1 h)),
          List.map_append, ih,
          List.map_append, List.map_singleton, List.map_singleton, lastValue_append, if_pos rfl]
        congr 1
        refine List.map_congr_left fun key hkey => ?_
        have hne : row.1 ≠ key := by
          rintro rfl
          exact hmem (mem_firstKeys.1 hkey)
        rw [lastValue_append, if_neg hne]

/-- An index over rows with different keys maps every key to its row. -/
theorem lookup_foldl_insert {rows : List V} (key : V → K)
    (hkeys : ∀ r ∈ rows, ∀ r' ∈ rows, key r = key r' → r = r') (k : K) (row : V) :
    (rows.foldl (fun index r => index.insert (key r) r) (∅ : Map K V)).lookup k = some row ↔
      row ∈ rows ∧ key row = k := by
  induction rows using List.reverseRecOn with
  | nil => simp
  | append_singleton rows last ih =>
      have hrest := ih fun r hr r' hr' => hkeys r (List.mem_append_left _ hr) r'
        (List.mem_append_left _ hr')
      rw [List.foldl_append, List.foldl_cons, List.foldl_nil, Map.lookup_insert_eq]
      by_cases hk : k = key last
      · rw [if_pos hk, Option.some.injEq]
        constructor
        · rintro rfl
          exact ⟨List.mem_append_right _ (List.mem_singleton.2 rfl), hk.symm⟩
        · rintro ⟨hmem, heq⟩
          exact (hkeys row hmem last (List.mem_append_right _ (List.mem_singleton.2 rfl))
            (heq.trans hk)).symm
      · rw [if_neg hk, hrest, List.mem_append, List.mem_singleton]
        constructor
        · exact fun h => ⟨Or.inl h.1, h.2⟩
        · rintro ⟨hmem | rfl, heq⟩
          · exact ⟨hmem, heq⟩
          · exact absurd heq.symm hk

end AccountServices.Foundation
