import AccountServices.Foundation.Upsert
import AccountServices.Portfolio.CsvNumbers
import AccountServices.Portfolio.PositionCalls

/-!
# The map from keys to rows

`security_to_row_` lives in the process and is not stored. It is filled when a security is added and
rebuilt from the stored keys by a restart. In a keyed table it is the inverse of the keys of the
rows in use, whichever way it was filled: the loaders and all calls keep the table keyed, and a
restart of a keyed table finds the map that was there before.
-/

set_option autoImplicit false

namespace AccountServices

open Foundation

namespace PositionManager

/-! ## Keyed tables -/

/-- The map sends exactly the keys of the rows in use to their rows, and these keys are in normal
form. -/
structure Keyed (m : PositionManager) : Prop where
  compatible : m.header.compatible = true
  count_le : m.positionCount ≤ kMaxSecurityPositions
  keyed : ∀ key row, m.securityToRow.lookup key = some row ↔
    1 ≤ row ∧ row ≤ m.positionCount ∧ (m.rows row).id = key
  normal : ∀ row, 1 ≤ row → row ≤ m.positionCount →
    normalizeSecurityKey (m.rows row).id.view = some (m.rows row).id

variable {m : PositionManager} {key : InternalSecurityId}

theorem Keyed.wellIndexed (h : m.Keyed) : m.WellIndexed where
  count_le := h.count_le
  row_le key row hrow := by
    obtain ⟨hpos, hle, -⟩ := (h.keyed key row).1 hrow
    exact ⟨hpos, hle⟩

/-- Different rows have different keys. -/
theorem Keyed.row_unique (h : m.Keyed) {row row' : Nat} (hpos : 1 ≤ row)
    (hle : row ≤ m.positionCount)
    (hpos' : 1 ≤ row') (hle' : row' ≤ m.positionCount) (hid : (m.rows row).id = (m.rows row').id) :
    row = row' := by
  have hrow := (h.keyed _ row).2 ⟨hpos, hle, rfl⟩
  have hrow' := (h.keyed _ row').2 ⟨hpos', hle', rfl⟩
  rw [hid, hrow'] at hrow
  exact (Option.some.inj hrow).symm

/-- A change of the id generator and the state of the header keeps it compatible. -/
theorem compatible_header {header : PositionsHeader} (h : header.compatible = true)
    (initState id : UInt32) :
    ({ header with initState := initState, id := id } : PositionsHeader).compatible = true := by
  have heq : header = { initState := header.initState, id := header.id } := of_decide_eq_true h
  exact decide_eq_true (by rw [heq])

theorem keyed_cleared (m : PositionManager) : m.cleared.Keyed where
  compatible := decide_eq_true rfl
  count_le := Nat.zero_le _
  keyed key row := by
    constructor
    · exact fun hrow => absurd hrow (by simp [cleared])
    · rintro ⟨hpos, hle, -⟩
      have hzero : m.cleared.positionCount = 0 := rfl
      omega
  normal row hpos hle := by
    have hzero : m.cleared.positionCount = 0 := rfl
    omega

/-- An operation on the FUND row. -/
theorem Keyed.withFund (h : m.Keyed) (fund : FundInfo) :
    ({ m with fund := fund } : PositionManager).Keyed :=
  ⟨h.compatible, h.count_le, h.keyed, h.normal⟩

/-- An operation on a row that keeps its key. -/
theorem Keyed.onPosition (h : m.Keyed) (securityId : InternalSecurityId)
    {op : Position → Bool × Position} (hop : ∀ p, (op p).2.id = p.id) :
    (m.onPosition securityId op).2.Keyed := by
  simp only [PositionManager.onPosition]
  split
  · exact h
  next row _ =>
    have hid : ∀ row', (Function.update m.rows row (op (m.rows row)).2 row').id =
        (m.rows row').id := by
      intro row'
      by_cases heq : row' = row
      · rw [heq, Function.update_self, hop]
      · rw [Function.update_of_ne heq]
    refine ⟨h.compatible, h.count_le, fun key row' => ?_, fun row' hpos hle => ?_⟩
    · simp only [hid]
      exact h.keyed key row'
    · simp only [hid]
      exact h.normal row' hpos hle

/-- A new row with a key in normal form that has no row yet. -/
theorem Keyed.withRow (h : m.Keyed) (hnormal : normalizeSecurityKey key.view = some key)
    (hnew : m.securityToRow.lookup key = none)
    (hroom : clampSecurityCount m.positionCount < kMaxSecurityPositions) (name : Bytes) :
    (m.withRow key name).Keyed := by
  have hclamp := clampSecurityCount_of_le h.count_le
  have hid : (FixedString.assign key.view : InternalSecurityId) = key := FixedString.assign_view key
  have hkeep : ∀ row, row ≤ m.positionCount → (m.withRow key name).rows row = m.rows row := by
    intro row hle
    simp only [PositionManager.withRow]
    exact Function.update_of_ne (by omega) _ _
  have hlast : ((m.withRow key name).rows (m.positionCount + 1)).id = key := by
    simp only [PositionManager.withRow, hclamp, Function.update_self, hid]
  have hcount : (m.withRow key name).positionCount = m.positionCount + 1 := by
    simp only [PositionManager.withRow, hclamp]
  refine ⟨compatible_header h.compatible _ _, hroom, fun key' row => ?_, fun row hpos hle => ?_⟩
  · rw [hcount]
    have hlookup : (m.withRow key name).securityToRow.lookup key' =
        if key' = key then some (m.positionCount + 1) else m.securityToRow.lookup key' := by
      simp only [PositionManager.withRow, Map.lookup_insert_eq, hclamp]
    rw [hlookup]
    by_cases hkey : key' = key
    · subst hkey
      rw [if_pos rfl, Option.some.injEq]
      constructor
      · rintro rfl
        exact ⟨by omega, Nat.le_refl _, hlast⟩
      · rintro ⟨hpos, hle, heq⟩
        by_contra hne
        -- an older row would have the key already
        rw [hkeep row (by omega)] at heq
        have hrow := (h.keyed key' row).2 ⟨hpos, by omega, heq⟩
        rw [hnew] at hrow
        exact absurd hrow (by simp)
    · rw [if_neg hkey, h.keyed]
      constructor
      · rintro ⟨hpos, hle, heq⟩
        exact ⟨hpos, by omega, by rw [hkeep row hle]; exact heq⟩
      · rintro ⟨hpos, hle, heq⟩
        have hne : row ≠ m.positionCount + 1 := by
          rintro rfl
          exact hkey (heq.symm.trans hlast)
        rw [hkeep row (by omega)] at heq
        exact ⟨hpos, by omega, heq⟩
  · rw [hcount] at hle
    by_cases hrow : row = m.positionCount + 1
    · rw [hrow, hlast]
      exact hnormal
    · rw [hkeep row (by omega)]
      exact h.normal row hpos (by omega)

/-- `add_security` with a code without a terminator in it. -/
theorem Keyed.addSecurity (h : m.Keyed) {code : Bytes} (hclean : (0 : UInt8) ∉ code) (name : Bytes)
    (market : Market) : (m.addSecurity code name market).2.Keyed := by
  obtain ⟨key, -, hkey, hnew, hroom, heq⟩ | ⟨-, heq | heq⟩ := m.addSecurity_cases code name market
  · have hnormal : normalizeSecurityKey key.view = some key := by
      rw [normalizeSecurityKey_eq]
      exact normalize_buildInternalSecurityId hclean hkey
    rw [heq]
    exact h.withRow hnormal hnew hroom name
  · rw [heq]
    exact h
  · rw [heq, clampSecurityCount_of_le h.count_le]
    exact ⟨h.compatible, h.count_le, h.keyed, h.normal⟩

/-- A row of a loader that is applied. -/
theorem Keyed.seedRow (h : m.Keyed) {text name : Bytes} {numbers : PositionNumbers}
    (hok : (m.seedRow text name numbers).1 = true) : (m.seedRow text name numbers).2.Keyed := by
  have hadmits := hok
  rw [seedRow_ok] at hadmits
  cases hnorm : normalizeInternalSecurityId text with
  | none =>
      rw [seedRow_of_none hnorm]
      exact h
  | some key =>
      simp only [admits, hnorm, Bool.and_eq_true, decide_eq_true_eq] at hadmits
      rw [seedRow_eq hnorm]
      split
      · exact h.onPosition key fun p => rfl
      next hnew =>
        split
        next hroom =>
          have hrow := h.withRow hadmits.1 (Option.not_isSome_iff_eq_none.1 hnew) hroom
            (seedName key name)
          exact hrow.onPosition key fun p => rfl
        next => exact ⟨h.compatible, by rw [clampSecurityCount_of_le h.count_le]; exact h.count_le,
          by rw [clampSecurityCount_of_le h.count_le]; exact h.keyed,
          by rw [clampSecurityCount_of_le h.count_le]; exact h.normal⟩

/-! ## The loaders and the calls -/

theorem Keyed.loadPositionsCsv (h : m.Keyed) {lines : List Bytes}
    (hok : (m.loadPositionsCsv lines).1 = true) : (m.loadPositionsCsv lines).2.Keyed := by
  induction lines generalizing m with
  | nil => exact h
  | cons line rest ih =>
      simp only [PositionManager.loadPositionsCsv] at hok ⊢
      split at hok
      next hskip => exact ih h hok
      next => exact h
      next columns hline =>
        have hrow : (m.applyPositionSeedRow columns).1 = true →
            (m.applyPositionSeedRow columns).2.Keyed := by
          intro happlied
          simp only [applyPositionSeedRow] at happlied ⊢
          split at happlied
          · exact absurd happlied (by simp)
          next hlong =>
            rw [if_neg hlong]
            split at happlied
            · exact absurd happlied (by simp)
            · exact h.seedRow happlied
        split at hok
        next m' heq =>
          rw [heq] at hrow
          exact ih (hrow rfl) hok
        next => exact absurd hok (by simp)

theorem Keyed.loadPositionsFromDb (h : m.Keyed) {steps : List SqlStep}
    (hok : (m.loadPositionsFromDb steps).1 = true) : (m.loadPositionsFromDb steps).2.Keyed := by
  induction steps generalizing m with
  | nil => exact h
  | cons step rest ih =>
      cases step with
      | error => exact h
      | row columns =>
          simp only [PositionManager.loadPositionsFromDb] at hok ⊢
          split at hok
          · exact h
          next row hread =>
            have hrow : (m.applyPositionDbRow row).1 = true → (m.applyPositionDbRow row).2.Keyed :=
              fun happlied => h.seedRow happlied
            split at hok
            next m' heq =>
              rw [heq] at hrow
              exact ih (hrow rfl) hok
            next => exact absurd hok (by simp)

/-- A table that a source has filled is keyed. -/
theorem Keyed.load (h : m.Keyed) {source : PositionSource} (hok : (source.load m).1 = true) :
    (source.load m).2.Keyed := by
  simp only [PositionSource.load] at hok ⊢
  split at hok
  · exact h
  · exact h.loadPositionsCsv hok
  · exact h
  · split at hok
    · exact h
    next fund _ =>
      split at hok
      · exact absurd hok (by simp)
      · exact Keyed.loadPositionsFromDb (h.withFund fund) hok

end PositionManager

/-- A call whose code has no terminator in it. -/
def PositionCall.Clean : PositionCall → Prop
  | .addSecurity code _ _ => (0 : UInt8) ∉ code
  | _ => True

namespace PositionManager

variable {m : PositionManager}

/-- What `header.id` says about a table that is in use. -/
structure Numbered (m : PositionManager) : Prop where
  keyed : m.Keyed
  initState : m.header.initState = 1
  id : m.header.id = nextSecurityId m.positionCount

theorem Numbered.onFund (h : m.Numbered) (op : FundInfo → Option FundInfo) :
    (m.onFund op).2.Numbered := by
  simp only [PositionManager.onFund]
  split
  · exact ⟨h.keyed.withFund _, h.initState, h.id⟩
  · exact h

theorem Numbered.onPosition (h : m.Numbered) (securityId : InternalSecurityId)
    {op : Position → Bool × Position} (hop : ∀ p, (op p).2.id = p.id) :
    (m.onPosition securityId op).2.Numbered := by
  refine ⟨h.keyed.onPosition securityId hop, ?_, ?_⟩
  · simp only [PositionManager.onPosition]
    split <;> exact h.initState
  · simp only [PositionManager.onPosition]
    split <;> exact h.id

/-- Every call keeps the table in order. -/
theorem Numbered.call (h : m.Numbered) {c : PositionCall} (hclean : c.Clean) :
    (m.call c).2.Numbered := by
  cases c with
  -- Calls on the fund leave the rows alone, and calls on a row keep its key.
  | freezeFund amount => exact h.onFund _
  | unfreezeFund amount => exact h.onFund _
  | deductFund amount fee => exact h.onFund _
  | addFund amount => exact h.onFund _
  | applyBuyTradeFund amount fee => exact h.onFund _
  | applySellTradeFund amount fee => exact h.onFund _
  | freezePosition securityId volume =>
      refine h.onPosition securityId fun p => ?_
      simp only [Position.freezePosition]
      split <;> rfl
  | unfreezePosition securityId volume =>
      refine h.onPosition securityId fun p => ?_
      simp only [Position.unfreezePosition]
      split <;> rfl
  | deductPosition securityId volume value =>
      refine h.onPosition securityId fun p => ?_
      simp only [Position.deductPosition]
      split
      · rfl
      · generalize (if p.volumeSell > 0 then volume - p.volumeSell else volume) = remaining
        split <;> rfl
  | addPosition securityId volume price => exact h.onPosition securityId fun p => rfl
  -- A new row gets the next number and a normal key; a refused one leaves the table, or rewrites
  -- the count that it has.
  | addSecurity code name market =>
      have hkeyed := h.keyed.addSecurity hclean name market
      simp only [PositionManager.call]
      obtain ⟨key, -, -, -, -, heq⟩ | ⟨-, heq | heq⟩ := m.addSecurity_cases code name market
      · rw [heq] at hkeyed ⊢
        exact ⟨hkeyed, h.initState, rfl⟩
      · rw [heq]
        exact h
      · rw [heq, clampSecurityCount_of_le h.keyed.count_le]
        exact ⟨⟨h.keyed.compatible, h.keyed.count_le, h.keyed.keyed, h.keyed.normal⟩,
          h.initState, h.id⟩

/-- The table that the fresh branch of `initialize` leaves after a load without an error. -/
def initialised (m : PositionManager) : PositionManager :=
  { m with header :=
    { m.header with initState := 1, id := nextSecurityId (clampSecurityCount m.positionCount) } }

/-- A table that is neither initialised nor filled. -/
structure Fresh (m : PositionManager) : Prop where
  compatible : m.header.compatible = true
  initState : m.header.initState ≠ 1
  empty : m.positionCount = 0

/-- A fresh table is cleared and handed to the loader. -/
theorem Fresh.initializePositions (h : m.Fresh) (load : PositionManager → Bool × PositionManager) :
    m.initializePositions load =
      if (load m.cleared).1 then (true, (load m.cleared).2.initialised) else
        (false, (load m.cleared).2) := by
  have hcleared : ({ m with securityToRow := ∅ } : PositionManager).cleared = m.cleared := rfl
  simp only [PositionManager.initializePositions]
  rw [if_neg (not_not.2 h.compatible), if_pos h.initState, if_neg (not_not.2 h.empty), hcleared]
  split
  next m' heq => rw [heq]; rfl
  next m' heq => rw [heq]; rfl

/-- A table that holds rows without being initialised is refused. -/
theorem initializePositions_of_count (hinit : m.header.initState ≠ 1) (hcount : m.positionCount ≠ 0)
    (load : PositionManager → Bool × PositionManager) :
    (m.initializePositions load).1 = false ∧
      (m.initializePositions load).2 = { m with securityToRow := ∅ } := by
  simp only [PositionManager.initializePositions]
  by_cases hcompatible : m.header.compatible = true
  · rw [if_neg (not_not.2 hcompatible), if_pos hinit, if_pos hcount]
    exact ⟨rfl, rfl⟩
  · rw [if_pos hcompatible]
    exact ⟨rfl, rfl⟩

/-- A table is initialised by a load only when it was fresh. -/
theorem fresh_of_initializePositions {load : PositionManager → Bool × PositionManager}
    (hinit : m.header.initState ≠ 1) (hok : (m.initializePositions load).1 = true) : m.Fresh := by
  refine ⟨?_, hinit, ?_⟩
  · by_contra hcompatible
    simp only [PositionManager.initializePositions, hcompatible, not_false_eq_true, if_true] at hok
    exact absurd hok (by simp)
  · by_contra hcount
    rw [(initializePositions_of_count hinit hcount load).1] at hok
    exact absurd hok (by simp)

/-- A fresh table that was filled without an error. -/
theorem numbered_initializePositions {source : PositionSource} (hinit : m.header.initState ≠ 1)
    (hok : (m.initializePositions source.load).1 = true) :
    (m.initializePositions source.load).2.Numbered := by
  have hfresh := fresh_of_initializePositions hinit hok
  rw [hfresh.initializePositions] at hok ⊢
  split at hok
  next hload =>
    have hloaded := (keyed_cleared m).load hload
    rw [if_pos hload]
    refine ⟨⟨compatible_header hloaded.compatible _ _, hloaded.count_le, hloaded.keyed,
      hloaded.normal⟩, rfl, ?_⟩
    simp only [initialised, clampSecurityCount_of_le hloaded.count_le]
  next => exact absurd hok (by simp)

/-! ## The restart -/

/-- One turn of the loop over the rows enters a key in normal form and changes no row. -/
theorem indexRow_of_normal {row : Nat}
    (h : normalizeSecurityKey (m.rows row).id.view = some (m.rows row).id) :
    m.indexRow row =
      (true, { m with securityToRow := m.securityToRow.insert (m.rows row).id row }) := by
  have hempty : (m.rows row).id.isEmpty = false := by
    cases hview : (m.rows row).id.isEmpty with
    | false => rfl
    | true =>
        have hnone : normalizeSecurityKey (m.rows row).id.view = none := if_pos hview
        exact absurd (hnone.symm.trans h) (by simp)
  have hid : (FixedString.assign (m.rows row).id.view : FixedString 16) = (m.rows row).id :=
    FixedString.assign_view (m.rows row).id
  simp only [indexRow, hempty, h, Bool.false_eq_true, if_false, hid, Function.update_eq_self]

theorem indexRows_of_normal {rows : List Nat}
    (h : ∀ row ∈ rows, normalizeSecurityKey (m.rows row).id.view = some (m.rows row).id) :
    m.indexRows rows =
      (true,
        { m with
          securityToRow := rows.foldl (fun index row => index.insert (m.rows row).id row)
            m.securityToRow }) := by
  induction rows generalizing m with
  | nil => rfl
  | cons row rest ih =>
      simp only [indexRows, indexRow_of_normal (h row List.mem_cons_self)]
      exact ih fun row' hrow' => h row' (List.mem_cons_of_mem row hrow')

/-- A restart of a table in order rebuilds its map and changes neither rows nor count. -/
theorem Numbered.restart (h : m.Numbered) (load : PositionManager → Bool × PositionManager) :
    (m.initializePositions load).1 = true ∧
      (m.initializePositions load).2.positionCount = m.positionCount ∧
      (m.initializePositions load).2.rows = m.rows ∧
      (m.initializePositions load).2.fund = m.fund ∧
      (m.initializePositions load).2.header = m.header ∧
      ∀ key, (m.initializePositions load).2.securityToRow.lookup key =
        m.securityToRow.lookup key := by
  have hclamp := clampSecurityCount_of_le h.keyed.count_le
  -- The rows have normal keys, all of them different, so each is indexed under its own.
  have hnormal : ∀ row ∈ List.range' 1 m.positionCount,
      normalizeSecurityKey (m.rows row).id.view = some (m.rows row).id := by
    intro row hrow
    rw [List.mem_range'_1] at hrow
    exact h.keyed.normal row (by omega) (by omega)
  have hindex := @indexRows_of_normal { m with securityToRow := ∅ }
    (List.range' 1 m.positionCount) hnormal
  have hunique : ∀ row ∈ List.range' 1 m.positionCount, ∀ row' ∈ List.range' 1 m.positionCount,
      (m.rows row).id = (m.rows row').id → row = row' := by
    intro row hrow row' hrow' hid
    rw [List.mem_range'_1] at hrow hrow'
    exact h.keyed.row_unique (by omega) (by omega) (by omega) (by omega) hid
  have hresult : m.initializePositions load =
      (true,
        { m with
          securityToRow := (List.range' 1 m.positionCount).foldl
            (fun index row => index.insert (m.rows row).id row) ∅ }) := by
    simp only [PositionManager.initializePositions]
    rw [if_neg (not_not.2 h.keyed.compatible), if_neg (not_not.2 h.initState), hclamp, hindex]
    simp only [← h.id]
  rw [hresult]
  refine ⟨rfl, rfl, rfl, rfl, rfl, fun key => Option.ext fun row => ?_⟩
  rw [lookup_foldl_insert (fun row => (m.rows row).id) hunique, List.mem_range'_1, h.keyed.keyed]
  constructor
  · rintro ⟨hrange, hid⟩
    exact ⟨by omega, by omega, hid⟩
  · rintro ⟨hpos, hle, hid⟩
    exact ⟨by omega, hid⟩

/-- Every run of calls keeps the table in order. -/
theorem Numbered.calls (h : m.Numbered) {calls : List PositionCall}
    (hclean : ∀ c ∈ calls, c.Clean) : (calls.foldl (fun m c => (m.call c).2) m).Numbered := by
  induction calls generalizing m with
  | nil => exact h
  | cons c rest ih =>
      rw [List.foldl_cons]
      exact ih (h.call (hclean c List.mem_cons_self)) fun c' hc' =>
        hclean c' (List.mem_cons_of_mem c hc')

end PositionManager

/-- The row map can always be rebuilt. After a fresh initialisation from any source and any calls
with codes without terminators, the map sends exactly the keys of the rows in use, which are
different and in normal form, to their rows; the count is within the limit and the id generator one
ahead of it; and a restart on the same memory finds the same map and the same count and changes no
row. -/
theorem row_map_rebuilt {m : PositionManager} {source : PositionSource}
    (hfresh : m.header.initState ≠ 1) (hok : (m.initializePositions source.load).1 = true)
    {calls : List PositionCall} (hclean : ∀ c ∈ calls, c.Clean) {t : PositionManager}
    (ht : t = calls.foldl (fun m c => (m.call c).2) (m.initializePositions source.load).2) :
    (∀ key row, t.securityToRow.lookup key = some row ↔
        1 ≤ row ∧ row ≤ t.positionCount ∧ (t.rows row).id = key) ∧
      (∀ row row', 1 ≤ row → row ≤ t.positionCount → 1 ≤ row' → row' ≤ t.positionCount →
        (t.rows row).id = (t.rows row').id → row = row') ∧
      (∀ row, 1 ≤ row → row ≤ t.positionCount →
        normalizeInternalSecurityId (t.rows row).id.view = some (t.rows row).id) ∧
      t.positionCount ≤ kMaxPositions - 1 ∧ t.header.id.toNat = t.positionCount + 1 ∧
      t.header.initState = 1 ∧
      ∀ load, (t.initializePositions load).1 = true ∧
        (t.initializePositions load).2.positionCount = t.positionCount ∧
        (t.initializePositions load).2.rows = t.rows ∧
        ∀ key, (t.initializePositions load).2.securityToRow.lookup key =
          t.securityToRow.lookup key := by
  -- The initialisation numbers the rows, and every call keeps them numbered.
  have hnumbered : t.Numbered := by
    rw [ht]
    exact (PositionManager.numbered_initializePositions hfresh hok).calls hclean
  have hkeyed := hnumbered.keyed
  have hcount := hkeyed.count_le
  refine ⟨hkeyed.keyed, fun row row' hpos hle hpos' hle' => hkeyed.row_unique hpos hle hpos' hle',
    fun row hpos hle => ?_, hcount, ?_, hnumbered.initState, fun load => ?_⟩
  · rw [← PositionManager.normalizeSecurityKey_eq]
    exact hkeyed.normal row hpos hle
  · have hmax : kMaxSecurityPositions = 8191 := rfl
    rw [hnumbered.id, PositionManager.nextSecurityId]
    exact UInt32.toNat_ofNat_of_lt' (show _ < 2 ^ 32 by omega)
  · obtain ⟨hrestart, hcounted, hrows, -, -, hmap⟩ := hnumbered.restart load
    exact ⟨hrestart, hcounted, hrows, hmap⟩

/-- Two securities are added to an empty table, one is bought, and the table is restarted. -/
theorem row_map_rebuilt_two_securities :
    let t := [PositionCall.addSecurity (asciiBytes ['1']) [] .sz, .addSecurity
      (asciiBytes ['2']) [] .sh,
      .addPosition (FixedString.assign (asciiBytes ['S', 'Z', '.', '1'])) 100 7].foldl
        (fun m c => (m.call c).2) (emptyTable.initializePositions (PositionSource.file none).load).2
    t.positionCount = 2 ∧ (t.rows 1).volumeAvailableT1 = 100 ∧
      (t.initializePositions (PositionSource.file none).load).2.rows = t.rows := by
  refine ⟨by decide, by decide, ?_⟩
  have hclean :
      ∀ c ∈ [PositionCall.addSecurity (asciiBytes ['1']) [] .sz,
          .addSecurity (asciiBytes ['2']) [] .sh,
      .addPosition (FixedString.assign (asciiBytes ['S', 'Z', '.', '1'])) 100 7], c.Clean := by
    intro c hc
    simp only [List.mem_cons, List.not_mem_nil, or_false] at hc
    rcases hc with rfl | rfl | rfl
    · exact (by decide : (0 : UInt8) ∉ asciiBytes ['1'])
    · exact (by decide : (0 : UInt8) ∉ asciiBytes ['2'])
    · trivial
  have hall := @row_map_rebuilt emptyTable (.file none) (by decide) (by decide) _ hclean _ rfl
  exact (hall.2.2.2.2.2.2 (PositionSource.file none).load).2.2.1

end AccountServices
