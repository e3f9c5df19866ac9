import AccountServices.Foundation.SlotTable
import AccountServices.Foundation.Word
import AccountServices.Portfolio.PositionManager

/-!
# The security rows

In a well-indexed table every mapped security has a row in use. What the row operations do to the
row of one security, and when `add_security` gives a security a row it did not have.
-/

set_option autoImplicit false

namespace AccountServices

open Foundation

/-! ## Shares -/

namespace Position

/-- The shares of a row: sellable, bought today and frozen for sale. -/
def held (p : Position) : Nat :=
  p.volumeAvailableT0.toNat + p.volumeAvailableT1.toNat + p.volumeSell.toNat

theorem held_addPosition_iff (p : Position) (volume : Volume) (price : DPrice) :
    (p.addPosition volume price).2.held = p.held + volume.toNat ↔
      p.volumeAvailableT1.toNat + volume.toNat < 2 ^ 64 := by
  have hadd := UInt64.toNat_add p.volumeAvailableT1 volume
  have hlt := p.volumeAvailableT1.toNat_lt
  simp only [held, addPosition]
  omega

/-- What the frozen shares leave open of a sale. -/
theorem toNat_remaining {p : Position} {volume : Volume} (hlt : p.volumeSell.toNat < volume.toNat) :
    (if p.volumeSell > 0 then volume - p.volumeSell else volume).toNat =
      volume.toNat - p.volumeSell.toNat := by
  split
  next => exact UInt64.toNat_sub_of_le _ _ ((Word.le_iff _ _).2 (by omega))
  next hzero =>
    rw [gt_iff_lt, Word.lt_iff, UInt64.toNat_zero] at hzero
    omega

theorem held_deductPosition {p : Position} {volume : Volume} (value : DValue)
    (henough : volume.toNat ≤ p.volumeSell.toNat + p.volumeAvailableT0.toNat) :
    (p.deductPosition volume value).2.held + volume.toNat = p.held := by
  simp only [deductPosition]
  split
  next hge =>
    have hsub := UInt64.toNat_sub_of_le _ _ hge
    rw [ge_iff_le, Word.le_iff] at hge
    simp only [held]
    omega
  next hlt =>
    rw [ge_iff_le, Word.le_iff] at hlt
    -- What the frozen shares leave open is taken from the sellable ones.
    have hremaining := toNat_remaining (not_le.1 hlt)
    have hcovered :
        ¬ p.volumeAvailableT0 < (if p.volumeSell > 0 then volume - p.volumeSell else volume) := by
      rw [Word.lt_iff, hremaining]
      omega
    have hsub := UInt64.toNat_sub_of_le p.volumeAvailableT0
      (if p.volumeSell > 0 then volume - p.volumeSell else volume)
      ((Word.le_iff _ _).2 (by rw [hremaining]; omega))
    rw [if_neg hcovered]
    simp only [held, UInt64.toNat_zero]
    omega

/-- A sale that the shares do not cover leaves the row without frozen shares. -/
theorem deductPosition_short {p : Position} {volume : Volume} (value : DValue)
    (hshort : p.volumeSell.toNat + p.volumeAvailableT0.toNat < volume.toNat) :
    (p.deductPosition volume value).2 = { p with volumeSell := 0 } := by
  have hlt : ¬ p.volumeSell ≥ volume := by
    rw [ge_iff_le, Word.le_iff]
    omega
  have hrefused :
      p.volumeAvailableT0 < (if p.volumeSell > 0 then volume - p.volumeSell else volume) := by
    rw [Word.lt_iff, toNat_remaining (by omega)]
    omega
  simp only [deductPosition]
  rw [if_neg hlt, if_pos hrefused]

end Position

namespace PositionManager

variable {m : PositionManager} {securityId : InternalSecurityId}

/-! ## Well-indexed tables -/

/-- Every security of the map has a row in use. -/
structure WellIndexed (m : PositionManager) : Prop where
  count_le : m.positionCount ≤ kMaxSecurityPositions
  row_le : ∀ key row, m.securityToRow.lookup key = some row → 1 ≤ row ∧ row ≤ m.positionCount

theorem clampSecurityCount_of_le {count : Nat} (h : count ≤ kMaxSecurityPositions) :
    clampSecurityCount count = count := if_neg (by omega)

theorem WellIndexed.rowInUse (h : m.WellIndexed) {key : InternalSecurityId} {row : Nat}
    (hrow : m.securityToRow.lookup key = some row) : m.rowInUse row = true := by
  obtain ⟨hpos, hle⟩ := h.row_le key row hrow
  have hcount := h.count_le
  have hmax : kMaxSecurityPositions < kMaxPositions := by decide
  simp only [PositionManager.rowInUse, clampSecurityCount_of_le hcount]
  exact decide_eq_true ⟨hpos, by omega, hle⟩

/-- In a well-indexed table the rows are those of the map. -/
theorem WellIndexed.findRow (h : m.WellIndexed) (securityId : InternalSecurityId) :
    m.findRow securityId = (normalizeSecurityKey securityId.view).bind m.securityToRow.lookup := by
  simp only [PositionManager.findRow]
  cases normalizeSecurityKey securityId.view with
  | none => rfl
  | some key =>
      simp only [Option.bind_some]
      cases hrow : m.securityToRow.lookup key with
      | none => rfl
      | some row => exact if_pos (h.rowInUse hrow)

/-- The table after `add_security` has found a new key and a free row. -/
def withRow (m : PositionManager) (key : InternalSecurityId) (name : Bytes) : PositionManager :=
  { m with
    rows := Function.update m.rows (clampSecurityCount m.positionCount + 1)
      { id := FixedString.assign key.view, name := FixedString.assign name }
    securityToRow := m.securityToRow.insert key (clampSecurityCount m.positionCount + 1)
    positionCount := clampSecurityCount m.positionCount + 1
    header := { m.header with id := nextSecurityId (clampSecurityCount m.positionCount + 1) } }

/-- `add_security` adds a row, or changes no row and no key. -/
theorem addSecurity_cases (m : PositionManager) (code name : Bytes) (market : Market) :
    (∃ key, code.isEmpty = false ∧ buildInternalSecurityId market code = some key ∧
        m.securityToRow.lookup key = none ∧
          clampSecurityCount m.positionCount < kMaxSecurityPositions ∧
        (m.addSecurity code name market).2 = m.withRow key name) ∨
      ((∀ key, code.isEmpty = false → buildInternalSecurityId market code = some key →
          m.securityToRow.lookup key = none →
          ¬ clampSecurityCount m.positionCount < kMaxSecurityPositions) ∧
        ((m.addSecurity code name market).2 = m ∨
          (m.addSecurity code name market).2 =
            { m with positionCount := clampSecurityCount m.positionCount })) := by
  simp only [addSecurity]
  -- Each guard of `addSecurity` is one reason to refuse; only the last one also writes the clamped
  -- count.
  cases hcode : code.isEmpty with
  | true => exact Or.inr ⟨fun _ hne => absurd hne (by simp), Or.inl rfl⟩
  | false =>
      simp only [Bool.false_eq_true, if_false]
      cases hkey : buildInternalSecurityId market code with
      | none => exact Or.inr ⟨fun _ _ hne => absurd hne (by simp), Or.inl rfl⟩
      | some key =>
          simp only
          cases hrow : m.securityToRow.lookup key with
          | some row =>
              refine Or.inr ⟨fun key' _ heq hnone => ?_, Or.inl rfl⟩
              rw [← Option.some.inj heq, hrow] at hnone
              exact absurd hnone (by simp)
          | none =>
              simp only [Option.isSome_none, Bool.false_eq_true, if_false]
              by_cases hfull : clampSecurityCount m.positionCount ≥ kMaxSecurityPositions
              · rw [if_pos hfull]
                exact Or.inr ⟨fun _ _ _ _ => by omega, Or.inr rfl⟩
              · rw [if_neg hfull]
                exact Or.inl ⟨key, trivial, rfl, hrow, by omega, rfl⟩

theorem WellIndexed.withRow (h : m.WellIndexed) {key : InternalSecurityId} (name : Bytes)
    (hroom : clampSecurityCount m.positionCount < kMaxSecurityPositions) :
    (m.withRow key name).WellIndexed where
  count_le := hroom
  row_le key' row hrow := by
    have hclamp := clampSecurityCount_of_le h.count_le
    simp only [PositionManager.withRow, Map.lookup_insert_eq] at hrow ⊢
    split at hrow
    · rw [← Option.some.inj hrow]
      omega
    · have hle := h.row_le key' row hrow
      omega

/-- What a handler of the event loop does to the security rows in one step. -/
inductive RowStep (m : PositionManager) : PositionManager → Prop where
  | same : RowStep m m
  | onPosition (securityId : InternalSecurityId) (op : Position → Bool × Position) :
      RowStep m (m.onPosition securityId op).2
  | addSecurity (code name : Bytes) (market : Market) : RowStep m (m.addSecurity code name market).2

/-- The FUND row is not a security row. -/
theorem RowStep.fund {m' : PositionManager} (h : m.RowStep m') : m'.fund = m.fund := by
  cases h with
  | same => rfl
  | onPosition securityId op =>
      simp only [PositionManager.onPosition]
      split <;> rfl
  | addSecurity code name market =>
      obtain ⟨key, -, -, -, -, heq⟩ | ⟨-, heq | heq⟩ := m.addSecurity_cases code name market
      · rw [heq]
        rfl
      · rw [heq]
      · rw [heq]

/-- The handlers keep the table well indexed. -/
theorem WellIndexed.rowStep (h : m.WellIndexed) {m' : PositionManager} (hstep : m.RowStep m') :
    m'.WellIndexed := by
  cases hstep with
  | same => exact h
  | onPosition securityId op =>
      simp only [PositionManager.onPosition]
      split
      · exact h
      · exact ⟨h.count_le, h.row_le⟩
  | addSecurity code name market =>
      obtain ⟨key, -, -, -, hroom, heq⟩ | ⟨-, heq | heq⟩ := m.addSecurity_cases code name market
      · rw [heq]
        exact h.withRow name hroom
      · rw [heq]
        exact h
      · rw [heq, clampSecurityCount_of_le h.count_le]
        exact ⟨h.count_le, h.row_le⟩

/-- The loop of `initialize` maps only the rows it is given. -/
theorem WellIndexed.indexRows (h : m.WellIndexed) {rows : List Nat}
    (hrows : ∀ row ∈ rows, 1 ≤ row ∧ row ≤ m.positionCount) : (m.indexRows rows).2.WellIndexed := by
  induction rows generalizing m with
  | nil => exact h
  | cons row rest ih =>
      have hturn : (m.indexRow row).2.WellIndexed ∧
          (m.indexRow row).2.positionCount = m.positionCount := by
        simp only [indexRow]
        split
        · exact ⟨h, rfl⟩
        split
        · exact ⟨h, rfl⟩
        · refine ⟨⟨h.count_le, fun key row' hlookup => ?_⟩, rfl⟩
          simp only [Map.lookup_insert_eq] at hlookup
          split at hlookup
          · rw [← Option.some.inj hlookup]
            exact hrows row List.mem_cons_self
          · exact h.row_le key row' hlookup
      have hrest : ∀ row' ∈ rest, 1 ≤ row' ∧ row' ≤ (m.indexRow row).2.positionCount := by
        intro row' hmem
        rw [hturn.2]
        exact hrows row' (List.mem_cons_of_mem row hmem)
      have hloop := ih hturn.1 hrest
      simp only [PositionManager.indexRows]
      split
      next m' heq =>
        rw [heq] at hloop
        exact hloop
      next m' heq =>
        rw [heq] at hturn
        exact hturn.1

/-- An initialised table is well indexed after a restart. -/
theorem wellIndexed_initializePositions (hinit : m.header.initState = 1)
    (load : PositionManager → Bool × PositionManager)
    (hok : (m.initializePositions load).1 = true) : (m.initializePositions load).2.WellIndexed := by
  have hcount : clampSecurityCount m.positionCount ≤ kMaxSecurityPositions := by
    rw [clampSecurityCount]
    split <;> omega
  have hempty :
      ({ m with securityToRow := ∅, positionCount := clampSecurityCount m.positionCount } :
      PositionManager).WellIndexed := ⟨hcount, fun _ _ hlookup => absurd hlookup (by simp)⟩
  have hrange : ∀ row ∈ List.range' 1 (clampSecurityCount m.positionCount),
      1 ≤ row ∧ row ≤ clampSecurityCount m.positionCount := by
    intro row hmem
    rw [List.mem_range'_1] at hmem
    omega
  have hrows := hempty.indexRows hrange
  simp only [initializePositions] at hok ⊢
  split at hok
  · exact absurd hok (by simp)
  next hcompatible =>
    rw [if_neg hcompatible]
    split at hok
    next hfresh => exact absurd hinit hfresh
    next hnotFresh =>
      rw [if_neg hnotFresh]
      split
      next m' heq =>
        rw [heq] at hrows
        exact hrows
      next m' heq =>
        rw [heq] at hrows
        exact ⟨hrows.count_le, hrows.row_le⟩

/-! ## The row of one security -/

/-- A row operation changes the row of its security. -/
theorem getPosition_onPosition (m : PositionManager) (securityId : InternalSecurityId)
    (op : Position → Bool × Position) :
    (m.onPosition securityId op).2.getPosition securityId =
      (m.getPosition securityId).map fun p => (op p).2 := by
  cases hrow : m.findRow securityId with
  | none => simp [onPosition, getPosition, hrow]
  | some row =>
      have hkeep : ({ m with rows := Function.update m.rows row (op (m.rows row)).2 } :
          PositionManager).findRow securityId = some row := hrow
      simp only [onPosition, getPosition, hrow, hkeep, Option.map_some, Function.update_self]

/-- `add_security` would give the security a row. -/
def Creatable (m : PositionManager) (code : Bytes) (market : Market)
    (securityId : InternalSecurityId) : Prop :=
  code.isEmpty = false ∧
    normalizeSecurityKey securityId.view = buildInternalSecurityId market code ∧
    (buildInternalSecurityId market code).isSome = true ∧ m.positionCount < kMaxSecurityPositions

instance (m : PositionManager) (code : Bytes) (market : Market) (securityId : InternalSecurityId) :
    Decidable (m.Creatable code market securityId) := inferInstanceAs (Decidable (_ ∧ _))

/-- The row that `add_security` fills in. -/
def freshRow (code name : Bytes) (market : Market) : Position :=
  { id := FixedString.assign (((buildInternalSecurityId market code).getD FixedString.clear).view)
    name := FixedString.assign name }

/-- `add_security` for a security without a row: the security gets a fresh row, or still has
none. -/
theorem getPosition_addSecurity (h : m.WellIndexed) (hnone : m.getPosition securityId = none)
    (code name : Bytes) (market : Market) :
    (m.addSecurity code name market).2.getPosition securityId =
      if m.Creatable code market securityId then some (freshRow code name market) else none := by
  have hclamp := clampSecurityCount_of_le h.count_le
  have hfind : (normalizeSecurityKey securityId.view).bind m.securityToRow.lookup = none := by
    rw [← h.findRow]
    exact Option.map_eq_none_iff.1 hnone
  -- The row is created under its key, or refused.
  obtain ⟨key, hcode, hkey, hfree, hroom, heq⟩ | ⟨hrefused, heq⟩ :=
    m.addSecurity_cases code name market
  · have hwell : (m.withRow key name).WellIndexed := h.withRow name hroom
    rw [heq, getPosition, hwell.findRow]
    -- Only the ids with the same normal form find the new row.
    by_cases hsame : normalizeSecurityKey securityId.view = some key
    · have hcreatable : m.Creatable code market securityId :=
        ⟨hcode, hsame.trans hkey.symm, by rw [hkey]; rfl, by omega⟩
      rw [if_pos hcreatable, hsame, Option.bind_some]
      simp only [withRow, Map.lookup_insert_eq, if_true, Option.map_some,
        Function.update_self, freshRow, hkey, Option.getD_some]
    · rw [if_neg fun hcreatable => hsame (hcreatable.2.1.trans hkey)]
      cases hnorm : normalizeSecurityKey securityId.view with
      | none => rfl
      | some key' =>
          rw [hnorm, Option.bind_some] at hfind
          have hne : ¬ key' = key := fun heq => hsame (by rw [hnorm, heq])
          simp only [Option.bind_some, withRow, Map.lookup_insert_eq, if_neg hne,
            hfind, Option.map_none]
  -- A refused row is not one that could be created.
  · have hnot : ¬ m.Creatable code market securityId := by
      rintro ⟨hcode, hsame, hsome, hroom⟩
      obtain ⟨key, hkey⟩ := Option.isSome_iff_exists.1 hsome
      rw [hsame, hkey, Option.bind_some] at hfind
      exact hrefused key hcode hkey hfind (by omega)
    rw [if_neg hnot]
    rcases heq with heq | heq
    · rw [heq]
      exact hnone
    · rw [heq, hclamp]
      exact hnone

end PositionManager

end AccountServices
