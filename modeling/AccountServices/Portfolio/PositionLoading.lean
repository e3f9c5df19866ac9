import AccountServices.Portfolio.PositionTable

/-!
# What the loaders leave in the table

Seen from outside a security table is a list of keys with their numbers, and a row of a loader is
inserted or updated in it. So a list of valid rows leaves every key once, in the order of first
appearance, with the numbers of its last row, whichever loader reads them
(`loading_keeps_last_rows`).

A row is published when it is added and not when the load has succeeded. A load that fails behind
its first row leaves rows in a table that is not initialised, and such a table is refused by every
later initialisation (`retryable_iff`).
-/

set_option autoImplicit false

namespace AccountServices

open Foundation

/-- A security row as the loaders give it: its key and its numbers. -/
abbrev PositionRecord := InternalSecurityId × PositionNumbers

/-- The keys of a list of rows, each once, in the order of their first appearance. -/
def distinctKeys (records : List PositionRecord) : List InternalSecurityId :=
  firstKeys (records.map Prod.fst)

/-- A valid key text: it has a normal form, which is found again. -/
def ReadsKey (text : Bytes) (key : InternalSecurityId) : Prop :=
  normalizeInternalSecurityId text = some key ∧ normalizeSecurityKey key.view = some key

namespace PositionManager

/-- The security rows in use, in order. -/
def securities (m : PositionManager) : List PositionRecord :=
  (List.range' 1 m.positionCount).map fun row => ((m.rows row).id, (m.rows row).numbers)

variable {m : PositionManager} {text name : Bytes} {key : InternalSecurityId}
  {numbers : PositionNumbers}

theorem length_securities (m : PositionManager) : m.securities.length = m.positionCount := by
  rw [securities, List.length_map, List.length_range']

/-- The keys of the table are those of the map. -/
theorem Keyed.mem_securities (h : m.Keyed) :
    key ∈ m.securities.map Prod.fst ↔ (m.securityToRow.lookup key).isSome = true := by
  rw [securities, List.map_map, List.mem_map, Option.isSome_iff_exists]
  constructor
  · rintro ⟨row, hrow, hid⟩
    rw [List.mem_range'_1] at hrow
    exact ⟨row, (h.keyed key row).2 ⟨by omega, by omega, hid⟩⟩
  · rintro ⟨row, hrow⟩
    obtain ⟨hpos, hle, hid⟩ := (h.keyed key row).1 hrow
    exact ⟨row, List.mem_range'_1.2 (by omega), hid⟩

/-- Writing the numbers of a security changes its row and no other. -/
theorem Keyed.securities_onPosition (h : m.Keyed)
    (hnormal : normalizeSecurityKey key.view = some key)
    (hknown : (m.securityToRow.lookup key).isSome = true) (numbers : PositionNumbers) :
    (m.onPosition key fun pos => (true, pos.withNumbers numbers)).2.securities =
      m.securities.map fun r => if r.1 = key then (key, numbers) else r := by
  obtain ⟨row, hrow⟩ := Option.isSome_iff_exists.1 hknown
  obtain ⟨hpos, hle, hid⟩ := (h.keyed key row).1 hrow
  have hfind : m.findRow key = some row := by
    rw [h.wellIndexed.findRow, hnormal, Option.bind_some, hrow]
  simp only [PositionManager.onPosition, hfind, securities, List.map_map]
  refine List.map_congr_left fun row' hrow' => ?_
  rw [List.mem_range'_1] at hrow'
  simp only [Function.comp_apply]
  by_cases heq : row' = row
  · rw [heq, Function.update_self, if_pos hid, Position.id_withNumbers,
      Position.numbers_withNumbers, hid]
  · have hne : (m.rows row').id ≠ key := by
      intro hsame
      exact heq (h.row_unique (by omega) (by omega) hpos hle (hsame.trans hid.symm))
    rw [Function.update_of_ne heq, if_neg hne]

/-- A new row goes to the end. -/
theorem Keyed.securities_withRow (h : m.Keyed) (key : InternalSecurityId) (name : Bytes) :
    ∃ numbers, (m.withRow key name).securities = m.securities ++ [(key, numbers)] := by
  have hclamp := clampSecurityCount_of_le h.count_le
  have hid : (FixedString.assign key.view : InternalSecurityId) = key := FixedString.assign_view key
  refine ⟨(({} : Position)).numbers, ?_⟩
  simp only [securities, PositionManager.withRow, hclamp, List.range'_1_concat, List.map_append,
    List.map_singleton, Nat.add_comm 1, Function.update_self, hid]
  congr 1
  refine List.map_congr_left fun row hrow => ?_
  rw [List.mem_range'_1] at hrow
  rw [Function.update_of_ne (by omega)]

/-- A row of a loader inserts or updates its security. -/
theorem Keyed.securities_seedRow (h : m.Keyed) (hkey : ReadsKey text key)
    (hok : (m.seedRow text name numbers).1 = true) :
    (m.seedRow text name numbers).2.securities = upsert m.securities (key, numbers) := by
  rw [seedRow_eq hkey.1] at hok ⊢
  by_cases hknown : (m.securityToRow.lookup key).isSome = true
  · rw [if_pos hknown, h.securities_onPosition hkey.2 hknown, upsert,
      if_pos (h.mem_securities.2 hknown)]
  · rw [if_neg hknown] at hok ⊢
    by_cases hroom : clampSecurityCount m.positionCount < kMaxSecurityPositions
    · have hrow := h.withRow hkey.2 (Option.not_isSome_iff_eq_none.1 hknown) hroom
        (seedName key name)
      have hadded :
          ((m.withRow key (seedName key name)).securityToRow.lookup key).isSome = true := by
        simp only [PositionManager.withRow, Map.lookup_insert_eq, if_true, Option.isSome_some]
      obtain ⟨old, hsecurities⟩ := h.securities_withRow key (seedName key name)
      have hnew : key ∉ m.securities.map Prod.fst := fun hmem => hknown (h.mem_securities.1 hmem)
      rw [if_pos hroom, hrow.securities_onPosition hkey.2 hadded, hsecurities, List.map_append,
        List.map_singleton, if_pos rfl, upsert, if_neg hnew]
      congr 1
      -- the rows before it have other keys
      have hsame : ∀ r ∈ m.securities, (if r.1 = key then (key, numbers) else r) = r := by
        intro r hr
        rw [if_neg fun heq : r.1 = key => hnew (heq ▸ List.mem_map_of_mem hr)]
      rw [List.map_congr_left hsame, List.map_id']
    · rw [if_neg hroom] at hok
      exact absurd hok (by simp)

/-! ## Valid rows -/

/-- The table holds what a list of rows leaves behind. -/
structure Filled (records : List PositionRecord) (m : PositionManager) : Prop where
  keyed : m.Keyed
  securities : m.securities = records.foldl upsert []

/-- One more valid row, when there is room for its key. -/
theorem Filled.seedRow {records : List PositionRecord} (h : Filled records m)
    (hkey : ReadsKey text key) (name : Bytes) (numbers : PositionNumbers)
    (hroom : (distinctKeys (records ++ [(key, numbers)])).length ≤ kMaxSecurityPositions) :
    (m.seedRow text name numbers).1 = true ∧
      Filled (records ++ [(key, numbers)]) (m.seedRow text name numbers).2 := by
  simp only [distinctKeys] at hroom
  have hkeys : m.securities.map Prod.fst = firstKeys (records.map Prod.fst) := by
    have hlaw := congrArg (List.map Prod.fst) (foldl_upsert records)
    rw [List.map_map, List.map_map] at hlaw
    rw [h.securities]
    exact hlaw.trans (List.map_id _)
  have hok : (m.seedRow text name numbers).1 = true := by
    rw [seedRow_ok]
    simp only [admits, hkey.1, decide_eq_true hkey.2, Bool.true_and]
    cases hrow : m.securityToRow.lookup key with
    | some row => exact h.keyed.wellIndexed.rowInUse hrow
    | none =>
        -- a key without a row is new, so its row is counted in the room
        have hnew : key ∉ records.map Prod.fst := by
          intro hmem
          have hknown := h.keyed.mem_securities.1 (hkeys ▸ mem_firstKeys.2 hmem)
          rw [hrow] at hknown
          exact absurd hknown (by simp)
        have hlength := congrArg List.length hkeys
        rw [List.length_map, length_securities] at hlength
        rw [List.map_append, List.map_singleton, firstKeys_append, if_neg hnew, List.length_append,
          List.length_singleton] at hroom
        rw [clampSecurityCount_of_le h.keyed.count_le]
        refine decide_eq_true ?_
        omega
  refine ⟨hok, h.keyed.seedRow hok, ?_⟩
  rw [h.keyed.securities_seedRow hkey hok, List.foldl_append, h.securities]
  rfl

end PositionManager

/-- A line of the file with these columns is a valid row for the record. -/
structure ValidColumns (columns : List Bytes) (record : PositionRecord) : Prop where
  enough : 14 ≤ columns.length
  key : ReadsKey (columns.getD 1 []) record.1
  numbers : ∀ i : Fin 11, parseU64Field (columns.getD (3 + i) []) = some (record.2 i)

/-- The lines hold the records, in order, with comments, blanks and headers between them. -/
inductive CsvFile : List Bytes → List PositionRecord → Prop where
  | nil : CsvFile [] []
  | skip {line : Bytes} {lines : List Bytes} {records : List PositionRecord}
      (hline : readCsvLine line = .skip)
      (hrest : CsvFile lines records) : CsvFile (line :: lines) records
  | position {line : Bytes} {columns : List Bytes} {lines : List Bytes} {record : PositionRecord}
      {records : List PositionRecord} (hline : readCsvLine line = .position columns)
      (hvalid : ValidColumns columns record) (hrest : CsvFile lines records) :
      CsvFile (line :: lines) (record :: records)

/-- The rows of the query hold the records, in order. -/
inductive DbTable : List SqlStep → List PositionRecord → Prop where
  | nil : DbTable [] []
  | row {columns : List SqlValue} {row : DbPositionRow} {steps : List SqlStep}
      {record : PositionRecord}
      {records : List PositionRecord} (hread : readDbPositionRow columns = some row)
      (hkey : ReadsKey row.internalSecurityId record.1) (hnumbers : row.numbers = record.2)
      (hrest : DbTable steps records) : DbTable (.row columns :: steps) (record :: records)

namespace PositionManager

variable {m : PositionManager} {records rest : List PositionRecord}

/-- What is left of the room after a row. -/
theorem room_of_cons {record : PositionRecord}
    (hroom : (distinctKeys (records ++ record :: rest)).length ≤ kMaxSecurityPositions) :
    (distinctKeys (records ++ [record])).length ≤ kMaxSecurityPositions ∧
      (distinctKeys ((records ++ [record]) ++ rest)).length ≤ kMaxSecurityPositions := by
  have happend : (records ++ [record]) ++ rest = records ++ record :: rest :=
    (List.append_cons records record rest).symm
  rw [happend]
  refine ⟨Nat.le_trans ?_ hroom, hroom⟩
  have hkeys : ((records ++ [record]) ++ rest).map Prod.fst =
      (records ++ [record]).map Prod.fst ++ rest.map Prod.fst := List.map_append
  rw [← happend, distinctKeys, distinctKeys, hkeys]
  exact length_firstKeys_le ((records ++ [record]).map Prod.fst) (rest.map Prod.fst)

/-- The file loader reads every valid row. -/
theorem Filled.loadPositionsCsv {lines : List Bytes} (h : Filled records m)
    (hfile : CsvFile lines rest)
    (hroom : (distinctKeys (records ++ rest)).length ≤ kMaxSecurityPositions) :
    (m.loadPositionsCsv lines).1 = true ∧
      Filled (records ++ rest) (m.loadPositionsCsv lines).2 := by
  induction hfile generalizing records m with
  | nil => exact ⟨rfl, by rw [List.append_nil]; exact h⟩
  | skip hline _ ih =>
      simp only [PositionManager.loadPositionsCsv, hline]
      exact ih h hroom
  | @position line columns lines record rest hline hvalid _ ih =>
      obtain ⟨hfirst, hrest⟩ := room_of_cons hroom
      obtain ⟨hok, hfilled⟩ := h.seedRow hvalid.key (columns.getD 2 []) record.2 hfirst
      simp only [PositionManager.loadPositionsCsv, hline, applyPositionSeedRow,
        if_neg (Nat.not_lt.2 hvalid.enough), readNumbers_eq_some.2 hvalid.numbers]
      generalize m.seedRow (columns.getD 1 []) (columns.getD 2 []) record.2 = next at hok hfilled
      obtain ⟨answer, m'⟩ := next
      simp only at hok hfilled
      subst hok
      simp only
      rw [List.append_cons]
      exact ih hfilled hrest

/-- The database loader reads every valid row. -/
theorem Filled.loadPositionsFromDb {steps : List SqlStep} (h : Filled records m)
    (htable : DbTable steps rest)
    (hroom : (distinctKeys (records ++ rest)).length ≤ kMaxSecurityPositions) :
    (m.loadPositionsFromDb steps).1 = true ∧
      Filled (records ++ rest) (m.loadPositionsFromDb steps).2 := by
  induction htable generalizing records m with
  | nil => exact ⟨rfl, by rw [List.append_nil]; exact h⟩
  | @row columns row steps record rest hread hkey hnumbers _ ih =>
      obtain ⟨hfirst, hrest⟩ := room_of_cons hroom
      obtain ⟨hok, hfilled⟩ := h.seedRow hkey [] record.2 hfirst
      simp only [PositionManager.loadPositionsFromDb, hread, applyPositionDbRow, hnumbers]
      generalize m.seedRow row.internalSecurityId [] record.2 = next at hok hfilled
      obtain ⟨answer, m'⟩ := next
      simp only at hok hfilled
      subst hok
      simp only
      rw [List.append_cons]
      exact ih hfilled hrest

theorem filled_cleared (m : PositionManager) : Filled [] m.cleared := ⟨keyed_cleared m, rfl⟩

end PositionManager

/-! ## The same data in both sources -/

/-- A row of the query with these texts and numbers. -/
def dbStep (row : Bytes × DbPositionRow) : SqlStep :=
  .row (.text row.1 :: .text row.2.internalSecurityId ::
    List.ofFn fun i => .integer (row.2.numbers i).toInt64)

/-- A number below `2 ^ 63` is read back from the column that stores it. -/
theorem readRequiredU64_toInt64 {n : UInt64} (h : n.toNat < 2 ^ 63) :
    readRequiredU64 (.integer n.toInt64) = some n := by
  have hvalue : n.toInt64.toInt = n.toNat := by
    rw [Int64.toInt, UInt64.toBitVec_toInt64, BitVec.toInt_eq_toNat_of_lt
      (by rw [UInt64.toNat_toBitVec]; omega), UInt64.toNat_toBitVec]
  have hpos : ¬ n.toInt64 < 0 := by
    rw [Int64.lt_iff_toInt_lt, hvalue, Int64.toInt_zero]
    omega
  simp only [readRequiredU64, if_neg hpos, UInt64.toUInt64_toInt64]

theorem readDbPositionRow_dbStep {row : Bytes × DbPositionRow}
    (h : ∀ i, (row.2.numbers i).toNat < 2 ^ 63) :
    readDbPositionRow (.text row.1 :: .text row.2.internalSecurityId ::
      List.ofFn fun i => .integer (row.2.numbers i).toInt64) = some row.2 := by
  have hnumbers : ∀ i : Fin 11, readRequiredU64
      (sqlColumn (.text row.1 :: .text row.2.internalSecurityId ::
      List.ofFn fun i => .integer (row.2.numbers i).toInt64) (2 + i)) = some (row.2.numbers i) := by
    intro i
    rw [sqlColumn, Nat.add_comm, List.getD_cons_succ, List.getD_cons_succ,
      List.getD_eq_getElem?_getD, List.getElem?_ofFn, dif_pos i.isLt, Option.getD_some]
    exact readRequiredU64_toInt64 (h i)
  simp only [readDbPositionRow, readNumbers_eq_some.2 hnumbers]
  rfl

/-- Rows with the texts and the numbers of the records are a valid query result. -/
theorem dbTable_map {rows : List (Bytes × DbPositionRow)} {records : List PositionRecord}
    (hrows : List.Forall₂ (fun row record => ReadsKey row.2.internalSecurityId record.1 ∧
      row.2.numbers = record.2) rows records)
    (hsmall : ∀ record ∈ records, ∀ i, (record.2 i).toNat < 2 ^ 63) :
    DbTable (rows.map dbStep) records := by
  induction hrows with
  | nil => exact .nil
  | @cons row record rows records hrow _ ih =>
      refine .row (readDbPositionRow_dbStep fun i => ?_) hrow.1 hrow.2
        (ih fun r hr => hsmall r (List.mem_cons_of_mem record hr))
      rw [hrow.2]
      exact hsmall record List.mem_cons_self i

/-! ## Last rows win -/

/-- The table has every key of the rows once, in the order of first appearance, with the numbers of
its last row. -/
def PositionManager.HoldsLastRows (m : PositionManager) (records : List PositionRecord) : Prop :=
  m.securities.map (fun r => (r.1, some r.2)) =
    (distinctKeys records).map fun key => (key, lastValue records key)

namespace PositionManager

variable {m : PositionManager} {records : List PositionRecord}

theorem Filled.holdsLastRows (h : Filled records m) : m.HoldsLastRows records := by
  rw [HoldsLastRows, h.securities]
  exact foldl_upsert records

/-- A fresh table after the lines of a file. -/
theorem Fresh.loadCsv (h : m.Fresh) {lines : List Bytes} (hfile : CsvFile lines records)
    (hroom : (distinctKeys records).length ≤ kMaxSecurityPositions) :
    (m.initializePositions (PositionSource.file (some lines)).load).1 = true ∧
      (m.initializePositions (PositionSource.file (some lines)).load).2.securities =
        records.foldl upsert [] ∧
      (m.initializePositions (PositionSource.file (some lines)).load).2.HoldsLastRows records := by
  obtain ⟨hok, hfilled⟩ := (filled_cleared m).loadPositionsCsv hfile hroom
  have hload : ((PositionSource.file (some lines)).load m.cleared).1 = true := hok
  rw [h.initializePositions, if_pos hload]
  exact ⟨rfl, hfilled.securities, hfilled.holdsLastRows⟩

/-- A fresh table after the rows of a query. -/
theorem Fresh.loadDb (h : m.Fresh) {fund steps : List SqlStep}
    (hfund : (loadFundFromDb fund).isSome = true) (htable : DbTable steps records)
    (hroom : (distinctKeys records).length ≤ kMaxSecurityPositions) :
    (m.initializePositions (PositionSource.db (some ⟨some fund, some steps⟩)).load).1 = true ∧
      (m.initializePositions (PositionSource.db (some ⟨some fund, some steps⟩)).load).2.securities =
        records.foldl upsert [] ∧
      (m.initializePositions
        (PositionSource.db (some ⟨some fund, some steps⟩)).load).2.HoldsLastRows
        records := by
  obtain ⟨info, hinfo⟩ := Option.isSome_iff_exists.1 hfund
  have hstart : Filled [] (m.cleared.overwriteFundInfo info) :=
    ⟨(keyed_cleared m).withFund info, rfl⟩
  obtain ⟨hok, hfilled⟩ := hstart.loadPositionsFromDb htable hroom
  have heq : (PositionSource.db (some ⟨some fund, some steps⟩)).load m.cleared =
      (m.cleared.overwriteFundInfo info).loadPositionsFromDb steps := by
    simp only [PositionSource.load, Option.bind_some, hinfo]
  rw [h.initializePositions, heq, if_pos hok]
  exact ⟨rfl, hfilled.securities, hfilled.holdsLastRows⟩

end PositionManager

/-- The columns for a security with the same character in every numeric column. -/
def digitColumns (key : List Char) (digit : Char) : List Bytes :=
  asciiBytes ['p', 'o', 's', 'i', 't', 'i', 'o', 'n'] :: asciiBytes key :: [] ::
    List.replicate 11 (asciiBytes [digit])

/-- The line of the file with these columns. -/
def digitLine (key : List Char) (digit : Char) : Bytes :=
  List.intercalate (asciiBytes [',']) (digitColumns key digit)

/-- The key of the security `1` in Shenzhen. -/
def firstKey : InternalSecurityId := FixedString.assign (asciiBytes ['X', 'S', 'H', 'E', '_', '1'])

namespace PositionManager

variable {m : PositionManager}

/-- Whether a row of the file reaches the table: it has enough columns, a key with a normal form,
and numbers. -/
def columnsReach (columns : List Bytes) : Bool :=
  decide (14 ≤ columns.length) &&
    (readNumbers fun i => parseU64Field (columns.getD (3 + i) [])).isSome &&
    (normalizeInternalSecurityId (columns.getD 1 [])).isSome

/-- Whether the first line that is not skipped is a row that reaches the table. -/
def linesReach : List Bytes → Bool
  | [] => false
  | line :: rest =>
      match readCsvLine line with
      | .skip => linesReach rest
      | .invalid => false
      | .position columns => columnsReach columns

/-- Whether the first step of the query is a row that reaches the table. -/
def stepsReach : List SqlStep → Bool
  | .row columns :: _ =>
      match readDbPositionRow columns with
      | none => false
      | some row => (normalizeInternalSecurityId row.internalSecurityId).isSome
  | _ => false

end PositionManager

/-- Whether the first row of a source reaches the table. -/
def PositionSource.firstRowReaches : PositionSource → Bool
  | .file none => false
  | .file (some lines) => PositionManager.linesReach lines
  | .db none => false
  | .db (some database) =>
      (database.fund.bind PositionManager.loadFundFromDb).isSome &&
        match database.positions with
        | none => false
        | some steps => PositionManager.stepsReach steps

namespace PositionManager

variable {m : PositionManager}

theorem positionCount_onPosition (m : PositionManager) (securityId : InternalSecurityId)
    (op : Position → Bool × Position) :
    (m.onPosition securityId op).2.positionCount = m.positionCount := by
  simp only [onPosition]
  split <;> rfl

theorem clampSecurityCount_pos {count : Nat} (h : 0 < count) : 0 < clampSecurityCount count := by
  have hmax : 0 < kMaxSecurityPositions := by decide
  simp only [clampSecurityCount]
  split <;> omega

/-- A row that reaches the table leaves a row in it, applied or not. -/
theorem positionCount_seedRow {text name : Bytes} {numbers : PositionNumbers}
    (h : 0 < m.positionCount ∨ (normalizeInternalSecurityId text).isSome = true ∧
      m.securityToRow = ∅ ∧ m.positionCount = 0) :
    0 < (m.seedRow text name numbers).2.positionCount := by
  cases hnorm : normalizeInternalSecurityId text with
  | none =>
      rw [seedRow_of_none hnorm]
      rcases h with h | ⟨hsome, -, -⟩
      · exact h
      · rw [hnorm] at hsome
        exact absurd hsome (by simp)
  | some key =>
      rw [seedRow_eq hnorm]
      rcases h with h | ⟨-, hmap, hzero⟩
      · split
        · rw [positionCount_onPosition]
          exact h
        · split
          · rw [positionCount_onPosition]
            exact Nat.succ_pos _
          · exact clampSecurityCount_pos h
      · rw [if_neg (by rw [hmap]; simp), if_pos (by rw [hzero]; decide), positionCount_onPosition]
        exact Nat.succ_pos _

theorem applyPositionSeedRow_of_reach {columns : List Bytes} (h : columnsReach columns = true) :
    ∃ numbers, m.applyPositionSeedRow columns = m.seedRow (columns.getD 1 [])
      (columns.getD 2 []) numbers ∧
      (normalizeInternalSecurityId (columns.getD 1 [])).isSome = true := by
  simp only [columnsReach, Bool.and_eq_true, decide_eq_true_eq] at h
  obtain ⟨⟨henough, hnumbers⟩, hkey⟩ := h
  obtain ⟨numbers, hread⟩ := Option.isSome_iff_exists.1 hnumbers
  refine ⟨numbers, ?_, hkey⟩
  simp only [applyPositionSeedRow, if_neg (Nat.not_lt.2 henough), hread]

theorem applyPositionSeedRow_of_not_reach {columns : List Bytes}
    (h : columnsReach columns = false) : m.applyPositionSeedRow columns = (false, m) := by
  simp only [applyPositionSeedRow]
  split
  · rfl
  next hlong =>
    split
    · rfl
    next numbers hread =>
      simp only [columnsReach, hread, Option.isSome_some, Bool.and_true, decide_eq_true
        (Nat.not_lt.1 hlong), Bool.true_and] at h
      exact seedRow_of_none
        (Option.not_isSome_iff_eq_none.1 (by rw [h]; exact Bool.false_ne_true)) _ _

/-- Rows are never taken back. -/
theorem positionCount_loadPositionsCsv (lines : List Bytes) (h : 0 < m.positionCount) :
    0 < (m.loadPositionsCsv lines).2.positionCount := by
  induction lines generalizing m with
  | nil => exact h
  | cons line rest ih =>
      simp only [loadPositionsCsv]
      split
      · exact ih h
      · exact h
      next columns _ =>
        have hrow : 0 < (m.applyPositionSeedRow columns).2.positionCount := by
          cases hreach : columnsReach columns with
          | false => rw [applyPositionSeedRow_of_not_reach hreach]; exact h
          | true =>
              obtain ⟨numbers, heq, -⟩ := @applyPositionSeedRow_of_reach m columns hreach
              rw [heq]
              exact positionCount_seedRow (Or.inl h)
        split
        next m' heq =>
          rw [heq] at hrow
          exact ih hrow
        next m' heq =>
          rw [heq] at hrow
          exact hrow

theorem positionCount_loadPositionsFromDb (steps : List SqlStep) (h : 0 < m.positionCount) :
    0 < (m.loadPositionsFromDb steps).2.positionCount := by
  induction steps generalizing m with
  | nil => exact h
  | cons step rest ih =>
      cases step with
      | error => exact h
      | row columns =>
          simp only [loadPositionsFromDb]
          split
          · exact h
          next row _ =>
            have hrow : 0 < (m.applyPositionDbRow row).2.positionCount :=
              positionCount_seedRow (Or.inl h)
            split
            next m' heq =>
              rw [heq] at hrow
              exact ih hrow
            next m' heq =>
              rw [heq] at hrow
              exact hrow

/-- The lines of a file, read into an empty table: the first row reaches the table, or nothing
changes. -/
theorem loadPositionsCsv_empty (hmap : m.securityToRow = ∅) (hzero : m.positionCount = 0)
    (lines : List Bytes) :
    (linesReach lines = true → 0 < (m.loadPositionsCsv lines).2.positionCount) ∧
      (linesReach lines = false → (m.loadPositionsCsv lines).2 = m) := by
  induction lines with
  | nil => exact ⟨fun h => Bool.noConfusion h, fun _ => rfl⟩
  | cons line rest ih =>
      cases hline : readCsvLine line with
      | skip =>
          simp only [linesReach, loadPositionsCsv, hline]
          exact ih
      | invalid =>
          simp only [linesReach, loadPositionsCsv, hline]
          exact ⟨fun h => Bool.noConfusion h, fun _ => trivial⟩
      | position columns =>
          simp only [linesReach, loadPositionsCsv, hline]
          refine ⟨fun hreach => ?_, fun hreach => ?_⟩
          · obtain ⟨numbers, heq, hsome⟩ := @applyPositionSeedRow_of_reach m columns hreach
            have hrow : 0 < (m.applyPositionSeedRow columns).2.positionCount := by
              rw [heq]
              exact positionCount_seedRow (Or.inr ⟨hsome, hmap, hzero⟩)
            split
            next m' hanswer =>
              rw [hanswer] at hrow
              exact positionCount_loadPositionsCsv rest hrow
            next m' hanswer =>
              rw [hanswer] at hrow
              exact hrow
          · rw [applyPositionSeedRow_of_not_reach hreach]

theorem loadPositionsFromDb_empty (hmap : m.securityToRow = ∅) (hzero : m.positionCount = 0)
    (steps : List SqlStep) :
    (stepsReach steps = true → 0 < (m.loadPositionsFromDb steps).2.positionCount) ∧
      (stepsReach steps = false → (m.loadPositionsFromDb steps).2 = m) := by
  cases steps with
  | nil => exact ⟨fun h => Bool.noConfusion h, fun _ => rfl⟩
  | cons step rest =>
      cases step with
      | error => exact ⟨fun h => Bool.noConfusion h, fun _ => rfl⟩
      | row columns =>
          cases hread : readDbPositionRow columns with
          | none =>
              simp only [stepsReach, loadPositionsFromDb, hread]
              exact ⟨fun h => Bool.noConfusion h, fun _ => trivial⟩
          | some row =>
              simp only [stepsReach, loadPositionsFromDb, hread]
              refine ⟨fun hreach => ?_, fun hreach => ?_⟩
              · have hrow : 0 < (m.applyPositionDbRow row).2.positionCount :=
                  positionCount_seedRow (Or.inr ⟨hreach, hmap, hzero⟩)
                split
                next m' hanswer =>
                  rw [hanswer] at hrow
                  exact positionCount_loadPositionsFromDb rest hrow
                next m' hanswer =>
                  rw [hanswer] at hrow
                  exact hrow
              · have hnone := Option.not_isSome_iff_eq_none.1 (Bool.eq_false_iff.1 hreach)
                simp only [applyPositionDbRow, seedRow_of_none hnone]

/-- A source, loaded into a cleared table: the first row reaches the table, or only the FUND row
changes. -/
theorem load_cleared (m : PositionManager) (source : PositionSource) :
    (source.firstRowReaches = true → 0 < (source.load m.cleared).2.positionCount) ∧
      (source.firstRowReaches = false →
        ∃ fund, (source.load m.cleared).2 = { m.cleared with fund := fund }) := by
  cases source with
  | file file =>
      cases file with
      | none => exact ⟨fun h => Bool.noConfusion h, fun _ => ⟨_, rfl⟩⟩
      | some lines =>
          obtain ⟨hreach, hnot⟩ := @loadPositionsCsv_empty m.cleared rfl rfl lines
          exact ⟨hreach, fun h => ⟨_, hnot h⟩⟩
  | db database =>
      cases database with
      | none => exact ⟨fun h => Bool.noConfusion h, fun _ => ⟨_, rfl⟩⟩
      | some database =>
          simp only [PositionSource.firstRowReaches, PositionSource.load]
          cases database.fund.bind loadFundFromDb with
          | none => exact ⟨fun h => Bool.noConfusion h, fun _ => ⟨_, rfl⟩⟩
          | some fund =>
              cases database.positions with
              | none => exact ⟨fun h => Bool.noConfusion h, fun _ => ⟨fund, rfl⟩⟩
              | some steps =>
                  obtain ⟨hreach, hnot⟩ :=
                    @loadPositionsFromDb_empty (m.cleared.overwriteFundInfo fund) rfl rfl steps
                  exact ⟨hreach, fun h => ⟨fund, hnot h⟩⟩

/-- What a failed initialisation has to leave behind: a table that is not initialised and empty, and
that every source fills with the FUND row and the rows of securities with which it fills the
untouched table. -/
structure Retryable (m : PositionManager) (source : PositionSource) : Prop where
  initState : (m.initializePositions source.load).2.header.initState = 0
  empty : (m.initializePositions source.load).2.positionCount = 0
  retry : ∀ next : PositionSource, (m.initializePositions next.load).1 = true →
    ((m.initializePositions source.load).2.initializePositions next.load).1 = true ∧
      ((m.initializePositions source.load).2.initializePositions next.load).2.fund =
        (m.initializePositions next.load).2.fund ∧
      ((m.initializePositions source.load).2.initializePositions next.load).2.rows =
        (m.initializePositions next.load).2.rows ∧
      ((m.initializePositions source.load).2.initializePositions next.load).2.positionCount =
        (m.initializePositions next.load).2.positionCount

end PositionManager

/-- A failed initialisation of a fresh table can be retried if and only if the first row of its
source did not reach the table. -/
theorem retryable_iff {m : PositionManager} (hfresh : m.Fresh) {source : PositionSource}
    (hfailed : (m.initializePositions source.load).1 = false) :
    m.Retryable source ↔ source.firstRowReaches = false := by
  have hload := PositionManager.load_cleared m source
  have hresult : (m.initializePositions source.load).2 = (source.load m.cleared).2 := by
    rw [hfresh.initializePositions] at hfailed ⊢
    split at hfailed
    · exact absurd hfailed (by simp)
    next hnot => rw [if_neg hnot]
  constructor
  · intro hretry
    cases hreach : source.firstRowReaches with
    | false => rfl
    | true =>
        have hempty := hretry.empty
        have hpos := hload.1 hreach
        rw [hresult] at hempty
        omega
  · intro hreach
    obtain ⟨fund, heq⟩ := hload.2 hreach
    -- nothing but the FUND row is left, and the retry clears it
    have hagain : (m.initializePositions source.load).2.Fresh := by
      rw [hresult, heq]
      exact ⟨decide_eq_true rfl, (by decide : (0 : UInt32) ≠ 1), rfl⟩
    have hcleared : (m.initializePositions source.load).2.cleared = m.cleared := by
      rw [hresult, heq]
      rfl
    refine ⟨by rw [hresult, heq]; rfl, by rw [hresult, heq]; rfl, fun next hok => ?_⟩
    have hsame : (m.initializePositions source.load).2.initializePositions next.load =
        m.initializePositions next.load := by
      rw [hagain.initializePositions, hcleared, ← hfresh.initializePositions]
    rw [hsame]
    exact ⟨hok, rfl, rfl, rfl⟩

/-- A row whose numbers cannot be read fails the load, which can be retried. -/
theorem retryable_iff_first_row_bad :
    emptyTable.Retryable (.file (some [digitLine ['X', 'S', 'H', 'E', '_', '1'] 'x'])) := by
  have hfresh : emptyTable.Fresh := ⟨by decide, by decide, rfl⟩
  exact (retryable_iff hfresh (by decide)).2 (by decide)

/-- The same row behind a good one: the good row stays in the table, and the table is refused. -/
theorem failed_load_keeps_rows :
    (emptyTable.initializePositions
        (PositionSource.file (some [digitLine ['X', 'S', 'H', 'E', '_', '1'] '1',
        digitLine ['X', 'S', 'H', 'E', '_', '2'] 'x'])).load).1 = false ∧
      ¬ emptyTable.Retryable (.file (some [digitLine ['X', 'S', 'H', 'E', '_', '1'] '1',
        digitLine ['X', 'S', 'H', 'E', '_', '2'] 'x'])) := by
  refine ⟨by decide, fun hretry => ?_⟩
  exact absurd hretry.empty (by decide)

end AccountServices
