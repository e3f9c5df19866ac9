import Mathlib.Data.Fin.VecNotation
import Mathlib.Data.Fintype.Basic
import Mathlib.Data.List.DropRight
import Mathlib.Tactic.FinCases
import AccountServices.Common.CanonicalKeys
import AccountServices.Portfolio.PositionRows

/-!
# The position loader

`portfolio/position_loader.cpp`: a fresh position table is filled from a CSV file or from a sqlite
database. The file is a list of lines and a query a list of rows or an error; the texts and the
numbers in them are read here byte by byte. The two loaders read their rows in their own way and
then do the same with them, `seedRow`.
-/

set_option autoImplicit false

namespace AccountServices

open Foundation

/-! ## Text -/

/-- `std::isspace` in the C locale. -/
def isSpace (b : UInt8) : Bool := decide (b = 32 ∨ 9 ≤ b ∧ b ≤ 13)

/-- `std::isdigit`. -/
def isDigit (b : UInt8) : Bool := decide (48 ≤ b ∧ b ≤ 57)

/-- `trim_copy`. -/
def trimCopy (value : Bytes) : Bytes := (value.dropWhile isSpace).rdropWhile isSpace

/-- `to_lower_copy`. -/
def toLowerCopy (value : Bytes) : Bytes := value.map fun b => if 65 ≤ b ∧ b ≤ 90 then b + 32 else b

/-- `split_csv_columns`. -/
def splitCsvColumns (line : Bytes) :
    List Bytes := (line.splitOn (UInt8.ofNat ','.toNat)).map trimCopy

/-- The number that decimal digits denote. -/
def digitsValue (digits : Bytes) : Nat := digits.foldl (fun n b => 10 * n + (b.toNat - 48)) 0

/-- The sign that `strtoull` accepts in front of the digits: whether it is a minus, and the rest. -/
def splitSign (text : Bytes) : Bool × Bytes :=
  if text.head? = some (UInt8.ofNat '-'.toNat) then (true, text.tail)
  else if text.head? = some (UInt8.ofNat '+'.toNat) then (false, text.tail)
  else (false, text)

/-- `std::stoull`: blanks and a sign are skipped, the longest prefix of digits is the number, and a
minus negates it modulo `2 ^ 64`. Nothing behind the digits is looked at. -/
def stoull (text : Bytes) : Option UInt64 :=
  let (negative, rest) := splitSign (text.dropWhile isSpace)
  let digits := rest.takeWhile isDigit
  if digits.isEmpty ∨ 2 ^ 64 ≤ digitsValue digits then none
  else some (if negative then 0 - UInt64.ofNat (digitsValue digits) else
    UInt64.ofNat (digitsValue digits))

/-- `parse_u64_field`. -/
def parseU64Field (text : Bytes) : Option UInt64 := stoull (trimCopy text)

/-! ## The numeric fields of a row -/

/-- The eleven numbers of a row, in the order of the columns of both sources. -/
abbrev PositionNumbers := Fin 11 → UInt64

namespace Position

/-- The numbers of a row. -/
def numbers (p : Position) : PositionNumbers :=
  ![p.volumeAvailableT0, p.volumeAvailableT1, p.volumeBuy, p.dvalueBuy, p.volumeBuyTraded,
    p.dvalueBuyTraded, p.volumeSell, p.dvalueSell, p.volumeSellTraded,
      p.dvalueSellTraded, p.countOrder]

/-- The row with these numbers. -/
def withNumbers (p : Position) (numbers : PositionNumbers) : Position :=
  { p with
    volumeAvailableT0 := numbers 0
    volumeAvailableT1 := numbers 1
    volumeBuy := numbers 2
    dvalueBuy := numbers 3
    volumeBuyTraded := numbers 4
    dvalueBuyTraded := numbers 5
    volumeSell := numbers 6
    dvalueSell := numbers 7
    volumeSellTraded := numbers 8
    dvalueSellTraded := numbers 9
    countOrder := numbers 10 }

@[simp] theorem numbers_withNumbers (p : Position) (numbers : PositionNumbers) :
    (p.withNumbers numbers).numbers = numbers := by
  funext i
  fin_cases i <;> rfl

@[simp] theorem id_withNumbers (p : Position) (numbers : PositionNumbers) :
    (p.withNumbers numbers).id = p.id := rfl

end Position

/-- All eleven numbers, when each of them can be read. -/
def readNumbers (read : Fin 11 → Option UInt64) : Option PositionNumbers :=
  if h : ∀ i, (read i).isSome then some fun i => (read i).get (h i) else none

theorem readNumbers_eq_some {read : Fin 11 → Option UInt64} {numbers : PositionNumbers} :
    readNumbers read = some numbers ↔ ∀ i, read i = some (numbers i) := by
  simp only [readNumbers]
  split
  next h =>
    rw [Option.some.injEq]
    constructor
    · rintro rfl i
      exact (Option.some_get (h i)).symm
    · intro hall
      funext i
      simp only [hall i, Option.get_some]
  next h =>
    constructor
    · exact fun hnone => absurd hnone (by simp)
    · intro hall
      exact absurd (fun i => by rw [hall i]; rfl) h

theorem readNumbers_eq_none {read : Fin 11 → Option UInt64} :
    readNumbers read = none ↔ ∃ i, read i = none := by
  simp only [readNumbers]
  split
  next h =>
    constructor
    · exact fun hsome => absurd hsome (by simp)
    · rintro ⟨i, hi⟩
      have hsome := h i
      rw [hi] at hsome
      exact absurd hsome (by simp)
  next h =>
    rw [not_forall] at h
    obtain ⟨i, hi⟩ := h
    exact ⟨fun _ => ⟨i, Option.not_isSome_iff_eq_none.1 hi⟩, fun _ => rfl⟩

/-! ## Rows -/

namespace PositionManager

/-- What both loaders do with a row: the security is added under its key, and the numbers of its row
are overwritten. A row without a name gets the key for one. -/
def seedRow (m : PositionManager) (internalId name : Bytes) (numbers : PositionNumbers) :
    Bool × PositionManager :=
  match parseInternalSecurityId internalId with
  | none => (false, m)
  | some (market, code) =>
      match normalizeInternalSecurityId internalId with
      | none => (false, m)
      | some normalizedId =>
          let positionName := if name.isEmpty then normalizedId.view else name
          match m.addSecurity code positionName market with
          | (none, m') => (false, m')
          | (some added, m') =>
              if added ≠ normalizedId then (false, m')
              else m'.onPosition added fun pos => (true, pos.withNumbers numbers)

/-- `apply_position_seed_row`: the key is in the second column, the name in the third, the numbers
in the eleven columns behind them. -/
def applyPositionSeedRow (m : PositionManager) (columns : List Bytes) : Bool × PositionManager :=
  if columns.length < 14 then (false, m)
  else
    match readNumbers fun i => parseU64Field (columns.getD (3 + i) []) with
    | none => (false, m)
    | some numbers => m.seedRow (columns.getD 1 []) (columns.getD 2 []) numbers

end PositionManager

/-! ## The file -/

/-- What a line of the file is. -/
inductive CsvLine where
  | skip
  | invalid
  | position (columns : List Bytes)
  deriving DecidableEq

/-- A line without its comment: blank lines and the header are skipped, and only records of the type
`position` are known. -/
def readCsvLine (line : Bytes) : CsvLine :=
  let line := trimCopy (line.takeWhile fun b => decide (b ≠ UInt8.ofNat '#'.toNat))
  if line.isEmpty then .skip
  else
    let columns := splitCsvColumns line
    let recordType := toLowerCopy (columns.getD 0 [])
    if recordType = asciiBytes ['r', 'e', 'c', 'o', 'r', 'd', '_', 't', 'y', 'p', 'e'] then .skip
    else if recordType ≠ asciiBytes ['p', 'o', 's', 'i', 't', 'i', 'o', 'n'] then .invalid
    else .position columns

/-- The loop of `load_positions_csv_if_exists` over the lines of the file. -/
def PositionManager.loadPositionsCsv (m : PositionManager) : List Bytes → Bool × PositionManager
  | [] => (true, m)
  | line :: rest =>
      match readCsvLine line with
      | .skip => m.loadPositionsCsv rest
      | .invalid => (false, m)
      | .position columns =>
          match m.applyPositionSeedRow columns with
          | (true, m') => m'.loadPositionsCsv rest
          | (false, m') => (false, m')

/-! ## The database -/

/-- A value in a column of a query result. -/
inductive SqlValue where
  | null
  | integer (value : Int64)
  | real
  | text (value : Bytes)
  | blob
  deriving DecidableEq

/-- `read_required_text`. -/
def readRequiredText : SqlValue → Option Bytes
  | .text value => some value
  | _ => none

/-- `read_required_u64`. -/
def readRequiredU64 : SqlValue → Option UInt64
  | .integer value => if value < 0 then none else some value.toUInt64
  | _ => none

/-- What `sqlite3_step` returns, apart from the end: a row with its columns, or an error. -/
inductive SqlStep where
  | row (columns : List SqlValue)
  | error
  deriving DecidableEq

/-- A column of a row; a column that the row does not have is null. -/
def sqlColumn (columns : List SqlValue) (i : Nat) : SqlValue := columns.getD i .null

/-- `db_position_row`, without the security id, which is required to be a text and not used. -/
structure DbPositionRow where
  internalSecurityId : Bytes
  numbers : PositionNumbers

/-- The columns of a row of the table `positions`. -/
def readDbPositionRow (columns : List SqlValue) : Option DbPositionRow :=
  match readRequiredText (sqlColumn columns 0), readRequiredText (sqlColumn columns 1),
    readNumbers fun i => readRequiredU64 (sqlColumn columns (2 + i)) with
  | some _, some internalSecurityId, some numbers => some ⟨internalSecurityId, numbers⟩
  | _, _, _ => none

namespace PositionManager

/-- `apply_position_db_row`: the name of a row is its key. -/
def applyPositionDbRow (m : PositionManager) (row : DbPositionRow) : Bool × PositionManager :=
  m.seedRow row.internalSecurityId [] row.numbers

/-- The loop of `load_positions_from_db` over the rows of the query. -/
def loadPositionsFromDb (m : PositionManager) : List SqlStep → Bool × PositionManager
  | [] => (true, m)
  | .error :: _ => (false, m)
  | .row columns :: rest =>
      match readDbPositionRow columns with
      | none => (false, m)
      | some row =>
          match m.applyPositionDbRow row with
          | (true, m') => m'.loadPositionsFromDb rest
          | (false, m') => (false, m')

/-- `load_fund_from_db`: the first row of the query has the four columns of the FUND row. -/
def loadFundFromDb : List SqlStep → Option FundInfo
  | .row columns :: _ =>
      match readRequiredU64 (sqlColumn columns 0), readRequiredU64 (sqlColumn columns 1),
        readRequiredU64 (sqlColumn columns 2), readRequiredU64 (sqlColumn columns 3) with
      | some totalAsset, some available, some frozen, some marketValue =>
          some ⟨totalAsset, available, frozen, marketValue⟩
      | _, _, _, _ => none
  | _ => none

end PositionManager

/-! ## The loader -/

/-- An open database: the steps of the two queries, `none` where a query cannot be prepared. -/
structure PositionDatabase where
  fund : Option (List SqlStep)
  positions : Option (List SqlStep)

/-- The source of a `position_loader`: a file, which need not exist, or a database, which may not
open. -/
inductive PositionSource where
  | file (lines : Option (List Bytes))
  | db (database : Option PositionDatabase)

/-- `position_loader::load`. -/
def PositionSource.load (source : PositionSource) (m : PositionManager) : Bool × PositionManager :=
  match source with
  | .file none => (true, m)
  | .file (some lines) => m.loadPositionsCsv lines
  | .db none => (false, m)
  | .db (some database) =>
      match database.fund.bind PositionManager.loadFundFromDb with
      | none => (false, m)
      | some fund =>
          match database.positions with
          | none => (false, m.overwriteFundInfo fund)
          | some steps => (m.overwriteFundInfo fund).loadPositionsFromDb steps

/-! ## What a row does -/

/-- A key that has a normal form was parsed into a market and a code that make it. -/
theorem exists_of_normalize {text : Bytes} {key : InternalSecurityId}
    (h : normalizeInternalSecurityId text = some key) :
    ∃ market code, parseInternalSecurityId text = some (market, code) ∧
      buildInternalSecurityId market code = some key ∧ code.isEmpty = false := by
  simp only [normalizeInternalSecurityId] at h
  split at h
  next market code hparse =>
    refine ⟨market, code, hparse, h, ?_⟩
    simp only [buildInternalSecurityId] at h
    split at h
    · exact absurd h (by simp)
    · split at h
      · exact absurd h (by simp)
      next hcode => exact Bool.eq_false_iff.2 (not_or.1 hcode).1
  · exact absurd h (by simp)

namespace PositionManager

variable {m : PositionManager} {text : Bytes} {key : InternalSecurityId}

/-- The name that a row gets. -/
def seedName (key : InternalSecurityId) (name : Bytes) :
    Bytes := if name.isEmpty then key.view else name

theorem seedRow_of_none (h : normalizeInternalSecurityId text = none) (name : Bytes)
    (numbers : PositionNumbers) : m.seedRow text name numbers = (false, m) := by
  simp only [seedRow, h]
  cases parseInternalSecurityId text <;> rfl

/-- A row with a normal form for its key finds the row of the security, or adds one when there is
room. -/
theorem seedRow_eq (h : normalizeInternalSecurityId text = some key) (name : Bytes)
    (numbers : PositionNumbers) :
    m.seedRow text name numbers =
      if (m.securityToRow.lookup key).isSome then m.onPosition key fun pos =>
        (true, pos.withNumbers numbers)
      else if clampSecurityCount m.positionCount < kMaxSecurityPositions then
        (m.withRow key (seedName key name)).onPosition key fun pos =>
          (true, pos.withNumbers numbers)
      else (false, { m with positionCount := clampSecurityCount m.positionCount }) := by
  obtain ⟨market, code, hparse, hbuild, hcode⟩ := exists_of_normalize h
  simp only [seedRow, hparse, h, addSecurity, hcode, hbuild, Bool.false_eq_true, if_false]
  by_cases hknown : (m.securityToRow.lookup key).isSome = true
  · simp only [hknown, if_true, ne_eq, not_true_eq_false, if_false]
  · simp only [hknown, Bool.false_eq_true, if_false]
    by_cases hroom : clampSecurityCount m.positionCount < kMaxSecurityPositions
    · rw [if_neg (Nat.not_le.2 hroom), if_pos hroom]
      simp only [ne_eq, not_true_eq_false, if_false]
      rfl
    · rw [if_pos (Nat.not_lt.1 hroom), if_neg hroom]

/-- A key with a normal form is not empty. -/
theorem normalizeSecurityKey_eq (key : InternalSecurityId) :
    normalizeSecurityKey key.view = normalizeInternalSecurityId key.view := by
  simp only [normalizeSecurityKey]
  split
  next hempty =>
    rw [List.isEmpty_iff.1 hempty]
    rfl
  next => rfl

/-- A normal form finds the row that it is mapped to, if it is found again at all. -/
theorem findRow_of_normalize (h : normalizeInternalSecurityId text = some key)
    (m : PositionManager) : m.findRow key =
      if normalizeSecurityKey key.view = some key then
        (m.securityToRow.lookup key).filter m.rowInUse
      else none := by
  simp only [findRow]
  cases hnorm : normalizeSecurityKey key.view with
  | none => rfl
  | some key' =>
      rw [normalizeSecurityKey_eq] at hnorm
      rw [normalize_unique h hnorm, if_pos rfl]
      cases hrow : m.securityToRow.lookup key with
      | none => simp only [hrow, Option.filter_none]
      | some row => simp only [hrow, Option.filter_some]

/-- Whether a row with this key can be applied: the key has a normal form, which is found again, and
the security has a row in use or there is room for one. -/
def admits (m : PositionManager) (text : Bytes) : Bool :=
  match normalizeInternalSecurityId text with
  | none => false
  | some key =>
      decide (normalizeSecurityKey key.view = some key) &&
        match m.securityToRow.lookup key with
        | some row => m.rowInUse row
        | none => decide (clampSecurityCount m.positionCount < kMaxSecurityPositions)

/-- Writing the numbers fails only for want of a row. -/
theorem onPosition_withNumbers (m : PositionManager) (key : InternalSecurityId)
    (numbers : PositionNumbers) :
    (m.onPosition key fun pos => (true, pos.withNumbers numbers)).1 = (m.findRow key).isSome := by
  simp only [onPosition]
  split
  next hnone => rw [hnone]; rfl
  next row hrow => rw [hrow]; rfl

/-- The row that was added is in use. -/
theorem rowInUse_withRow (hroom : clampSecurityCount m.positionCount < kMaxSecurityPositions)
    (name : Bytes) :
    (m.withRow key name).rowInUse (clampSecurityCount m.positionCount + 1) = true := by
  have hmax : kMaxSecurityPositions < kMaxPositions := by decide
  simp only [rowInUse, withRow, clampSecurityCount_of_le
    (show clampSecurityCount m.positionCount + 1 ≤ _ from hroom)]
  exact decide_eq_true ⟨by omega, by omega, Nat.le_refl _⟩

/-- A row is applied if and only if the table admits its key. -/
theorem seedRow_ok (m : PositionManager) (text name : Bytes) (numbers : PositionNumbers) :
    (m.seedRow text name numbers).1 = m.admits text := by
  cases hnorm : normalizeInternalSecurityId text with
  | none =>
      rw [seedRow_of_none hnorm]
      simp only [admits, hnorm]
  | some key =>
      rw [seedRow_eq hnorm]
      simp only [admits, hnorm]
      -- A row of this key is overwritten, if it is found under the key as it is spelled.
      cases hrow : m.securityToRow.lookup key with
      | some row =>
          rw [if_pos Option.isSome_some, onPosition_withNumbers, findRow_of_normalize hnorm, hrow,
            Option.filter_some]
          by_cases hnormal : normalizeSecurityKey key.view = some key
          · rw [if_pos hnormal, decide_eq_true hnormal, Bool.true_and]
            simp only
            cases m.rowInUse row <;> rfl
          · rw [if_neg hnormal, decide_eq_false hnormal, Bool.false_and]
            rfl
      -- Otherwise a row is added, if there is one left.
      | none =>
          rw [if_neg (by simp)]
          by_cases hroom : clampSecurityCount m.positionCount < kMaxSecurityPositions
          · have hlookup : (m.withRow key (seedName key name)).securityToRow.lookup key =
                some (clampSecurityCount m.positionCount + 1) := by
              simp only [withRow, Map.lookup_insert_eq, if_true]
            rw [if_pos hroom, onPosition_withNumbers, findRow_of_normalize hnorm,
              hlookup, Option.filter_some,
              rowInUse_withRow hroom, if_pos rfl, decide_eq_true hroom, Bool.and_true]
            by_cases hnormal : normalizeSecurityKey key.view = some key
            · rw [if_pos hnormal, decide_eq_true hnormal]
              rfl
            · rw [if_neg hnormal, decide_eq_false hnormal]
              rfl
          · rw [if_neg hroom, decide_eq_false hroom, Bool.and_false]

/-- The row of a security after it was applied. -/
theorem getPosition_seedRow (h : normalizeInternalSecurityId text = some key) {name : Bytes}
    {numbers : PositionNumbers} (hok : (m.seedRow text name numbers).1 = true) :
    ∃ pos, (m.seedRow text name numbers).2.getPosition key = some pos ∧ pos.numbers = numbers := by
  have hwrite : ∀ m' : PositionManager,
      (m'.onPosition key fun pos => (true, pos.withNumbers numbers)).1 = true →
      ∃ pos, (m'.onPosition key fun pos => (true, pos.withNumbers numbers)).2.getPosition
        key = some pos ∧ pos.numbers = numbers := by
    intro m' hwritten
    rw [onPosition_withNumbers] at hwritten
    obtain ⟨row, hrow⟩ := Option.isSome_iff_exists.1 hwritten
    refine ⟨(m'.rows row).withNumbers numbers, ?_, Position.numbers_withNumbers _ _⟩
    rw [getPosition_onPosition, getPosition, hrow]
    rfl
  rw [seedRow_eq h] at hok ⊢
  split at hok
  next hknown =>
    rw [if_pos hknown]
    exact hwrite m hok
  next hknown =>
    rw [if_neg hknown]
    split at hok
    next hroom =>
      rw [if_pos hroom]
      exact hwrite _ hok
    next => exact absurd hok (by simp)

end PositionManager

end AccountServices
