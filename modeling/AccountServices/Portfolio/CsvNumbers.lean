import AccountServices.Portfolio.PositionLoader

/-!
# The numbers of the position file

`apply_position_seed_row` leaves its numbers to `std::stoull`, whose texts are not only the plain
decimals: it takes a sign, and it stops at the first byte that is not a digit. A row is read exactly
if all eleven columns are plain decimals of a word, and otherwise only if it is refused for its key,
for a missing column, or for a column in which `stoull` finds no number (`reads_exactly_iff`).
-/

set_option autoImplicit false

namespace AccountServices

open Foundation

/-! ## Plain decimals -/

/-- The text is the decimal of a word: digits and nothing else. -/
def ExactNumber (text : Bytes) : Prop :=
  text ≠ [] ∧ (∀ b ∈ text, isDigit b = true) ∧ digitsValue text < 2 ^ 64

instance (text : Bytes) : Decidable (ExactNumber text) := inferInstanceAs (Decidable (_ ∧ _ ∧ _))

/-- A digit is neither a blank nor a sign. -/
theorem not_space_of_isDigit {b : UInt8} (h : isDigit b = true) :
    isSpace b = false ∧ b ≠ UInt8.ofNat '-'.toNat ∧ b ≠ UInt8.ofNat '+'.toNat := by
  simp only [isDigit, decide_eq_true_eq, UInt8.le_iff_toNat_le] at h
  have h48 : (48 : UInt8).toNat = 48 := rfl
  refine ⟨?_, ?_, ?_⟩
  · simp only [isSpace, decide_eq_false_iff_not, UInt8.le_iff_toNat_le, not_or, not_and]
    have h13 : (13 : UInt8).toNat = 13 := rfl
    refine ⟨?_, fun _ => by omega⟩
    rintro rfl
    exact absurd h.1 (by decide)
  · rintro rfl
    exact absurd h.1 (by decide)
  · rintro rfl
    exact absurd h.1 (by decide)

/-- `stoull` reads the decimal of a word as that word. -/
theorem stoull_of_exact {text : Bytes} (h : ExactNumber text) :
    stoull text = some (UInt64.ofNat (digitsValue text)) := by
  obtain ⟨hne, hdigits, hlt⟩ := h
  have hblank : text.dropWhile isSpace = text := by
    cases text with
    | nil => rfl
    | cons b bs =>
        have hb := (not_space_of_isDigit (hdigits b List.mem_cons_self)).1
        rw [List.dropWhile_cons_of_neg (by rw [hb]; exact Bool.false_ne_true)]
  have hsign : splitSign text = (false, text) := by
    cases text with
    | nil => rfl
    | cons b bs =>
        obtain ⟨-, hminus, hplus⟩ := not_space_of_isDigit (hdigits b List.mem_cons_self)
        simp only [splitSign, List.head?_cons, Option.some.injEq, if_neg hminus, if_neg hplus]
  have htake : text.takeWhile isDigit = text := List.takeWhile_eq_self_iff.2 hdigits
  have hempty : text.isEmpty = false := by
    cases text with
    | nil => exact absurd rfl hne
    | cons b bs => rfl
  simp only [stoull, hblank, hsign, htake, hempty, Bool.false_eq_true, false_or, if_false]
  rw [if_neg (Nat.not_le.2 hlt)]

/-! ## Rows of the file -/

/-- The numeric columns of a row, trimmed. -/
def numericColumn (columns : List Bytes) (i : Fin 11) : Bytes := trimCopy (columns.getD (3 + i) [])

namespace PositionManager

variable {m : PositionManager} {columns : List Bytes}

/-- Whether a row is refused for something else than a number that is not a plain decimal: it has
too few columns, its key, or a column in which no number is found. -/
def RefusesRow (m : PositionManager) (columns : List Bytes) : Prop :=
  columns.length < 14 ∨ m.admits (columns.getD 1 []) = false ∨
    ∃ i, stoull (numericColumn columns i) = none

/-- The row is read exactly: if it is accepted, then every numeric column is the decimal of a word,
and the row of its security holds these words. -/
def ReadsExactly (m : PositionManager) (columns : List Bytes) : Prop :=
  (m.applyPositionSeedRow columns).1 = true →
    ∃ key pos, normalizeInternalSecurityId (columns.getD 1 []) = some key ∧
      (m.applyPositionSeedRow columns).2.getPosition key = some pos ∧
      ∀ i, ExactNumber (numericColumn columns i) ∧
        (pos.numbers i).toNat = digitsValue (numericColumn columns i)

instance (m : PositionManager) (columns : List Bytes) : Decidable (m.RefusesRow columns) :=
  inferInstanceAs (Decidable (_ ∨ _ ∨ _))

/-- A row is accepted if nothing refuses it. -/
theorem applyPositionSeedRow_ok (m : PositionManager) (columns : List Bytes) :
    (m.applyPositionSeedRow columns).1 = true ↔ ¬ m.RefusesRow columns := by
  simp only [applyPositionSeedRow, RefusesRow]
  by_cases hshort : columns.length < 14
  · rw [if_pos hshort]
    exact ⟨fun h => absurd h (by simp), fun h => absurd (Or.inl hshort) h⟩
  · rw [if_neg hshort]
    cases hread : readNumbers fun i => parseU64Field (columns.getD (3 + i) []) with
    | none =>
        obtain ⟨i, hi⟩ := readNumbers_eq_none.1 hread
        exact ⟨fun h => absurd h (by simp), fun h => absurd (Or.inr (Or.inr ⟨i, hi⟩)) h⟩
    | some numbers =>
        simp only [seedRow_ok]
        have hall := readNumbers_eq_some.1 hread
        constructor
        · rintro hadmits (h | h | ⟨i, hi⟩)
          · exact hshort h
          · rw [hadmits] at h
            exact Bool.noConfusion h
          · exact absurd ((hall i).symm.trans hi) (by simp)
        · intro hnot
          cases hadmits : m.admits (columns.getD 1 []) with
          | true => rfl
          | false => exact absurd (Or.inr (Or.inl hadmits)) hnot

/-- What an accepted row stores are the numbers that `stoull` reads. -/
theorem applyPositionSeedRow_stored (hok : (m.applyPositionSeedRow columns).1 = true) :
    ∃ key pos, normalizeInternalSecurityId (columns.getD 1 []) = some key ∧
      (m.applyPositionSeedRow columns).2.getPosition key = some pos ∧
      ∀ i, stoull (numericColumn columns i) = some (pos.numbers i) := by
  simp only [applyPositionSeedRow] at hok ⊢
  split at hok
  · exact absurd hok (by simp)
  next hlong =>
    rw [if_neg hlong]
    cases hread : readNumbers fun i => parseU64Field (columns.getD (3 + i) []) with
    | none =>
        rw [hread] at hok
        exact absurd hok (by simp)
    | some numbers =>
        simp only [hread] at hok ⊢
        cases hnorm : normalizeInternalSecurityId (columns.getD 1 []) with
        | none =>
            rw [seedRow_of_none hnorm] at hok
            exact absurd hok (by simp)
        | some key =>
            obtain ⟨pos, hpos, hnumbers⟩ := getPosition_seedRow hnorm hok
            refine ⟨key, pos, rfl, hpos, fun i => ?_⟩
            rw [hnumbers]
            exact readNumbers_eq_some.1 hread i

end PositionManager

/-- A row of the file is read exactly if and only if its numeric columns are the decimals of words,
or something else refuses it. -/
theorem reads_exactly_iff (m : PositionManager) (columns : List Bytes) :
    m.ReadsExactly columns ↔ (∀ i, ExactNumber (numericColumn columns i)) ∨
      m.RefusesRow columns := by
  constructor
  · intro hexact
    by_cases hrefused : m.RefusesRow columns
    · exact Or.inr hrefused
    · obtain ⟨key, pos, -, -, hall⟩ := hexact ((m.applyPositionSeedRow_ok columns).2 hrefused)
      exact Or.inl fun i => (hall i).1
  · rintro (hdecimals | hrefused) hok
    · obtain ⟨key, pos, hnorm, hpos, hread⟩ := PositionManager.applyPositionSeedRow_stored hok
      refine ⟨key, pos, hnorm, hpos, fun i => ⟨hdecimals i, ?_⟩⟩
      have hnumber := (hread i).symm.trans (stoull_of_exact (hdecimals i))
      rw [Option.some.inj hnumber]
      exact UInt64.toNat_ofNat_of_lt' (hdecimals i).2.2
    · exact absurd hrefused ((m.applyPositionSeedRow_ok columns).1 hok)

/-- A cleared table. -/
def emptyTable : PositionManager where
  header := {}
  fund := {}
  rows := fun _ => {}
  positionCount := 0
  securityToRow := ∅

/-- A row of the file whose sellable volume is `-1`. -/
def negativeRow : List Bytes :=
  [asciiBytes ['p', 'o', 's', 'i', 't', 'i', 'o', 'n'],
    asciiBytes ['X', 'S', 'H', 'E', '_', '1'], [],
    asciiBytes ['-', '1']] ++ List.replicate 10 (asciiBytes ['0'])

/-- The row is accepted, and the volume is the largest word. -/
theorem negative_volume_loaded : ¬ emptyTable.ReadsExactly negativeRow := by
  intro hexact
  obtain ⟨key, pos, -, -, hall⟩ := hexact (by decide)
  exact absurd (hall 0).1 (by decide)

end AccountServices
