import AccountServices.Common.SecurityIdentity

/-!
# Canonical keys

The key `<MIC>_<code>` that `build_internal_security_id` writes is read back by
`parse_internal_security_id` as it was built, so a key in this form is its own normal form. A key in
the older form `<market>.<code>` has the same normal form as the key that replaces it.
-/

set_option autoImplicit false

namespace AccountServices

namespace FixedString

variable {n : Nat} [NeZero n]

/-- A text that fits and has no terminator in it is stored as it is. -/
theorem view_assign {sv : Bytes} (hshort : sv.length < n) (hclean : (0 : UInt8) ∉ sv) :
    (assign sv : FixedString n).view = sv := by
  have htake : sv.take (n - 1) = sv := List.take_of_length_le (by omega)
  simp only [assign, htake]
  refine List.takeWhile_eq_self_iff.2 fun b hb => ?_
  simp only [ne_eq, decide_not, Bool.not_eq_true', decide_eq_false_iff_not]
  rintro rfl
  exact hclean hb

/-- Storing the text of a fixed string gives it back. -/
theorem assign_view (s : FixedString n) :
    assign s.view = s := ext_view (view_assign s.short s.clean)

end FixedString

/-- The byte of the underscore. -/
def underscore : UInt8 := UInt8.ofNat '_'.toNat

/-- The marks of the markets have four letters, none of them an underscore or a terminator. -/
theorem marketToMic_letters {market : Market} (h : (marketToMic market).isEmpty = false) :
    (marketToMic market).length = 4 ∧ underscore ∉ marketToMic market ∧
      (0 : UInt8) ∉ marketToMic market := by
  cases market with
  | sz => decide
  | sh => decide
  | bj => decide
  | hk => decide
  | _ => exact absurd h (by decide)

/-- A key that was built, byte by byte. -/
theorem view_buildInternalSecurityId {market : Market} {code : Bytes} {key : InternalSecurityId}
    (hclean : (0 : UInt8) ∉ code) (hbuild : buildInternalSecurityId market code = some key) :
    key.view = marketToMic market ++ underscore :: code ∧ (marketToMic market).isEmpty = false ∧
      code.isEmpty = false := by
  simp only [buildInternalSecurityId] at hbuild
  split at hbuild
  · exact absurd hbuild (by simp)
  next hmic =>
    have hmic : (marketToMic market).isEmpty = false := Bool.eq_false_iff.2 hmic
    split at hbuild
    · exact absurd hbuild (by simp)
    next hcode =>
      obtain ⟨hlength, -, hzero⟩ := marketToMic_letters hmic
      rw [not_or, Nat.not_lt, hlength] at hcode
      refine ⟨?_, hmic, Bool.eq_false_iff.2 hcode.1⟩
      rw [← Option.some.inj hbuild]
      refine FixedString.view_assign ?_ ?_
      · rw [List.length_append, List.length_cons, hlength]
        omega
      · intro hmem
        rcases List.mem_append.1 hmem with hmem | hmem
        · exact hzero hmem
        rcases List.mem_cons.1 hmem with heq | hmem
        · exact absurd heq (by decide)
        · exact hclean hmem

theorem parseMicMarket_marketToMic {market : Market} (h : (marketToMic market).isEmpty = false) :
    parseMicMarket (marketToMic market) = some market := by
  cases market with
  | sz => decide
  | sh => decide
  | bj => decide
  | hk => decide
  | _ => exact absurd h (by decide)

/-- A text is split at the first delimiter, if there is something behind it. -/
theorem split_append {mark : Bytes} {delimiter : UInt8} (hmark : delimiter ∉ mark) (hne : mark ≠ [])
    (code : Bytes) :
    splitInternalSecurityId (mark ++ delimiter :: code) delimiter =
      if code = [] then none else some (mark, code) := by
  have hidx : (mark ++ delimiter :: code).idxOf delimiter = mark.length := by
    rw [List.idxOf_append_of_notMem hmark, List.idxOf_cons_self, Nat.add_zero]
  have hpos : 0 < mark.length := List.length_pos_of_ne_nil hne
  simp only [splitInternalSecurityId, hidx, List.length_append, List.length_cons]
  cases code with
  | nil =>
      rw [if_pos (by simp), if_pos rfl]
  | cons b bs =>
      rw [if_neg (by simp only [List.length_cons]; omega), if_neg (List.cons_ne_nil b bs)]
      rw [List.take_left, List.drop_append, List.drop_of_length_le (Nat.le_succ _)]
      simp

/-- A text without the delimiter is not split. -/
theorem split_of_notMem {internalId : Bytes} {delimiter : UInt8} (h : delimiter ∉ internalId) :
    splitInternalSecurityId internalId delimiter = none := by
  simp only [splitInternalSecurityId]
  exact if_pos (Or.inl (List.idxOf_eq_length h))

/-- What was built is parsed back. -/
theorem parse_buildInternalSecurityId {market : Market} {code : Bytes} {key : InternalSecurityId}
    (hclean : (0 : UInt8) ∉ code) (hbuild : buildInternalSecurityId market code = some key) :
    parseInternalSecurityId key.view = some (market, code) := by
  obtain ⟨hview, hmic, hcode⟩ := view_buildInternalSecurityId hclean hbuild
  obtain ⟨hlength, hunder, -⟩ := marketToMic_letters hmic
  have hne : marketToMic market ≠ [] := List.ne_nil_of_length_eq_add_one hlength
  have hcode' : code ≠ [] := by
    intro hnil
    rw [hnil] at hcode
    exact absurd hcode (by decide)
  have hsplit : splitInternalSecurityId key.view underscore = some (marketToMic market, code) := by
    rw [hview, split_append hunder hne, if_neg hcode']
  simp only [parseInternalSecurityId]
  rw [show UInt8.ofNat '_'.toNat = underscore from rfl, hsplit]
  simp only [hcode, Bool.false_eq_true, if_false, parseMicMarket_marketToMic hmic, Option.map_some]

/-- The parts of a text that a delimiter splits. -/
theorem split_subset {internalId mark code : Bytes} {delimiter : UInt8}
    (h : splitInternalSecurityId internalId delimiter = some (mark, code)) :
    ∀ b ∈ code, b ∈ internalId := by
  simp only [splitInternalSecurityId] at h
  split at h
  · exact absurd h (by simp)
  · simp only [Option.some.injEq, Prod.mk.injEq] at h
    intro b hb
    rw [← h.2] at hb
    exact List.mem_of_mem_drop hb

theorem parse_subset {internalId code : Bytes} {market : Market}
    (h : parseInternalSecurityId internalId = some (market, code)) :
    ∀ b ∈ code, b ∈ internalId := by
  simp only [parseInternalSecurityId] at h
  split at h
  next mark code' hsplit =>
    split at h
    · exact absurd h (by simp)
    · obtain ⟨m, -, heq⟩ := Option.map_eq_some_iff.1 h
      rw [Prod.mk.injEq] at heq
      exact heq.2 ▸ split_subset hsplit
  next =>
    split at h
    next mark code' hsplit =>
      split at h
      · exact absurd h (by simp)
      · obtain ⟨m, -, heq⟩ := Option.map_eq_some_iff.1 h
        rw [Prod.mk.injEq] at heq
        exact heq.2 ▸ split_subset hsplit
    · exact absurd h (by simp)

/-- A key that was built is its own normal form. -/
theorem normalize_buildInternalSecurityId {market : Market} {code : Bytes}
    {key : InternalSecurityId}
    (hclean : (0 : UInt8) ∉ code) (hbuild : buildInternalSecurityId market code = some key) :
    normalizeInternalSecurityId key.view = some key := by
  simp only [normalizeInternalSecurityId, parse_buildInternalSecurityId hclean hbuild]
  exact hbuild

/-- A normal form is its own normal form. -/
theorem normalize_normalize {key key' : InternalSecurityId}
    (h : normalizeInternalSecurityId key.view = some key') :
    normalizeInternalSecurityId key'.view = some key' := by
  simp only [normalizeInternalSecurityId] at h
  split at h
  next market code hparse =>
    exact normalize_buildInternalSecurityId (fun hmem => key.clean (parse_subset hparse _ hmem)) h
  · exact absurd h (by simp)

/-! ## Keys in the older form -/

/-- Whether a key is in the older form: no underscore splits it, and it has a normal form. -/
def isLegacyKey (key : InternalSecurityId) : Bool :=
  (splitInternalSecurityId key.view underscore).isNone &&
    (normalizeInternalSecurityId key.view).isSome

/-- A key in the older form gives way to its normal form. -/
def canonicalKey (key : InternalSecurityId) : InternalSecurityId :=
  if isLegacyKey key then (normalizeInternalSecurityId key.view).getD key else key

theorem split_eq {internalId mark code : Bytes} {delimiter : UInt8}
    (h : splitInternalSecurityId internalId delimiter = some (mark, code)) :
    internalId = mark ++ delimiter :: code := by
  simp only [splitInternalSecurityId] at h
  split at h
  · exact absurd h (by simp)
  next hbounds =>
    simp only [Option.some.injEq, Prod.mk.injEq] at h
    rw [not_or, not_or, Nat.not_le] at hbounds
    have hlt : internalId.idxOf delimiter < internalId.length := by omega
    rw [← h.1, ← h.2]
    calc internalId
        = internalId.take (internalId.idxOf delimiter) ++ internalId.drop
          (internalId.idxOf delimiter) :=
          (List.take_append_drop _ _).symm
      _ = _ := by rw [List.drop_eq_getElem_cons hlt, List.getElem_idxOf hlt]

theorem eq_marketToMic {mark : Bytes} {market : Market} (h : parseMicMarket mark = some market) :
    mark = marketToMic market := by
  simp only [parseMicMarket] at h
  split at h
  next heq => rw [heq, Option.some.inj h]
  split at h
  next heq => rw [heq, Option.some.inj h]
  split at h
  next heq => rw [heq, Option.some.inj h]
  split at h
  next heq => rw [heq, Option.some.inj h]
  · exact absurd h (by simp)

/-- A key with an underscore that has a normal form is in normal form. -/
theorem normalize_split {key key' : InternalSecurityId}
    (hsplit : (splitInternalSecurityId key.view underscore).isNone = false)
    (h : normalizeInternalSecurityId key.view = some key') : key' = key := by
  simp only [normalizeInternalSecurityId] at h
  split at h
  next market code hparse =>
    have hclean : (0 : UInt8) ∉ code := fun hmem => key.clean (parse_subset hparse _ hmem)
    obtain ⟨hview, -, -⟩ := view_buildInternalSecurityId hclean h
    refine FixedString.ext_view ?_
    rw [hview]
    simp only [parseInternalSecurityId] at hparse
    rw [show UInt8.ofNat '_'.toNat = underscore from rfl] at hparse
    split at hparse
    next mark code' heq =>
      split at hparse
      · exact absurd hparse (by simp)
      · obtain ⟨m, hm, hpair⟩ := Option.map_eq_some_iff.1 hparse
        rw [Prod.mk.injEq] at hpair
        rw [← hpair.1, ← hpair.2, ← eq_marketToMic hm]
        exact (split_eq heq).symm
    next hnone =>
      rw [hnone] at hsplit
      exact absurd hsplit (by decide)
  · exact absurd h (by simp)

/-- A normal form starts with the mark of a market and an underscore, also when a terminator in the
code cuts it off. -/
theorem view_of_normalize {text : Bytes} {key : InternalSecurityId}
    (h : normalizeInternalSecurityId text = some key) :
    ∃ market code, (marketToMic market).isEmpty = false ∧
      key.view = marketToMic market ++ underscore :: code := by
  simp only [normalizeInternalSecurityId] at h
  split at h
  next market code hparse =>
    simp only [buildInternalSecurityId] at h
    split at h
    · exact absurd h (by simp)
    next hmic =>
      have hmic : (marketToMic market).isEmpty = false := Bool.eq_false_iff.2 hmic
      obtain ⟨hlength, -, hzero⟩ := marketToMic_letters hmic
      split at h
      · exact absurd h (by simp)
      · refine ⟨market, (code.take 10).takeWhile (· ≠ 0), hmic, ?_⟩
        have hletters : ∀ b ∈ marketToMic market, decide (b ≠ 0) = true := by
          intro b hb
          refine decide_eq_true ?_
          rintro rfl
          exact hzero hb
        have htake : (marketToMic market ++ underscore :: code).take 15 =
            marketToMic market ++ underscore :: code.take 10 := by
          rw [List.take_append, hlength, List.take_of_length_le (by omega)]
          rfl
        rw [← Option.some.inj h]
        simp only [FixedString.assign]
        rw [show UInt8.ofNat '_'.toNat = underscore from rfl, htake,
          List.takeWhile_append_of_pos hletters, List.takeWhile_cons_of_pos (by decide)]
  · exact absurd h (by simp)

/-- A normal form has no other normal form than itself. -/
theorem normalize_unique {text : Bytes} {key key' : InternalSecurityId}
    (h : normalizeInternalSecurityId text = some key)
    (h' : normalizeInternalSecurityId key.view = some key') :
    key' = key := by
  obtain ⟨market, code, hmic, hview⟩ := view_of_normalize h
  obtain ⟨hlength, hunder, -⟩ := marketToMic_letters hmic
  have hne : marketToMic market ≠ [] := List.ne_nil_of_length_eq_add_one hlength
  have hsplit := split_append hunder hne code
  by_cases hcode : code = []
  · -- nothing is left of the code: the key is not split at all
    subst hcode
    have hstop : UInt8.ofNat '.'.toNat ∉ marketToMic market ++ [underscore] := by
      cases market <;> decide
    rw [if_pos rfl] at hsplit
    simp only [normalizeInternalSecurityId, parseInternalSecurityId, hview] at h'
    rw [show UInt8.ofNat '_'.toNat = underscore from rfl, hsplit, split_of_notMem hstop] at h'
    exact absurd h' (by simp)
  · rw [if_neg hcode, ← hview] at hsplit
    exact normalize_split (by rw [hsplit]; rfl) h'

/-- A key that has a normal form gives way to it, whatever form it is in. -/
theorem canonicalKey_eq (key : InternalSecurityId) :
    canonicalKey key = (normalizeInternalSecurityId key.view).getD key := by
  cases hnorm : normalizeInternalSecurityId key.view with
  | none => simp [canonicalKey, isLegacyKey, hnorm]
  | some key' =>
      cases hsplit : (splitInternalSecurityId key.view underscore).isNone with
      | true => simp [canonicalKey, isLegacyKey, hnorm, hsplit]
      | false =>
          rw [normalize_split hsplit hnorm]
          simp [canonicalKey, isLegacyKey, hsplit]

/-- The key that replaces another has the same normal form. -/
theorem normalize_canonicalKey (key : InternalSecurityId) :
    normalizeInternalSecurityId (canonicalKey key).view = normalizeInternalSecurityId key.view := by
  rw [canonicalKey_eq]
  cases hnorm : normalizeInternalSecurityId key.view with
  | none => exact hnorm
  | some key' => exact normalize_normalize hnorm

/-- A key in the older form is not empty, and neither is its normal form. -/
theorem isEmpty_canonicalKey (key : InternalSecurityId) :
    (canonicalKey key).isEmpty = key.isEmpty := by
  rw [canonicalKey_eq]
  cases hnorm : normalizeInternalSecurityId key.view with
  | none => rfl
  | some key' =>
      have hnonempty : ∀ k : InternalSecurityId,
          (normalizeInternalSecurityId k.view).isSome = true → k.isEmpty = false := by
        intro k hsome
        cases hview : k.view with
        | nil =>
            rw [hview] at hsome
            exact absurd hsome (by decide)
        | cons b bs => simp [FixedString.isEmpty, hview]
      rw [Option.getD_some, hnonempty key (by rw [hnorm]; rfl),
        hnonempty key' (by rw [normalize_normalize hnorm]; rfl)]

/-- Two keys that give way to the same key. -/
def SameKey (key key' : InternalSecurityId) : Prop := canonicalKey key = canonicalKey key'

namespace SameKey

variable {key key' : InternalSecurityId}

theorem refl (key : InternalSecurityId) : SameKey key key := rfl

theorem normalize (h : SameKey key key') :
    normalizeInternalSecurityId key.view = normalizeInternalSecurityId key'.view := by
  rw [← normalize_canonicalKey, ← normalize_canonicalKey key', h]

theorem isEmpty (h : SameKey key key') : key.isEmpty = key'.isEmpty := by
  rw [← isEmpty_canonicalKey, ← isEmpty_canonicalKey key', h]

theorem normalizeSecurityKey (h : SameKey key key') :
    normalizeSecurityKey key.view = normalizeSecurityKey key'.view := by
  have hempty : key.view.isEmpty = key'.view.isEmpty := h.isEmpty
  simp only [AccountServices.normalizeSecurityKey, hempty, h.normalize]

end SameKey

/-- A key and the one that replaces it. -/
theorem sameKey_canonicalKey (key : InternalSecurityId) : SameKey key (canonicalKey key) := by
  rw [SameKey, canonicalKey_eq (canonicalKey key), normalize_canonicalKey, canonicalKey_eq]
  cases normalizeInternalSecurityId key.view with
  | none => rfl
  | some key' => rfl

example : canonicalKey (FixedString.assign (asciiBytes ['S', 'Z', '.', '0', '1'])) =
    FixedString.assign (asciiBytes ['X', 'S', 'H', 'E', '_', '0', '1']) := by decide

/-! ## The codec -/

/-- The markets that have an MIC. -/
def exchanges : List Market := [.sz, .sh, .bj, .hk]

/-- The mark of a market in keys of the older form. -/
def marketToLegacy : Market → Bytes
  | .sz => asciiBytes ['S', 'Z']
  | .sh => asciiBytes ['S', 'H']
  | .bj => asciiBytes ['B', 'J']
  | .hk => asciiBytes ['H', 'K']
  | _ => []

/-- The byte of the full stop. -/
def fullStop : UInt8 := UInt8.ofNat '.'.toNat

theorem mic_of_exchange {market : Market} (h : market ∈ exchanges) :
    (marketToMic market).isEmpty = false := by
  cases market with
  | sz => rfl
  | sh => rfl
  | bj => rfl
  | hk => rfl
  | _ => exact absurd h (by decide)

/-- The marks of the older form have two letters, which are read back as the market. -/
theorem marketToLegacy_facts {market : Market} (h : market ∈ exchanges) :
    parseLegacyMarket (marketToLegacy market) = some market ∧ marketToLegacy market ≠ [] ∧
      underscore ∉ marketToLegacy market ∧ fullStop ∉ marketToLegacy market := by
  cases market with
  | sz => decide
  | sh => decide
  | bj => decide
  | hk => decide
  | _ => exact absurd h (by decide)

/-- A code that fits in the key makes one. -/
theorem buildInternalSecurityId_isSome {market : Market} (hmarket : market ∈ exchanges)
    {code : Bytes} :
    (buildInternalSecurityId market code).isSome = true ↔ 1 ≤ code.length ∧ code.length ≤ 10 := by
  have hmic := mic_of_exchange hmarket
  obtain ⟨hlength, -, -⟩ := marketToMic_letters hmic
  simp only [buildInternalSecurityId, hmic, hlength, Bool.false_eq_true, if_false]
  cases code with
  | nil => simp
  | cons b bs =>
      split
      next h =>
        simp only [List.isEmpty_cons, Bool.false_eq_true, false_or, List.length_cons] at h
        simp only [Option.isSome_none, Bool.false_eq_true, List.length_cons, false_iff]
        omega
      next h =>
        simp only [List.isEmpty_cons, Bool.false_eq_true, false_or, List.length_cons] at h
        simp only [Option.isSome_some, List.length_cons, true_iff]
        omega

/-- Both forms of a key have the same normal form. -/
theorem normalize_legacy {market : Market} (hmarket : market ∈ exchanges) {code : Bytes}
    (hcode : underscore ∉ code) :
    normalizeInternalSecurityId (marketToLegacy market ++ fullStop :: code) =
      normalizeInternalSecurityId (marketToMic market ++ underscore :: code) := by
  have hmic := mic_of_exchange hmarket
  obtain ⟨hlength, hunder, -⟩ := marketToMic_letters hmic
  obtain ⟨hparse, hne, hnone, hstop⟩ := marketToLegacy_facts hmarket
  have hne' : marketToMic market ≠ [] := List.ne_nil_of_length_eq_add_one hlength
  -- the older key has no underscore, so it is split at the full stop
  have hlegacy : splitInternalSecurityId (marketToLegacy market ++ fullStop :: code)
      underscore = none := by
    refine split_of_notMem fun hmem => ?_
    rcases List.mem_append.1 hmem with hmem | hmem
    · exact hnone hmem
    rcases List.mem_cons.1 hmem with heq | hmem
    · exact absurd heq (by decide)
    · exact hcode hmem
  have hnew := split_append hunder hne' code
  have hold := split_append hstop hne code
  simp only [normalizeInternalSecurityId, parseInternalSecurityId]
  rw [show UInt8.ofNat '_'.toNat = underscore from rfl,
    show UInt8.ofNat '.'.toNat = fullStop from rfl, hlegacy, hnew, hold]
  cases code with
  | nil =>
      -- nothing behind the delimiter: the new key is not split at a full stop either
      have hstop' : fullStop ∉ marketToMic market ++ [underscore] := by
        cases market <;> decide
      simp only [if_true, split_of_notMem hstop']
  | cons b bs =>
      simp only [List.cons_ne_nil, if_false, List.isEmpty_cons, Bool.false_eq_true,
        parseMicMarket_marketToMic hmic, hparse]

/-- The normal form of a key is the key of its market and its code. -/
theorem normalize_mic {market : Market} (hmarket : market ∈ exchanges)
    {code : Bytes} (hne : code ≠ []) :
    normalizeInternalSecurityId (marketToMic market ++ underscore :: code) =
      buildInternalSecurityId market code := by
  have hmic := mic_of_exchange hmarket
  obtain ⟨hlength, hunder, -⟩ := marketToMic_letters hmic
  have hsplit := split_append hunder (List.ne_nil_of_length_eq_add_one hlength) code
  rw [if_neg hne] at hsplit
  have hparse : parseInternalSecurityId (marketToMic market ++ underscore :: code) =
      some (market, code) := by
    rw [parseInternalSecurityId, show UInt8.ofNat '_'.toNat = underscore from rfl, hsplit]
    simp only [List.isEmpty_eq_false_iff.2 hne, Bool.false_eq_true, if_false,
      parseMicMarket_marketToMic hmic, Option.map_some]
  rw [normalizeInternalSecurityId, hparse]

/-- The codec of the security keys. A market with an MIC and a code of one to ten bytes make a key
that is parsed back, no other code makes one, and different pairs make different keys; a normal form
is its own normal form; and the two spellings of a key have the same normal form, which for a code
of one to ten bytes is the key of the pair. -/
theorem security_key_codec :
    (∀ market ∈ exchanges, ∀ code : Bytes, (0 : UInt8) ∉ code → 1 ≤ code.length → code.length ≤ 10 →
      ∃ key, buildInternalSecurityId market code = some key ∧
        parseInternalSecurityId key.view = some (market, code)) ∧
    (∀ market ∈ exchanges, ∀ code : Bytes, code.length = 0 ∨ 10 < code.length →
      buildInternalSecurityId market code = none) ∧
    (∀ market ∈ exchanges, ∀ market' ∈ exchanges, ∀ code code' : Bytes, (0 : UInt8) ∉ code →
      (0 : UInt8) ∉ code' →
      ∀ key, buildInternalSecurityId market code = some key →
        buildInternalSecurityId market' code' = some key → (market, code) = (market', code')) ∧
    (∀ (text : Bytes) (key : InternalSecurityId), (0 : UInt8) ∉ text →
      normalizeInternalSecurityId text = some key →
        normalizeInternalSecurityId key.view = some key) ∧
    ∀ market ∈ exchanges, ∀ code : Bytes, underscore ∉ code →
      normalizeInternalSecurityId (marketToLegacy market ++ fullStop :: code) =
        normalizeInternalSecurityId (marketToMic market ++ underscore :: code) ∧
      (1 ≤ code.length → code.length ≤ 10 → ∃ key, buildInternalSecurityId market code = some key ∧
        normalizeInternalSecurityId (marketToMic market ++ underscore :: code) = some key ∧
        normalizeInternalSecurityId (marketToLegacy market ++ fullStop :: code) = some key) := by
  refine ⟨?_, ?_, ?_, ?_, ?_⟩
  -- the key is parsed back
  · intro market hmarket code hclean hpos hshort
    obtain ⟨key, hkey⟩ :=
      Option.isSome_iff_exists.1 ((buildInternalSecurityId_isSome hmarket).2 ⟨hpos, hshort⟩)
    exact ⟨key, hkey, parse_buildInternalSecurityId hclean hkey⟩
  -- codes that are too short or too long
  · intro market hmarket code hlength
    rw [← Option.not_isSome_iff_eq_none, buildInternalSecurityId_isSome hmarket]
    omega
  -- two codes with one key are parsed back from it
  · intro market _ market' _ code code' hclean hclean' key hbuild hbuild'
    have hparse := parse_buildInternalSecurityId hclean hbuild
    rw [parse_buildInternalSecurityId hclean' hbuild'] at hparse
    exact (Option.some.inj hparse).symm
  -- a key is its own normal form
  · intro text key hclean hnorm
    simp only [normalizeInternalSecurityId] at hnorm
    split at hnorm
    next market code hparse =>
      exact normalize_buildInternalSecurityId
        (fun hmem => hclean (parse_subset hparse _ hmem)) hnorm
    · exact absurd hnorm (by simp)
  -- both spellings of the market
  · intro market hmarket code hcode
    have hsame := normalize_legacy hmarket hcode
    refine ⟨hsame, fun hpos hshort => ?_⟩
    obtain ⟨key, hkey⟩ :=
      Option.isSome_iff_exists.1 ((buildInternalSecurityId_isSome hmarket).2 ⟨hpos, hshort⟩)
    have hnorm := (normalize_mic hmarket (List.ne_nil_of_length_pos hpos)).trans hkey
    exact ⟨key, hkey, hnorm, hsame.trans hnorm⟩

end AccountServices
