import Mathlib.Algebra.Order.BigOperators.Group.List
import AccountServices.Execution.SessionState
import AccountServices.Foundation.EvenSplit
import AccountServices.Foundation.Word

/-!
# The slices of a TWAP plan

`build_twap_slice_plan` rounds a quotient of 64-bit words up, clamps it on both sides and spreads
the remainder over the first slices. Whatever the count is, the plan is an even split of the volume
of the parent (`buildTwapSlicePlan_eq`). The bound of the clip is another matter: the sum that is
rounded up can wrap, and then the whole volume is one slice. The plan keeps the bound exactly when
the sum does not wrap, or the volume fits one clip anyway, or the count is limited below the number
of clips (`buildTwapSlicePlan_planned_iff`).
-/

set_option autoImplicit false

namespace AccountServices

open Foundation

theorem SplitConfig.resolveClipVolume_pos (c : SplitConfig) : 0 < c.resolveClipVolume.toNat := by
  rw [resolveClipVolume]
  split
  next hmax =>
    rw [ne_eq, Word.eq_iff] at hmax
    exact Nat.pos_of_ne_zero hmax
  next =>
    rw [Word.toNat_max]
    exact (show 0 < (1 : UInt64).toNat by decide).trans_le (le_max_right _ _)

namespace Session

variable {volumeEntrust : Volume} {c : SplitConfig}

/-- The slices add up to the volume of the parent, do not grow, and differ by at most one. -/
structure Planned (volumeEntrust : Volume) (maxChildCount : UInt32) (slices : List Volume) :
    Prop where
  length_pos : 1 ≤ slices.length
  length_le : slices.length ≤ maxChildCount.toNat
  positive : ∀ slice ∈ slices, 0 < slice
  sum : (slices.map UInt64.toNat).sum = volumeEntrust.toNat
  nonincreasing : slices.Pairwise (· ≥ ·)
  close : ∀ first ∈ slices.head?, ∀ last ∈ slices.getLast?, first.toNat ≤ last.toNat + 1

/-- The number of slices that `build_twap_slice_plan` arrives at. -/
def sliceCount (volumeEntrust : Volume) (c : SplitConfig) : UInt64 :=
  min (max ((volumeEntrust + c.resolveClipVolume - 1) / c.resolveClipVolume) 1)
    (UInt64.ofNat c.maxChildCount.toNat)

/-! ## The count -/

theorem toNat_maxChildCount (c : SplitConfig) :
    (UInt64.ofNat c.maxChildCount.toNat).toNat = c.maxChildCount.toNat := by
  have hbound := c.maxChildCount.toNat_lt
  exact UInt64.toNat_ofNat_of_lt' (show _ < 2 ^ 64 by omega)

/-- The sum before the division, as the word that it is. -/
theorem toNat_roundedUp (hvolume : 0 < volumeEntrust.toNat) (c : SplitConfig) :
    (volumeEntrust + c.resolveClipVolume - 1).toNat =
      if volumeEntrust.toNat + c.resolveClipVolume.toNat ≤ 2 ^ 64 then
        volumeEntrust.toNat + c.resolveClipVolume.toNat - 1
      else volumeEntrust.toNat + c.resolveClipVolume.toNat - 1 - 2 ^ 64 := by
  have hbound := volumeEntrust.toNat_lt
  have hclip := c.resolveClipVolume.toNat_lt
  have hpos := c.resolveClipVolume_pos
  rw [UInt64.toNat_sub, UInt64.toNat_add]
  simp only [UInt64.reduceToNat]
  split
  · omega
  · omega

theorem toNat_sliceCount (hvolume : 0 < volumeEntrust.toNat) (hcount : 0 < c.maxChildCount.toNat) :
    (sliceCount volumeEntrust c).toNat =
      if volumeEntrust.toNat + c.resolveClipVolume.toNat ≤ 2 ^ 64 then
        min (volumeEntrust.toNat ⌈/⌉ c.resolveClipVolume.toNat) c.maxChildCount.toNat
      else 1 := by
  have hpos := c.resolveClipVolume_pos
  rw [sliceCount, Word.toNat_min, Word.toNat_max, UInt64.toNat_div, toNat_roundedUp hvolume,
    toNat_maxChildCount]
  simp only [UInt64.reduceToNat]
  split
  next hfits =>
    have hquot : 1 ≤ (volumeEntrust.toNat + c.resolveClipVolume.toNat - 1) /
        c.resolveClipVolume.toNat := by
      rw [Nat.one_le_div_iff hpos]
      omega
    rw [max_eq_left hquot, Nat.ceilDiv_eq_add_pred_div]
  next hwraps =>
    -- The wrapped sum is smaller than the clip: the quotient is zero.
    have hbound := volumeEntrust.toNat_lt
    rw [Nat.div_eq_of_lt (by omega), max_eq_right (Nat.zero_le 1), min_eq_left hcount]

theorem sliceCount_bounds (hvolume : 0 < volumeEntrust.toNat) (hcount : 0 < c.maxChildCount.toNat) :
    0 < (sliceCount volumeEntrust c).toNat ∧
      (sliceCount volumeEntrust c).toNat ≤ volumeEntrust.toNat ∧
      (sliceCount volumeEntrust c).toNat ≤ c.maxChildCount.toNat := by
  have hpos := c.resolveClipVolume_pos
  rw [toNat_sliceCount hvolume hcount]
  split
  · have hceil : 0 < volumeEntrust.toNat ⌈/⌉ c.resolveClipVolume.toNat := by
      rw [Nat.ceilDiv_eq_add_pred_div, Nat.div_pos_iff]
      omega
    have hle : volumeEntrust.toNat ⌈/⌉ c.resolveClipVolume.toNat ≤ volumeEntrust.toNat := by
      rw [ceilDiv_le_iff_le_mul hpos]
      exact Nat.le_mul_of_pos_left _ hpos
    omega
  · omega

/-! ## The slices -/

/-- The loop spreads the remainder over the first slices; no slice is empty when the base is not. -/
theorem map_sliceVolumes {base : Volume} (hbase : 0 < base.toNat) (count : Nat) (remainder : Volume)
    (hle : remainder.toNat ≤ count) (hroom : 0 < remainder.toNat → base.toNat + 1 < 2 ^ 64) :
    (sliceVolumes base count remainder).map UInt64.toNat =
      List.replicate remainder.toNat (base.toNat + 1) ++
        List.replicate (count - remainder.toNat) base.toNat := by
  induction count generalizing remainder with
  | zero =>
      rw [Nat.le_zero.1 hle]
      rfl
  | succ count ih =>
      simp only [sliceVolumes, gt_iff_lt, UInt64.lt_iff_toNat_lt, UInt64.reduceToNat]
      by_cases hrest : 0 < remainder.toNat
      · -- One of the remainder goes to this slice.
        have hsub : (remainder - 1).toNat = remainder.toNat - 1 :=
          UInt64.toNat_sub_of_le _ _ (UInt64.le_iff_toNat_le.2 hrest)
        have hnext : (base + 1).toNat = base.toNat + 1 := Word.toNat_add_of_lt (hroom hrest)
        have htail := ih (remainder - 1) (by omega) fun _ => hroom hrest
        obtain ⟨rest, hsucc⟩ := Nat.exists_eq_succ_of_ne_zero hrest.ne'
        rw [if_pos hrest, if_pos hrest, if_pos (by omega), List.map_append, htail, hsub, hsucc,
          Nat.succ_eq_add_one, Nat.add_sub_cancel, Nat.add_sub_add_right, List.replicate_succ,
          List.map_singleton, hnext]
        rfl
      · have hzero : remainder.toNat = 0 := by omega
        have htail := ih remainder (by omega) hroom
        rw [if_neg hrest, if_neg hrest, if_pos hbase, List.map_append, htail, hzero, Nat.sub_zero,
          Nat.sub_zero, List.replicate_succ, List.map_singleton]
        rfl

/-- The plan is an even split, whatever the count came to. -/
theorem buildTwapSlicePlan_eq (hvolume : 0 < volumeEntrust.toNat)
    (hcount : 0 < c.maxChildCount.toNat) :
    ∃ slices, buildTwapSlicePlan volumeEntrust c = some slices ∧
      slices.map UInt64.toNat = evenSplit volumeEntrust.toNat
        (sliceCount volumeEntrust c).toNat := by
  obtain ⟨hpos, hle, -⟩ := sliceCount_bounds hvolume hcount
  have hbound := volumeEntrust.toNat_lt
  have hbase : 0 < (volumeEntrust / sliceCount volumeEntrust c).toNat := by
    rw [UInt64.toNat_div]
    exact Nat.div_pos hle hpos
  have hrest : (volumeEntrust % sliceCount volumeEntrust c).toNat <
      (sliceCount volumeEntrust c).toNat := by
    rw [UInt64.toNat_mod]
    exact Nat.mod_lt _ hpos
  have hmap := map_sliceVolumes hbase (sliceCount volumeEntrust c).toNat
    (volumeEntrust % sliceCount volumeEntrust c) hrest.le (by
      intro hsome
      -- A remainder needs at least two slices, so the base is at most half of the volume.
      have htwo : 2 ≤ (sliceCount volumeEntrust c).toNat := by omega
      have hhalf : volumeEntrust.toNat / (sliceCount volumeEntrust c).toNat ≤
          volumeEntrust.toNat / 2 :=
        Nat.div_le_div_left htwo Nat.two_pos
      rw [UInt64.toNat_div]
      omega)
  rw [UInt64.toNat_div, UInt64.toNat_mod] at hmap
  have hlength := congrArg List.length hmap
  rw [List.length_map] at hlength
  refine ⟨_, ?_, hmap⟩
  have hsome : ¬ (volumeEntrust = 0 ∨ c.maxChildCount = 0) := by
    rintro (hzero | hzero)
    · rw [hzero] at hvolume
      exact absurd hvolume (by decide)
    · rw [hzero] at hcount
      exact absurd hcount (by decide)
  have hclip : c.resolveClipVolume ≠ 0 := by
    intro hzero
    have hpos := c.resolveClipVolume_pos
    rw [hzero] at hpos
    exact absurd hpos (by decide)
  have hcounted : sliceCount volumeEntrust c ≠ 0 := by
    intro hzero
    rw [hzero] at hpos
    exact absurd hpos (by decide)
  have hnonempty : ¬ (sliceVolumes (volumeEntrust / sliceCount volumeEntrust c)
      (sliceCount volumeEntrust c).toNat (volumeEntrust % sliceCount volumeEntrust c)).isEmpty =
        true := by
    intro hempty
    rw [List.isEmpty_iff.1 hempty] at hlength
    rw [← evenSplit, length_evenSplit hpos, List.length_nil] at hlength
    omega
  rw [buildTwapSlicePlan, if_neg hsome]
  simp only
  rw [if_neg hclip, ← sliceCount, if_neg hcounted, if_neg hnonempty]

/-! ## The plan -/

theorem planned_of_map {slices : List Volume} (hvolume : 0 < volumeEntrust.toNat)
    (hcount : 0 < c.maxChildCount.toNat)
    (hmap : slices.map UInt64.toNat = evenSplit volumeEntrust.toNat
      (sliceCount volumeEntrust c).toNat) :
    Planned volumeEntrust c.maxChildCount slices := by
  obtain ⟨hpos, hle, hmost⟩ := sliceCount_bounds hvolume hcount
  have hlength : slices.length = (sliceCount volumeEntrust c).toNat := by
    rw [← List.length_map (f := UInt64.toNat), hmap, length_evenSplit hpos]
  have hmem : ∀ slice ∈ slices,
      slice.toNat ∈ evenSplit volumeEntrust.toNat (sliceCount volumeEntrust c).toNat := by
    intro slice hslice
    rw [← hmap]
    exact List.mem_map_of_mem hslice
  refine ⟨by omega, by omega, ?_, ?_, ?_, ?_⟩
  · intro slice hslice
    exact UInt64.lt_iff_toNat_lt.2 (pos_of_mem_evenSplit hpos hle (hmem slice hslice))
  · rw [hmap, sum_evenSplit hpos]
  · have hpairs := pairwise_evenSplit volumeEntrust.toNat (sliceCount volumeEntrust c).toNat
    rw [← hmap, List.pairwise_map] at hpairs
    exact hpairs.imp fun h => UInt64.le_iff_toNat_le.2 h
  · intro first hfirst last hlast
    have hupper := (mem_evenSplit (hmem first (List.mem_of_mem_head? hfirst))).2
    have hlower := (mem_evenSplit (hmem last (List.mem_of_mem_getLast? hlast))).1
    omega

/-- No slice exceeds the clip exactly when that many clips hold the volume. -/
theorem le_clip_iff {slices : List Volume} (clip : Volume) {n : Nat} (hn : 0 < n)
    (hmap : slices.map UInt64.toNat = evenSplit volumeEntrust.toNat n) :
    (∀ slice ∈ slices, slice ≤ clip) ↔ volumeEntrust.toNat ≤ clip.toNat * n := by
  constructor
  · intro hall
    have hsum := sum_evenSplit (n := volumeEntrust.toNat) hn
    have hlength := length_evenSplit (n := volumeEntrust.toNat) hn
    rw [← hmap] at hsum hlength
    have hle := List.sum_le_card_nsmul (slices.map UInt64.toNat) clip.toNat (by
      intro x hx
      obtain ⟨slice, hslice, rfl⟩ := List.mem_map.1 hx
      exact UInt64.le_iff_toNat_le.1 (hall slice hslice))
    rw [hsum, hlength, smul_eq_mul, Nat.mul_comm] at hle
    exact hle
  · intro hfits slice hslice
    refine UInt64.le_iff_toNat_le.2 (le_of_mem_evenSplit hn hfits ?_)
    rw [← hmap]
    exact List.mem_map_of_mem hslice

/-- The plan is as it should be for every volume, and it keeps the bound of the clip unless the sum
that is rounded up wraps for a volume that needs several clips and may have them. -/
theorem buildTwapSlicePlan_planned_iff (hvolume : 0 < volumeEntrust)
    (hcount : 0 < c.maxChildCount) : (∃ slices, buildTwapSlicePlan volumeEntrust c = some slices ∧
        Planned volumeEntrust c.maxChildCount slices ∧
        (volumeEntrust.toNat ⌈/⌉ c.resolveClipVolume.toNat ≤ c.maxChildCount.toNat →
          ∀ slice ∈ slices, slice ≤ c.resolveClipVolume)) ↔
      volumeEntrust ≤ c.resolveClipVolume ∨
        volumeEntrust.toNat + (c.resolveClipVolume.toNat - 1) < 2 ^ 64 ∨
        c.maxChildCount.toNat < volumeEntrust.toNat ⌈/⌉ c.resolveClipVolume.toNat := by
  rw [UInt64.lt_iff_toNat_lt] at hvolume
  rw [UInt32.lt_iff_toNat_lt] at hcount
  have hclip := c.resolveClipVolume_pos
  obtain ⟨slices, hplan, hmap⟩ := buildTwapSlicePlan_eq hvolume hcount
  have hpos := (sliceCount_bounds hvolume hcount).1
  have hbound := le_clip_iff c.resolveClipVolume hpos hmap
  rw [toNat_sliceCount hvolume hcount] at hbound
  rw [UInt64.le_iff_toNat_le]
  constructor
  · rintro ⟨other, hother, -, hbounded⟩
    obtain rfl : slices = other := Option.some.inj (hplan.symm.trans hother)
    by_cases hmost : volumeEntrust.toNat ⌈/⌉ c.resolveClipVolume.toNat ≤ c.maxChildCount.toNat
    · by_cases hfits : volumeEntrust.toNat + c.resolveClipVolume.toNat ≤ 2 ^ 64
      · exact Or.inr (Or.inl (by omega))
      · -- The rounded sum wraps, and the plan is one slice.
        have hwhole := hbound.1 (hbounded hmost)
        rw [if_neg hfits, Nat.mul_one] at hwhole
        exact Or.inl hwhole
    · exact Or.inr (Or.inr (Nat.lt_of_not_le hmost))
  · intro hcases
    refine ⟨slices, hplan, planned_of_map hvolume hcount hmap, ?_⟩
    intro hmost
    refine hbound.2 ?_
    split
    next hfits =>
      rw [min_eq_left hmost]
      exact (ceilDiv_le_iff_le_mul hclip).1 (le_refl _)
    next hwraps =>
      rcases hcases with hwhole | hfits | hless
      · rw [Nat.mul_one]
        exact hwhole
      · omega
      · omega

theorem buildTwapSlicePlan_planned_iff_hundred :
    ∃ slices, buildTwapSlicePlan 1000 { maxChildVolume := 300 } = some slices ∧
      Planned 1000 100 slices ∧
      ((1000 : Volume).toNat ⌈/⌉ (300 : Volume).toNat ≤ (100 : UInt32).toNat →
        ∀ slice ∈ slices, slice ≤ 300) :=
  (buildTwapSlicePlan_planned_iff (c := { maxChildVolume := 300 }) (by decide) (by decide)).2
    (Or.inr (Or.inl (by decide)))

/-- The largest volume with a clip of half the word range: two clips hold it and two children are
allowed, but the sum wraps and the plan is a single slice. -/
theorem buildTwapSlicePlan_wraps :
    ¬ ∀ (volumeEntrust : Volume) (c : SplitConfig), 0 < volumeEntrust → 0 < c.maxChildCount →
      ∃ slices, buildTwapSlicePlan volumeEntrust c = some slices ∧
        Planned volumeEntrust c.maxChildCount slices ∧
        (volumeEntrust.toNat ⌈/⌉ c.resolveClipVolume.toNat ≤ c.maxChildCount.toNat →
          ∀ slice ∈ slices, slice ≤ c.resolveClipVolume) := by
  intro h
  obtain ⟨slices, hplan, -, hbounded⟩ :=
    h 18446744073709551615 { maxChildVolume := 9223372036854775808, maxChildCount := 2 }
      (by decide) (by decide)
  have hsingle : buildTwapSlicePlan 18446744073709551615
      { maxChildVolume := 9223372036854775808, maxChildCount := 2 } =
        some [18446744073709551615] := by decide
  obtain rfl : [18446744073709551615] = slices := Option.some.inj (hsingle.symm.trans hplan)
  exact absurd (hbounded (by decide) _ (List.mem_singleton.2 rfl)) (by decide)

end Session

end AccountServices
