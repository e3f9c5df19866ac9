import AccountServices.Foundation.Program
import AccountServices.Portfolio.PositionRows

/-!
# The calls of the position manager

Two results about the calls as a caller sees them. A call that reports failure leaves the table as
it was, with two exceptions: `deduct_position` uses up the frozen shares before it finds that the
sellable ones do not cover the rest, and `add_security` stores the clamped count before it finds the
table full (`failed_call_keeps_table_iff`). The successful row calls move the shares of a row around
but conserve them, and never sell what was bought on the way (`shares_conserved`).
-/

set_option autoImplicit false

namespace AccountServices

open Foundation

/-! ## Failed calls -/

/-- A call of `PositionManager` that changes the table. -/
inductive PositionCall where
  | freezeFund (amount : DValue)
  | unfreezeFund (amount : DValue)
  | deductFund (amount fee : DValue)
  | addFund (amount : DValue)
  | applyBuyTradeFund (amount fee : DValue)
  | applySellTradeFund (amount fee : DValue)
  | freezePosition (securityId : InternalSecurityId) (volume : Volume)
  | unfreezePosition (securityId : InternalSecurityId) (volume : Volume)
  | deductPosition (securityId : InternalSecurityId) (volume : Volume) (value : DValue)
  | addPosition (securityId : InternalSecurityId) (volume : Volume) (price : DPrice)
  | addSecurity (code name : Bytes) (market : Market)

namespace PositionManager

variable {m : PositionManager}

/-- The answer of a call and the table after it; an empty key is the failure of `add_security`. -/
def call (m : PositionManager) : PositionCall → Bool × PositionManager
  | .freezeFund amount => m.onFund fun f => f.freezeFund amount
  | .unfreezeFund amount => m.onFund fun f => f.unfreezeFund amount
  | .deductFund amount fee => m.onFund fun f => f.deductFund amount fee
  | .addFund amount => m.onFund fun f => f.addFund amount
  | .applyBuyTradeFund amount fee => m.onFund fun f => f.applyBuyTradeFund amount fee
  | .applySellTradeFund amount fee => m.onFund fun f => f.applySellTradeFund amount fee
  | .freezePosition securityId volume => m.freezePosition securityId volume
  | .unfreezePosition securityId volume => m.unfreezePosition securityId volume
  | .deductPosition securityId volume value => m.deductPosition securityId volume value
  | .addPosition securityId volume price => m.addPosition securityId volume price
  | .addSecurity code name market =>
      ((m.addSecurity code name market).1.isSome, (m.addSecurity code name market).2)

/-- The FUND row, the security rows, the count and the row map of two tables are the same. -/
structure SameTable (m m' : PositionManager) : Prop where
  fund : m'.fund = m.fund
  rows : m'.rows = m.rows
  positionCount : m'.positionCount = m.positionCount
  securityToRow : m'.securityToRow = m.securityToRow

theorem SameTable.refl (m : PositionManager) : m.SameTable m := ⟨rfl, rfl, rfl, rfl⟩

/-- A sale of more than the frozen and the sellable shares, some of which are frozen. -/
def Overdraws (m : PositionManager) (securityId : InternalSecurityId) (volume : Volume) : Prop :=
  ∃ p, m.getPosition securityId = some p ∧ 0 < p.volumeSell ∧
    p.volumeSell.toNat + p.volumeAvailableT0.toNat < volume.toNat

/-- A new security for a table whose count is above the limit. -/
def Overflows (m : PositionManager) (code : Bytes) (market : Market) : Prop :=
  kMaxSecurityPositions < m.positionCount ∧ code.isEmpty = false ∧
    ∃ key, buildInternalSecurityId market code = some key ∧ m.securityToRow.lookup key = none

/-- The call would be refused only after it has written. -/
def WritesBeforeRefusal (m : PositionManager) : PositionCall → Prop
  | .deductPosition securityId volume _ => m.Overdraws securityId volume
  | .addSecurity code _ market => m.Overflows code market
  | _ => False

theorem onFund_of_failed {op : FundInfo → Option FundInfo} (h : (m.onFund op).1 = false) :
    (m.onFund op).2 = m := by
  simp only [onFund] at h ⊢
  cases hop : op m.fund with
  | none => rfl
  | some fund =>
      rw [hop] at h
      exact Bool.noConfusion h

/-- A row operation that checks before it writes. -/
theorem onPosition_of_failed {securityId : InternalSecurityId} {op : Position → Bool × Position}
    (hop : ∀ p, (op p).1 = false → (op p).2 = p) (h : (m.onPosition securityId op).1 = false) :
    (m.onPosition securityId op).2 = m := by
  simp only [onPosition] at h ⊢
  cases hrow : m.findRow securityId with
  | none => rfl
  | some row =>
      rw [hrow] at h
      simp only at h ⊢
      rw [hop _ h, Function.update_eq_self]

end PositionManager

namespace Position

variable {p : Position} {volume : Volume}

theorem freezePosition_of_failed (h : (p.freezePosition volume).1 = false) :
    (p.freezePosition volume).2 = p := by
  simp only [freezePosition] at h ⊢
  split
  · rfl
  next hcovered =>
    rw [if_neg hcovered] at h
    exact Bool.noConfusion h

theorem unfreezePosition_of_failed (h : (p.unfreezePosition volume).1 = false) :
    (p.unfreezePosition volume).2 = p := by
  simp only [unfreezePosition] at h ⊢
  split
  · rfl
  next hcovered =>
    rw [if_neg hcovered] at h
    exact Bool.noConfusion h

/-- `deduct_position` refuses exactly what the frozen and the sellable shares do not cover. -/
theorem deductPosition_failed_iff (p : Position) (volume : Volume) (value : DValue) :
    (p.deductPosition volume value).1 = false ↔
      p.volumeSell.toNat + p.volumeAvailableT0.toNat < volume.toNat := by
  simp only [deductPosition]
  split
  next hge =>
    rw [ge_iff_le, Word.le_iff] at hge
    simp only [Bool.true_eq_false, false_iff]
    omega
  next hlt =>
    rw [ge_iff_le, Word.le_iff] at hlt
    have hremaining := toNat_remaining (not_le.1 hlt)
    generalize (if p.volumeSell > 0 then volume - p.volumeSell else volume) =
      remaining at hremaining ⊢
    split
    next hshort =>
      rw [Word.lt_iff, hremaining] at hshort
      simp only [true_iff]
      omega
    next hcovered =>
      rw [Word.lt_iff, hremaining] at hcovered
      simp only [Bool.true_eq_false, false_iff]
      omega

end Position

namespace PositionManager

/-- The sale that fails leaves the row as it was if and only if no share of it was frozen. -/
theorem deductPosition_sameTable_iff (m : PositionManager) (securityId : InternalSecurityId)
    (volume : Volume) (value : DValue) :
    ((m.deductPosition securityId volume value).1 = false →
        m.SameTable (m.deductPosition securityId volume value).2) ↔
      ¬ m.Overdraws securityId volume := by
  cases hrow : m.findRow securityId with
  | none =>
      have hsame : (m.deductPosition securityId volume value).2 = m := by
        simp only [deductPosition, onPosition, hrow]
      have hnone : ¬ m.Overdraws securityId volume := by
        rintro ⟨p, hp, -⟩
        rw [getPosition, hrow] at hp
        exact absurd hp (by simp)
      rw [hsame]
      exact ⟨fun _ => hnone, fun _ _ => SameTable.refl m⟩
  | some row =>
      have hanswer : (m.deductPosition securityId volume value).1 =
          ((m.rows row).deductPosition volume value).1 := by
        simp only [deductPosition, onPosition, hrow]
      have htable : (m.deductPosition securityId volume value).2 =
          { m with rows :=
            Function.update m.rows row ((m.rows row).deductPosition volume value).2 } := by
        simp only [deductPosition, onPosition, hrow]
      have hposition : m.getPosition securityId = some (m.rows row) := by
        rw [getPosition, hrow]
        rfl
      rw [hanswer, htable, Position.deductPosition_failed_iff]
      constructor
      · rintro hsame ⟨p, hp, hfrozen, hshort⟩
        rw [hposition, Option.some.injEq] at hp
        subst hp
        -- the row has lost its frozen shares
        have hrows := congrFun (hsame hshort).rows row
        simp only [Function.update_self, Position.deductPosition_short value hshort] at hrows
        have hzero : (m.rows row).volumeSell = 0 := (congrArg Position.volumeSell hrows).symm
        rw [hzero] at hfrozen
        exact absurd hfrozen (by decide)
      · intro hnot hshort
        have hzero : (m.rows row).volumeSell = 0 := by
          by_contra hne
          refine hnot ⟨_, hposition, ?_, hshort⟩
          rw [Word.lt_iff, UInt64.toNat_zero]
          rw [Word.eq_iff, UInt64.toNat_zero] at hne
          omega
        have hkept : { m.rows row with volumeSell := 0 } = m.rows row := by
          rw [← hzero]
        rw [Position.deductPosition_short value hshort, hkept, Function.update_eq_self]
        exact SameTable.refl m

/-- A security that gets no row leaves the table as it was if and only if the count was in its
range. -/
theorem addSecurity_sameTable_iff (m : PositionManager) (code name : Bytes) (market : Market) :
    ((m.addSecurity code name market).1.isSome = false →
        m.SameTable (m.addSecurity code name market).2) ↔ ¬ m.Overflows code market := by
  simp only [addSecurity, Overflows]
  cases hcode : code.isEmpty with
  | true => simp [SameTable.refl]
  | false =>
      simp only [Bool.false_eq_true, if_false]
      cases hkey : buildInternalSecurityId market code with
      | none => simp [SameTable.refl]
      | some key =>
          simp only [Option.some.injEq]
          cases hrow : m.securityToRow.lookup key with
          | some row => simp [hrow]
          | none =>
              simp only [Option.isSome_none, Bool.false_eq_true, if_false]
              by_cases hover : kMaxSecurityPositions < m.positionCount
              · have hclamp : clampSecurityCount m.positionCount = kMaxSecurityPositions :=
                  if_pos hover
                rw [hclamp, if_pos (Nat.le_refl _)]
                constructor
                · intro hsame
                  have hcount := (hsame rfl).positionCount
                  simp only at hcount
                  omega
                · exact fun hnot => absurd ⟨hover, trivial, key, rfl, hrow⟩ hnot
              · have hle : m.positionCount ≤ kMaxSecurityPositions := by omega
                rw [clampSecurityCount_of_le hle]
                split
                · exact ⟨fun _ h => hover h.1, fun _ _ => SameTable.refl m⟩
                · exact ⟨fun _ h => hover h.1, fun _ h => Bool.noConfusion h⟩

/-- A call that reports failure leaves the table as it was, if and only if it is not one of the two
that write before they refuse. -/
theorem failed_call_keeps_table_iff (m : PositionManager) (c : PositionCall) :
    ((m.call c).1 = false → m.SameTable (m.call c).2) ↔ ¬ m.WritesBeforeRefusal c := by
  have hsame : ∀ {m' : PositionManager}, m' = m → m.SameTable m' := by
    intro m' heq
    rw [heq]
    exact SameTable.refl m
  cases c with
  | freezeFund amount => exact ⟨fun _ h => h, fun _ h => hsame (onFund_of_failed h)⟩
  | unfreezeFund amount => exact ⟨fun _ h => h, fun _ h => hsame (onFund_of_failed h)⟩
  | deductFund amount fee => exact ⟨fun _ h => h, fun _ h => hsame (onFund_of_failed h)⟩
  | addFund amount => exact ⟨fun _ h => h, fun _ h => hsame (onFund_of_failed h)⟩
  | applyBuyTradeFund amount fee => exact ⟨fun _ h => h, fun _ h => hsame (onFund_of_failed h)⟩
  | applySellTradeFund amount fee => exact ⟨fun _ h => h, fun _ h => hsame (onFund_of_failed h)⟩
  | freezePosition securityId volume =>
      exact ⟨fun _ h => h,
        fun _ h => hsame (onPosition_of_failed (fun p => Position.freezePosition_of_failed) h)⟩
  | unfreezePosition securityId volume =>
      exact ⟨fun _ h => h,
        fun _ h => hsame (onPosition_of_failed (fun p => Position.unfreezePosition_of_failed) h)⟩
  | deductPosition securityId volume value =>
      exact m.deductPosition_sameTable_iff securityId volume value
  | addPosition securityId volume price =>
      exact ⟨fun _ h => h,
        fun _ h => hsame (onPosition_of_failed (fun p hfailed => Bool.noConfusion hfailed) h)⟩
  | addSecurity code name market => exact m.addSecurity_sameTable_iff code name market

end PositionManager

/-- A security key. -/
def frozenKey :
    InternalSecurityId := (buildInternalSecurityId .sz (asciiBytes ['1'])).getD FixedString.clear

/-- A table with one security, of which 30 shares can be sold and 20 are frozen for sale. -/
def frozenTable : PositionManager where
  header := { initState := 1 }
  fund := { totalAsset := 1000, available := 1000 }
  rows := fun _ => { volumeAvailableT0 := 30, volumeSell := 20, id := frozenKey }
  positionCount := 1
  securityToRow := (∅ : Map InternalSecurityId Nat).insert frozenKey 1

/-- A sale of 60 shares is refused, and the frozen shares are gone. -/
theorem refused_sale_loses_frozen_shares :
    (frozenTable.call (.deductPosition frozenKey 60 600)).1 = false ∧
      ¬ frozenTable.SameTable (frozenTable.call (.deductPosition frozenKey 60 600)).2 := by
  refine ⟨by decide, fun hsame => ?_⟩
  have hrow : ((frozenTable.call (.deductPosition frozenKey 60 600)).2.rows 1).volumeSell =
      (frozenTable.rows 1).volumeSell := by
    rw [hsame.rows]
  exact absurd hrow (by decide)

/-! ## Shares of a row -/

/-- A call on the row of a security. -/
inductive RowCall where
  | freeze (volume : Volume)
  | unfreeze (volume : Volume)
  | deduct (volume : Volume) (value : DValue)
  | add (volume : Volume) (price : DPrice)

namespace RowCall

/-- What the call does to the row. -/
def apply : RowCall → Position → Bool × Position
  | .freeze volume, p => p.freezePosition volume
  | .unfreeze volume, p => p.unfreezePosition volume
  | .deduct volume value, p => p.deductPosition volume value
  | .add volume price, p => p.addPosition volume price

/-- What the call sells when it succeeds. -/
def sold : RowCall → Nat
  | .deduct volume _ => volume.toNat
  | _ => 0

/-- The call on the table. -/
def onTable (securityId : InternalSecurityId) (m : PositionManager) :
    RowCall → Bool × PositionManager
  | .freeze volume => m.freezePosition securityId volume
  | .unfreeze volume => m.unfreezePosition securityId volume
  | .deduct volume value => m.deductPosition securityId volume value
  | .add volume price => m.addPosition securityId volume price

theorem onTable_eq (securityId : InternalSecurityId) (m : PositionManager) (c : RowCall) :
    c.onTable securityId m = m.onPosition securityId c.apply := by
  cases c <;> rfl

end RowCall

namespace Position

/-- The shares that can still be sold. -/
def saleable (p : Position) : Nat := p.volumeAvailableT0.toNat + p.volumeSell.toNat

/-- The shares of the start of the day: sellable, frozen for sale and sold. -/
def dayShares (p : Position) : Nat := p.saleable + p.volumeSellTraded.toNat

/-- What the row `q` owes to the row `p` after `sold` shares were sold. -/
structure Conserves (p q : Position) (sold : Nat) : Prop where
  word : q.volumeAvailableT0 + q.volumeSell + q.volumeSellTraded =
    p.volumeAvailableT0 + p.volumeSell + p.volumeSellTraded
  exact : p.dayShares < 2 ^ 64 → q.dayShares = p.dayShares
  bought : q.volumeAvailableT1 - q.volumeBuyTraded = p.volumeAvailableT1 - p.volumeBuyTraded
  covered : sold + q.saleable ≤ p.saleable

theorem Conserves.refl (p : Position) : p.Conserves p 0 := by
  refine ⟨rfl, fun _ => rfl, rfl, ?_⟩
  omega

theorem Conserves.trans {p q r : Position} {i j : Nat} (h : p.Conserves q i)
    (h' : q.Conserves r j) : p.Conserves r (i + j) where
  word := h'.word.trans h.word
  exact hday := by
    have hfirst := h.exact hday
    exact (h'.exact (hfirst ▸ hday)).trans hfirst
  bought := h'.bought.trans h.bought
  covered := by
    have hfirst := h.covered
    have hsecond := h'.covered
    omega

/-- The sums of a row modulo the word size follow from the sums of the numbers. -/
theorem word_eq {p q : Position}
    (h : (q.volumeAvailableT0.toNat + q.volumeSell.toNat + q.volumeSellTraded.toNat) % 2 ^ 64 =
      (p.volumeAvailableT0.toNat + p.volumeSell.toNat + p.volumeSellTraded.toNat) % 2 ^ 64) :
    q.volumeAvailableT0 + q.volumeSell + q.volumeSellTraded =
      p.volumeAvailableT0 + p.volumeSell + p.volumeSellTraded := by
  rw [Word.eq_iff]
  simp only [UInt64.toNat_add, Nat.mod_add_mod]
  exact h

variable {p : Position} {volume : Volume}

theorem conserves_freezePosition (hok : (p.freezePosition volume).1 = true) :
    p.Conserves (p.freezePosition volume).2 0 := by
  simp only [freezePosition] at hok ⊢
  split at hok
  · exact Bool.noConfusion hok
  next hcovered =>
    rw [if_neg hcovered]
    obtain ⟨hle, hsub⟩ := Word.toNat_sub_of_not_lt hcovered
    have hadd := UInt64.toNat_add p.volumeSell volume
    have hwrap := Nat.mod_le (p.volumeSell.toNat + volume.toNat) (2 ^ 64)
    refine ⟨word_eq ?_, fun hday => ?_, rfl, ?_⟩
    · simp only [hsub, hadd]
      omega
    · simp only [dayShares, saleable] at hday
      rw [Nat.mod_eq_of_lt (by omega)] at hadd
      simp only [dayShares, saleable, hsub, hadd]
      omega
    · simp only [saleable, hsub, hadd]
      omega

theorem conserves_unfreezePosition (hok : (p.unfreezePosition volume).1 = true) :
    p.Conserves (p.unfreezePosition volume).2 0 := by
  simp only [unfreezePosition] at hok ⊢
  split at hok
  · exact Bool.noConfusion hok
  next hcovered =>
    rw [if_neg hcovered]
    obtain ⟨hle, hsub⟩ := Word.toNat_sub_of_not_lt hcovered
    have hadd := UInt64.toNat_add p.volumeAvailableT0 volume
    have hwrap := Nat.mod_le (p.volumeAvailableT0.toNat + volume.toNat) (2 ^ 64)
    refine ⟨word_eq ?_, fun hday => ?_, rfl, ?_⟩
    · simp only [hsub, hadd]
      omega
    · simp only [dayShares, saleable] at hday
      rw [Nat.mod_eq_of_lt (by omega)] at hadd
      simp only [dayShares, saleable, hsub, hadd]
      omega
    · simp only [saleable, hsub, hadd]
      omega

/-- What a sale leaves in the row: the shares come out of the frozen and the sellable ones. -/
theorem deductPosition_facts (value : DValue) (hok : (p.deductPosition volume value).1 = true) :
    (p.deductPosition volume value).2.saleable + volume.toNat = p.saleable ∧
      (p.deductPosition volume value).2.volumeSellTraded = p.volumeSellTraded + volume ∧
      (p.deductPosition volume value).2.volumeAvailableT1 = p.volumeAvailableT1 ∧
      (p.deductPosition volume value).2.volumeBuyTraded = p.volumeBuyTraded := by
  have henough : volume.toNat ≤ p.volumeSell.toNat + p.volumeAvailableT0.toNat := by
    have hiff := p.deductPosition_failed_iff volume value
    rw [hok] at hiff
    simp only [Bool.true_eq_false, false_iff] at hiff
    omega
  have hheld := held_deductPosition value henough
  have hrest : (p.deductPosition volume value).2.volumeSellTraded = p.volumeSellTraded + volume ∧
      (p.deductPosition volume value).2.volumeAvailableT1 = p.volumeAvailableT1 ∧
      (p.deductPosition volume value).2.volumeBuyTraded = p.volumeBuyTraded := by
    simp only [deductPosition] at hok ⊢
    split at hok
    next hge =>
      rw [if_pos hge]
      exact ⟨rfl, rfl, rfl⟩
    next hlt =>
      rw [if_neg hlt]
      generalize (if p.volumeSell > 0 then volume - p.volumeSell else volume) = remaining at hok ⊢
      split at hok
      · exact Bool.noConfusion hok
      next hcovered =>
        rw [if_neg hcovered]
        exact ⟨rfl, rfl, rfl⟩
  refine ⟨?_, hrest⟩
  simp only [held, hrest.2.1] at hheld
  simp only [saleable]
  omega

theorem conserves_deductPosition (value : DValue) (hok : (p.deductPosition volume value).1 = true) :
    p.Conserves (p.deductPosition volume value).2 volume.toNat := by
  obtain ⟨hsaleable, htraded, ht1, hbought⟩ := deductPosition_facts value hok
  generalize (p.deductPosition volume value).2 = q at hsaleable htraded ht1 hbought
  have hadd := UInt64.toNat_add p.volumeSellTraded volume
  simp only [saleable] at hsaleable
  refine ⟨word_eq ?_, fun hday => ?_, ?_, ?_⟩
  · rw [htraded, hadd]
    omega
  · simp only [dayShares, saleable] at hday
    rw [Nat.mod_eq_of_lt (by omega)] at hadd
    simp only [dayShares, saleable, htraded, hadd]
    omega
  · rw [ht1, hbought]
  · simp only [saleable]
    omega

theorem conserves_addPosition (p : Position) (volume : Volume) (price : DPrice) :
    p.Conserves (p.addPosition volume price).2 0 := by
  refine ⟨rfl, fun _ => rfl, ?_, ?_⟩
  · simp only [addPosition]
    grind
  · simp only [addPosition, saleable]
    omega

end Position

/-- Every successful call on a row conserves its shares. -/
theorem RowCall.conserves {c : RowCall} {p : Position} (hok : (c.apply p).1 = true) :
    p.Conserves (c.apply p).2 c.sold := by
  cases c with
  | freeze volume => exact Position.conserves_freezePosition hok
  | unfreeze volume => exact Position.conserves_unfreezePosition hok
  | deduct volume value => exact Position.conserves_deductPosition value hok
  | add volume price => exact p.conserves_addPosition volume price

/-- The calls on the row of one security, one after the other. -/
def PositionManager.callAll (securityId : InternalSecurityId) (m : PositionManager)
    (calls : List RowCall) : PositionManager :=
  calls.foldl (fun m c => (c.onTable securityId m).2) m

/-- Shares are conserved: after any sequence of successful calls on the row of a security, the sum
of the sellable, the frozen and the sold shares is what it was (as a number, if it was a word), the
shares bought stay apart, and no more was sold than could be sold at the start. -/
theorem shares_conserved {securityId : InternalSecurityId} {m : PositionManager} {p : Position}
    {calls : List RowCall} (hrow : m.getPosition securityId = some p)
    (hok : StepsMeet (fun m c => (RowCall.onTable securityId m c).2)
      (fun m c => (RowCall.onTable securityId m c).1 = true) m calls) :
    ∃ q, (m.callAll securityId calls).getPosition securityId = some q ∧
      q.volumeAvailableT0 + q.volumeSell + q.volumeSellTraded =
        p.volumeAvailableT0 + p.volumeSell + p.volumeSellTraded ∧
      (p.volumeAvailableT0.toNat + p.volumeSell.toNat + p.volumeSellTraded.toNat < 2 ^ 64 →
        q.volumeAvailableT0.toNat + q.volumeSell.toNat + q.volumeSellTraded.toNat =
          p.volumeAvailableT0.toNat + p.volumeSell.toNat + p.volumeSellTraded.toNat) ∧
      q.volumeAvailableT1 - q.volumeBuyTraded = p.volumeAvailableT1 - p.volumeBuyTraded ∧
      (calls.map RowCall.sold).sum ≤ p.volumeAvailableT0.toNat + p.volumeSell.toNat := by
  -- Every call conserves the three sums of the row, and conservation is transitive.
  have hrun : ∃ q, (m.callAll securityId calls).getPosition securityId = some q ∧
      p.Conserves q (calls.map RowCall.sold).sum := by
    induction calls generalizing m p with
    | nil => exact ⟨p, hrow, Position.Conserves.refl p⟩
    | cons c rest ih =>
        obtain ⟨hfirst, hrest⟩ := hok
        simp only [RowCall.onTable_eq securityId m c] at hfirst hrest
        have hnext := m.getPosition_onPosition securityId c.apply
        rw [hrow, Option.map_some] at hnext
        obtain ⟨q, hq, hconserves⟩ := ih hnext hrest
        have hanswer : (c.apply p).1 = true := by
          obtain ⟨row, hfound, heq⟩ := Option.map_eq_some_iff.1 hrow
          simp only [PositionManager.onPosition, hfound] at hfirst
          rw [← heq]
          exact hfirst
        refine ⟨q, ?_, (RowCall.conserves hanswer).trans hconserves⟩
        rw [PositionManager.callAll, List.foldl_cons, RowCall.onTable_eq]
        exact hq
  obtain ⟨q, hq, hword, hexact, hbought, hcovered⟩ := hrun
  refine ⟨q, hq, hword, hexact, hbought, ?_⟩
  simp only [Position.saleable] at hcovered
  omega

/-- Shares are frozen, bought and sold; the sale takes frozen and sellable shares. -/
theorem shares_conserved_mixed_sale :
    ∃ q, (frozenTable.callAll frozenKey [.freeze 10, .add 100 7, .deduct 40 400]).getPosition
        frozenKey = some q ∧
      q.volumeAvailableT0.toNat + q.volumeSell.toNat + q.volumeSellTraded.toNat = 50 := by
  have hrow : frozenTable.getPosition frozenKey =
      some { volumeAvailableT0 := 30, volumeSell := 20, id := frozenKey } := by decide
  have hok : StepsMeet (fun m c => (RowCall.onTable frozenKey m c).2)
      (fun m c => (RowCall.onTable frozenKey m c).1 = true) frozenTable
      [.freeze 10, .add 100 7, .deduct 40 400] := ⟨by decide, by decide, by decide, trivial⟩
  obtain ⟨q, hq, -, hexact, -⟩ := shares_conserved hrow hok
  exact ⟨q, hq, hexact (by decide)⟩

end AccountServices
