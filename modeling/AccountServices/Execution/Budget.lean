import AccountServices.Core.EventLoop

/-!
# The budget of a session

Every child of a session is committed to a volume: to all it was submitted with while it is open,
and to what it traded once it is final. The committed volumes of the children never sum to more than
the target, whatever the market data, the decisions of the active strategy, the outcome of
submissions, the cancels in the book and the responses of the broker are. From this the three
quantities that the session derives (confirmed, working, schedulable) always add up to the target.
-/

set_option autoImplicit false

namespace AccountServices

open Foundation

/-! ## One ledger -/

namespace ChildExecutionLedger

variable {l : ChildExecutionLedger}

/-- The volume to which the child is committed. -/
def committed (l : ChildExecutionLedger) : Nat :=
  if l.finalized then l.confirmedTradedVolume.toNat else l.entrustVolume.toNat

/-- What is known of the child does not exceed what it was submitted with, and nothing counts as
cancelled before the child is final. -/
structure Consistent (l : ChildExecutionLedger) : Prop where
  known_le : l.confirmedTradedVolume.toNat + l.finalCancelledVolume.toNat ≤ l.entrustVolume.toNat
  open_cancelled : l.finalized = false → l.finalCancelledVolume = 0

theorem unresolvedVolume_of_open (h : l.Consistent) (hopen : l.finalized = false) :
    l.unresolvedVolume.toNat = l.entrustVolume.toNat - l.confirmedTradedVolume.toNat := by
  have hknown := h.known_le
  have hzero := h.open_cancelled hopen
  rw [unresolvedVolume]
  rw [hopen, hzero, UInt64.add_zero]
  simp only [Bool.false_eq_true, if_false]
  split
  next hge =>
    rw [ge_iff_le, Word.le_iff] at hge
    rw [UInt64.toNat_zero]
    omega
  next hge =>
    rw [ge_iff_le, Word.le_iff] at hge
    exact UInt64.toNat_sub_of_le _ _ ((Word.le_iff _ _).2 (by omega))

theorem unresolvedVolume_of_final (hfinal : l.finalized = true) : l.unresolvedVolume = 0 := by
  rw [unresolvedVolume]
  rw [if_pos hfinal]

/-- What is confirmed and what is open make up what the child is committed to. -/
theorem confirmed_add_unresolved (h : l.Consistent) :
    l.confirmedTradedVolume.toNat + l.unresolvedVolume.toNat = l.committed := by
  have hknown := h.known_le
  rw [committed]
  cases hfinal : l.finalized with
  | true => rw [unresolvedVolume_of_final hfinal, UInt64.toNat_zero, if_pos rfl, Nat.add_zero]
  | false =>
      rw [unresolvedVolume_of_open h hfinal]
      simp only [Bool.false_eq_true, if_false]
      omega

theorem committed_le (h : l.Consistent) : l.committed ≤ l.entrustVolume.toNat := by
  have hknown := h.known_le
  rw [committed]
  split <;> omega

/-- A fill keeps an open ledger consistent: the clamp holds even when the sum of the volumes
wraps. -/
theorem consistent_addFill (h : l.Consistent) (hopen : l.finalized = false) (r : TradeResponse) :
    (l.addFill r).Consistent := by
  rw [addFill]
  split
  next hpos =>
    refine ⟨?_, fun _ => h.open_cancelled hopen⟩
    simp only
    rw [h.open_cancelled hopen, UInt64.toNat_zero, Nat.add_zero, Word.toNat_min]
    exact Nat.min_le_left _ _
  next hpos => exact h

theorem addFill_entrustVolume (r : TradeResponse) :
    (l.addFill r).entrustVolume = l.entrustVolume := by
  rw [addFill]
  split <;> rfl

theorem addFill_finalized (r : TradeResponse) : (l.addFill r).finalized = l.finalized := by
  rw [addFill]
  split <;> rfl

theorem finishWith_known_le (h : l.Consistent) (hopen : l.finalized = false) (cancelled : Volume) :
    (l.finishWith cancelled).confirmedTradedVolume.toNat +
      (l.finishWith cancelled).finalCancelledVolume.toNat ≤ l.entrustVolume.toNat := by
  have hknown := h.known_le
  have hopen' := unresolvedVolume_of_open h hopen
  rw [finishWith]
  simp only
  split
  next hpos =>
    have hmax : (if l.confirmedTradedVolume ≥ l.entrustVolume then (0 : Volume)
        else l.entrustVolume - l.confirmedTradedVolume).toNat =
          l.entrustVolume.toNat - l.confirmedTradedVolume.toNat := by
      split
      next hge =>
        rw [ge_iff_le, Word.le_iff] at hge
        rw [UInt64.toNat_zero]
        omega
      next hge =>
        rw [ge_iff_le, Word.le_iff] at hge
        exact UInt64.toNat_sub_of_le _ _ ((Word.le_iff _ _).2 (by omega))
    rw [Word.toNat_min, hmax]
    omega
  next hpos =>
    split
    · rw [UInt64.toNat_zero]
      omega
    · omega

theorem consistent_finishWith (h : l.Consistent) (hopen : l.finalized = false)
    (cancelled : Volume) : (l.finishWith cancelled).Consistent where
  known_le := finishWith_known_le h hopen cancelled
  open_cancelled := fun hfinal => absurd hfinal (by simp [finishWith])

theorem consistent_failOpen (h : l.Consistent) (hopen : l.finalized = false) :
    l.failOpen.Consistent where
  known_le := by
    have hknown := h.known_le
    have hopen' := unresolvedVolume_of_open h hopen
    rw [failOpen]
    simp only
    omega
  open_cancelled := fun hfinal => absurd hfinal (by simp [failOpen])

end ChildExecutionLedger

/-! ## All ledgers -/

namespace Session

variable {s : Session}

/-- The sum over the ledgers stops at the largest word. -/
theorem sumLedgers_eq_min (s : Session) (f : ChildExecutionLedger → UInt64) :
    (s.sumLedgers f).toNat = min (2 ^ 64 - 1) (Map.total s.childLedgers fun l => (f l).toNat) := by
  have hfold : ∀ (es : List ((_ : InternalOrderId) × ChildExecutionLedger)) (acc : UInt64),
      (es.foldl (fun total e => saturatingAdd total (f e.2)) acc).toNat =
        min (2 ^ 64 - 1) (acc.toNat + (es.map fun e => (f e.2).toNat).sum) := by
    intro es
    induction es with
    | nil =>
        intro acc
        have hacc := acc.toNat_lt
        rw [List.foldl_nil, List.map_nil, List.sum_nil]
        omega
    | cons e es ih =>
        intro acc
        rw [List.foldl_cons, ih, saturatingAdd_toNat, List.map_cons, List.sum_cons]
        omega
  have hsum := hfold s.childLedgers.entries 0
  rw [UInt64.toNat_zero, Nat.zero_add] at hsum
  exact hsum

/-- The sum over the ledgers is exact as long as it fits a word. -/
theorem sumLedgers_toNat (s : Session) (f : ChildExecutionLedger → UInt64)
    (h : Map.total s.childLedgers (fun l => (f l).toNat) < 2 ^ 64) :
    (s.sumLedgers f).toNat = Map.total s.childLedgers fun l => (f l).toNat := by
  rw [sumLedgers_eq_min]
  omega

/-- The budget invariant: the ledgers are consistent, and the committed volumes stay within the
target. -/
structure Budgeted (s : Session) : Prop where
  consistent : ∀ id l, s.childLedgers.lookup id = some l → l.Consistent
  within : Map.total s.childLedgers ChildExecutionLedger.committed ≤ s.targetVolume.toNat

namespace Budgeted

theorem confirmed_add_working (h : s.Budgeted) :
    Map.total s.childLedgers (fun l => l.confirmedTradedVolume.toNat) +
        Map.total s.childLedgers (fun l => l.unresolvedVolume.toNat) =
      Map.total s.childLedgers ChildExecutionLedger.committed := by
  rw [← Map.total_add]
  exact Map.total_congr fun id l hl =>
    ChildExecutionLedger.confirmed_add_unresolved (h.consistent id l hl)

theorem confirmedTradedVolume_toNat (h : s.Budgeted) :
    s.confirmedTradedVolume.toNat =
      Map.total s.childLedgers fun l => l.confirmedTradedVolume.toNat := by
  have hsum := h.confirmed_add_working
  have hwithin := h.within
  have htarget := s.targetVolume.toNat_lt
  exact sumLedgers_toNat s _ (by omega)

theorem workingVolume_toNat (h : s.Budgeted) :
    s.workingVolume.toNat = Map.total s.childLedgers fun l => l.unresolvedVolume.toNat := by
  have hsum := h.confirmed_add_working
  have hwithin := h.within
  have htarget := s.targetVolume.toNat_lt
  exact sumLedgers_toNat s _ (by omega)

/-- What is confirmed and what is working make up what is committed. -/
theorem committed_eq (h : s.Budgeted) :
    s.confirmedTradedVolume.toNat + s.workingVolume.toNat =
      Map.total s.childLedgers ChildExecutionLedger.committed := by
  rw [h.confirmedTradedVolume_toNat, h.workingVolume_toNat]
  exact h.confirmed_add_working

/-- The three quantities of the session add up to the target. -/
theorem confirmed_working_schedulable (h : s.Budgeted) :
    s.confirmedTradedVolume.toNat + s.workingVolume.toNat + s.schedulableVolume.toNat =
      s.targetVolume.toNat := by
  have hsum := h.committed_eq
  have hwithin := h.within
  have hremaining : s.remainingTarget.toNat =
      s.targetVolume.toNat - s.confirmedTradedVolume.toNat := by
    rw [remainingTarget]
    split
    next hge =>
      rw [ge_iff_le, Word.le_iff] at hge
      rw [UInt64.toNat_zero]
      omega
    next hge =>
      rw [ge_iff_le, Word.le_iff] at hge
      exact UInt64.toNat_sub_of_le _ _ ((Word.le_iff _ _).2 (by omega))
  rw [schedulableVolume]
  split
  next hge =>
    rw [ge_iff_le, Word.le_iff] at hge
    rw [UInt64.toNat_zero]
    omega
  next hge =>
    rw [ge_iff_le, Word.le_iff] at hge
    rw [UInt64.toNat_sub_of_le _ _ ((Word.le_iff _ _).2 (by omega))]
    omega

/-- Replacing a ledger by a consistent one that is committed to no more keeps the budget. -/
theorem setLedger (h : s.Budgeted) {id : InternalOrderId} {l l' : ChildExecutionLedger}
    (hl : s.childLedgers.lookup id = some l) (hcons : l'.Consistent)
    (hle : l'.committed ≤ l.committed) : (s.setLedger id l').Budgeted where
  consistent := by
    intro id' k hk
    rw [Session.setLedger, Map.lookup_insert_eq] at hk
    split at hk
    next heq => exact Option.some.inj hk ▸ hcons
    next hne => exact h.consistent id' k hk
  within := by
    have hsum := Map.total_insert_of_lookup_some (f := ChildExecutionLedger.committed) hl l'
    have hwithin := h.within
    show Map.total (s.childLedgers.insert id l') ChildExecutionLedger.committed ≤
        s.targetVolume.toNat
    omega

/-- A new child within the schedulable volume keeps the budget. -/
theorem addChild (h : s.Budgeted) (child : OrderEntry) {volume : Volume} (price : DPrice)
    (hle : volume ≤ s.schedulableVolume) : (s.addChild child volume price).Budgeted := by
  rw [Session.addChild]
  split
  next => exact h
  next hnone =>
    refine ⟨?_, ?_⟩
    · intro id l hl
      rw [Session.setLedger, Map.lookup_insert_eq] at hl
      split at hl
      next heq =>
        cases hl
        exact ⟨by simp, fun _ => rfl⟩
      next hne => exact h.consistent id l hl
    · have hsum := h.committed_eq
      have hthree := h.confirmed_working_schedulable
      rw [Word.le_iff] at hle
      rw [Session.setLedger]
      rw [Map.total_insert_of_lookup_none hnone]
      simp only [ChildExecutionLedger.committed, Bool.false_eq_true, if_false] at hsum ⊢
      show _ ≤ s.targetVolume.toNat
      omega

/-- The budget depends on the ledgers and on the parent only. -/
theorem of_eq {t : Session} (h : s.Budgeted) (hledgers : t.childLedgers = s.childLedgers)
    (hparent : t.parentRequest = s.parentRequest) : t.Budgeted where
  consistent := hledgers ▸ h.consistent
  within := by
    rw [hledgers, targetVolume, hparent]
    exact h.within

end Budgeted

/-! ## Steps on the session alone -/

theorem advanceSliceIfReady_childLedgers (s : Session) :
    s.advanceSliceIfReady.childLedgers = s.childLedgers := by
  rw [advanceSliceIfReady]
  split
  · rfl
  · split <;> rfl

theorem advanceSliceIfReady_parentRequest (s : Session) :
    s.advanceSliceIfReady.parentRequest = s.parentRequest := by
  rw [advanceSliceIfReady]
  split
  · rfl
  · split <;> rfl

theorem consumeSlice_childLedgers (s : Session) : s.consumeSlice.childLedgers = s.childLedgers := by
  rw [consumeSlice]
  split <;> rfl

theorem consumeSlice_parentRequest (s : Session) :
    s.consumeSlice.parentRequest = s.parentRequest := by
  rw [consumeSlice]
  split <;> rfl

theorem currentBudgetVolume_le (s : Session) :
    s.currentBudgetVolume.toNat ≤ s.schedulableVolume.toNat := by
  rw [currentBudgetVolume]
  split
  · rw [Word.toNat_min]
    exact Nat.min_le_right _ _
  · split
    · rw [UInt64.toNat_zero]
      exact Nat.zero_le _
    · rw [Word.toNat_min]
      exact Nat.min_le_right _ _

/-- The attempt that led to a ledger, in the records of the session. -/
def AttemptedBy (l : ChildExecutionLedger) : ChildTrace → Prop
  | .submitAttempt _ volume price _ _ _ _ _ => volume = l.entrustVolume ∧ price = l.entrustPrice
  | _ => False

/-- A submission stays within what was schedulable when it was attempted. -/
def WithinSchedulable : ChildTrace → Prop
  | .submitAttempt _ volume _ _ _ _ schedulable _ => volume ≤ schedulable
  | _ => True

/-- The session is within its budget, every attempt on record was, and every child was attempted. -/
structure Accounted (s : Session) (records : List ChildTrace) : Prop where
  budgeted : s.Budgeted
  attempts : ∀ r ∈ records, WithinSchedulable r
  attempted : ∀ id l, s.childLedgers.lookup id = some l → ∃ r ∈ records, AttemptedBy l r

namespace Accounted

variable {records : List ChildTrace}

/-- Further records that are no attempts change nothing. -/
theorem append (h : s.Accounted records) {more : List ChildTrace}
    (hmore : ∀ r ∈ more, WithinSchedulable r) : s.Accounted (records ++ more) where
  budgeted := h.budgeted
  attempts := by
    intro r hr
    cases List.mem_append.1 hr with
    | inl hold => exact h.attempts r hold
    | inr hnew => exact hmore r hnew
  attempted := by
    intro id l hl
    obtain ⟨r, hr, hatt⟩ := h.attempted id l hl
    exact ⟨r, List.mem_append_left _ hr, hatt⟩

theorem of_eq {t : Session} (h : s.Accounted records) (hledgers : t.childLedgers = s.childLedgers)
    (hparent : t.parentRequest = s.parentRequest) : t.Accounted records where
  budgeted := h.budgeted.of_eq hledgers hparent
  attempts := h.attempts
  attempted := hledgers ▸ h.attempted

/-- A ledger that is replaced keeps its attempt when it keeps its volume and price. -/
theorem setLedger (h : s.Accounted records) {id : InternalOrderId} {l l' : ChildExecutionLedger}
    (hl : s.childLedgers.lookup id = some l) (hcons : l'.Consistent)
    (hle : l'.committed ≤ l.committed) (hvolume : l'.entrustVolume = l.entrustVolume)
    (hprice : l'.entrustPrice = l.entrustPrice) : (s.setLedger id l').Accounted records where
  budgeted := h.budgeted.setLedger hl hcons hle
  attempts := h.attempts
  attempted := by
    intro id' k hk
    rw [Session.setLedger, Map.lookup_insert_eq] at hk
    split at hk
    next heq =>
      cases hk
      obtain ⟨r, hr, hatt⟩ := h.attempted id l hl
      refine ⟨r, hr, ?_⟩
      cases r with
      | submitAttempt _ volume price _ _ _ _ _ => exact ⟨hvolume ▸ hatt.1, hprice ▸ hatt.2⟩
      | submitResult => exact hatt
      | finalized => exact hatt
    next hne => exact h.attempted id' k hk

end Accounted

theorem noteCancel_facts {records : List ChildTrace} (origId : InternalOrderId)
    (h : s.Accounted records) :
    (s.noteCancel origId).Accounted records ∧
      (s.noteCancel origId).parentRequest = s.parentRequest := by
  have hmark : ({ s with cancelRequested := true } : Session).Accounted records := h.of_eq rfl rfl
  rw [noteCancel]
  split
  next => exact ⟨hmark, rfl⟩
  next ledger hledger =>
    have hcons := hmark.budgeted.consistent _ _ hledger
    exact ⟨hmark.setLedger hledger ⟨hcons.known_le, hcons.open_cancelled⟩
      (Nat.le_refl _) rfl rfl, rfl⟩

/-- The cancels in the book mark the session and its ledgers and change no volume. -/
theorem noteCancels_facts {records : List ChildTrace} (b : OrderBook) (ids : List InternalOrderId)
    (s : Session) (h : s.Accounted records) :
    (s.noteCancels b ids).Accounted records ∧
      (s.noteCancels b ids).parentRequest = s.parentRequest := by
  induction ids generalizing s with
  | nil => exact ⟨h, rfl⟩
  | cons relatedId rest ih =>
      rw [noteCancels]
      split
      next => exact ih s h
      next entry hentry =>
        split
        next => exact ih s h
        next =>
          obtain ⟨hnoted, hparent⟩ := noteCancel_facts entry.request.origInternalOrderId h
          obtain ⟨hrest, hparent'⟩ := ih _ hnoted
          exact ⟨hrest, hparent'.trans hparent⟩

theorem refreshParentState_facts {records : List ChildTrace} (b : OrderBook)
    (h : s.Accounted records) : (s.refreshParentState b).2.Accounted records ∧
      (s.refreshParentState b).2.parentRequest = s.parentRequest := by
  rw [refreshParentState]
  split
  next => exact ⟨h.of_eq rfl rfl, rfl⟩
  next => exact noteCancels_facts b _ _ (h.of_eq rfl rfl)

theorem finalizeFinishedChild_childLedgers (s : Session) (id : InternalOrderId)
    (l : ChildExecutionLedger) (cancelled : Volume) :
    (s.finalizeFinishedChild id l cancelled).1.childLedgers =
      s.childLedgers.insert id (l.finishWith cancelled) := by
  rw [finalizeFinishedChild]
  simp only
  split <;> rfl

theorem finalizeFinishedChild_parentRequest (s : Session) (id : InternalOrderId)
    (l : ChildExecutionLedger) (cancelled : Volume) :
    (s.finalizeFinishedChild id l cancelled).1.parentRequest = s.parentRequest := by
  rw [finalizeFinishedChild]
  simp only
  split <;> rfl

theorem onTradeResponse_parentRequest (s : Session) (r : TradeResponse) :
    (s.onTradeResponse r).1.parentRequest = s.parentRequest := by
  simp only [onTradeResponse]
  split
  · rfl
  split
  · rfl
  split
  · exact (advanceSliceIfReady_parentRequest _).trans (finalizeFinishedChild_parentRequest _ _ _ _)
  split
  · exact advanceSliceIfReady_parentRequest _
  · rfl

/-- A response, whatever it reports, leaves the session within its budget. -/
theorem onTradeResponse_facts {records : List ChildTrace} (r : TradeResponse)
    (h : s.Accounted records) :
    (s.onTradeResponse r).1.Accounted (records ++ (s.onTradeResponse r).2) ∧
      (s.onTradeResponse r).1.parentRequest = s.parentRequest := by
  rw [onTradeResponse]
  split
  next => exact ⟨by simpa using h, rfl⟩
  next ledger hledger =>
    split
    next => exact ⟨by simpa using h, rfl⟩
    next hopen =>
      have hopen' : ledger.finalized = false := by simpa using hopen
      have hcons := ChildExecutionLedger.consistent_addFill
        (h.budgeted.consistent _ _ hledger) hopen' r
      have hfilled : ({ ledger.addFill r with orderState := r.newState } :
          ChildExecutionLedger).Consistent := ⟨hcons.known_le, hcons.open_cancelled⟩
      have hopenFilled : ({ ledger.addFill r with orderState := r.newState } :
          ChildExecutionLedger).finalized = false := by
        rw [← hopen']
        exact ChildExecutionLedger.addFill_finalized r
      have hvolume := ChildExecutionLedger.addFill_entrustVolume (l := ledger) r
      have hprice : (ledger.addFill r).entrustPrice = ledger.entrustPrice := by
        rw [ChildExecutionLedger.addFill]
        split <;> rfl
      have hcommitted : ledger.committed = ledger.entrustVolume.toNat := by
        rw [ChildExecutionLedger.committed]
        rw [hopen', if_neg Bool.false_ne_true]
      -- Every ledger that replaces this one is committed to no more than the whole child.
      have hreplace : ∀ l' : ChildExecutionLedger, l'.Consistent →
          l'.entrustVolume = ledger.entrustVolume → l'.entrustPrice = ledger.entrustPrice →
          (s.setLedger r.internalOrderId l').Accounted records := by
        intro l' hl' hv hp
        refine h.setLedger hledger hl' ?_ hv hp
        have hle := ChildExecutionLedger.committed_le hl'
        rw [hv] at hle
        omega
      split
      next hfinished =>
        have hfin := hreplace _ (ChildExecutionLedger.consistent_finishWith hfilled hopenFilled
          r.cancelledVolume) hvolume hprice
        refine ⟨Accounted.append (hfin.of_eq ?_ ?_) ?_, ?_⟩
        · rw [advanceSliceIfReady_childLedgers, finalizeFinishedChild_childLedgers]
          rfl
        · rw [advanceSliceIfReady_parentRequest, finalizeFinishedChild_parentRequest]
          rfl
        · intro rec hrec
          simp only [finalizeFinishedChild, List.mem_singleton] at hrec
          rw [hrec]
          trivial
        · rw [advanceSliceIfReady_parentRequest, finalizeFinishedChild_parentRequest]
      next hnot =>
        split
        next hfailure =>
          have hfail := hreplace _ (ChildExecutionLedger.consistent_failOpen hfilled hopenFilled)
            hvolume hprice
          refine ⟨Accounted.append (hfail.of_eq ?_ ?_) ?_, ?_⟩
          · rw [advanceSliceIfReady_childLedgers]
          · rw [advanceSliceIfReady_parentRequest]
          · intro rec hrec
            rw [List.mem_singleton] at hrec
            rw [hrec]
            trivial
          · rw [advanceSliceIfReady_parentRequest]
            rfl
        next hnofailure =>
          refine ⟨?_, rfl⟩
          rw [List.append_nil]
          exact hreplace _ hfilled hvolume hprice

/-! ## Ticks -/

open Program

/-- The session is accounted for by the records of the world, and it is still a session of
`parent`. -/
def Sound (parent : OrderRequest) (s : Session) (w : World) : Prop :=
  s.Accounted w.childTrace ∧ s.parentRequest = parent

variable {parent : OrderRequest} {w : World}

theorem Sound.of_eq {t : Session} (h : s.Sound parent w)
    (hledgers : t.childLedgers = s.childLedgers)
    (hparent : t.parentRequest = s.parentRequest) : t.Sound parent w :=
  ⟨h.1.of_eq hledgers hparent, hparent.trans h.2⟩

/-- A step that leaves the records alone keeps the session sound. -/
theorem Sound.of_trace {w' : World} (h : s.Sound parent w) (htrace : w'.childTrace = w.childTrace) :
    s.Sound parent w' :=
  ⟨htrace ▸ h.1, h.2⟩

/-- The router and the book write no child records. -/
theorem stable_childTrace (records : List ChildTrace) :
    Stable (fun _ => True) fun w => w.childTrace = records where
  shared _ _ _ _ _ h := h
  nextOrderId w h := by
    obtain ⟨_, _, _, heq⟩ := w.allocateOrderId_eq
    rw [heq]
    exact h
  addOrder _ _ _ _ h := h
  updateState _ _ _ _ h := h

theorem sound_syncParentView (t : Session) (now : TimestampNs) (h : s.Sound parent w) :
    Ensures (t.syncParentView now) w fun _ w' => s.Sound parent w' := by
  refine Ensures.bind ?_
  refine (Preserves.ensures (Service.preserves_onBook (stable_childTrace w.childTrace) now
    fun _ h => h) rfl).mono fun _ w₁ htrace => ?_
  exact Ensures.pure (h.of_trace htrace)

/-- Mirroring a session and returning it. -/
theorem sound_sync_pure (now : TimestampNs) (h : s.Sound parent w) :
    Ensures (do s.syncParentView now; pure s : Service Session) w
      fun s' w' => s'.Sound parent w' :=
  Ensures.bind ((sound_syncParentView s now h).mono fun _ _ hw => Ensures.pure hw)

theorem schedulableVolume_congr {t : Session} (hledgers : t.childLedgers = s.childLedgers)
    (hparent : t.parentRequest = s.parentRequest) : t.schedulableVolume = s.schedulableVolume := by
  unfold schedulableVolume remainingTarget workingVolume confirmedTradedVolume
    sumLedgers targetVolume
  rw [hledgers, hparent]

/-- What a submission ensures: soundness, the same plan, and unchanged ledgers when it fails. -/
def SubmitPost (parent : OrderRequest) (s : Session) (out : Bool × Session) (w : World) : Prop :=
  out.2.Sound parent w ∧ out.2.plan = s.plan ∧
    (out.1 = false → out.2.childLedgers = s.childLedgers)

theorem submitPost_refused (h : s.Sound parent w) :
    Ensures (pure (false, s) : Service (Bool × Session)) w (SubmitPost parent s) :=
  Ensures.pure ⟨h, rfl, fun _ => rfl⟩

theorem addChild_facts (s : Session) (child : OrderEntry) (volume : Volume) (price : DPrice) :
    (s.addChild child volume price).parentRequest = s.parentRequest ∧
      (s.addChild child volume price).plan = s.plan := by
  rw [addChild]
  split
  · exact ⟨rfl, rfl⟩
  · exact ⟨rfl, rfl⟩

/-- A child within the schedulable volume, whose attempt is on record, keeps the session
accounted. -/
theorem Accounted.addChild {records : List ChildTrace} (h : s.Accounted records)
    (child : OrderEntry) {volume : Volume} {price : DPrice} (hle : volume ≤ s.schedulableVolume)
    (hattempt : ∃ r ∈ records, ∀ l : ChildExecutionLedger, l.entrustVolume = volume →
      l.entrustPrice = price → AttemptedBy l r) :
    (s.addChild child volume price).Accounted records where
  budgeted := h.budgeted.addChild child price hle
  attempts := h.attempts
  attempted := by
    intro id l hl
    rw [Session.addChild] at hl
    split at hl
    next => exact h.attempted id l hl
    next =>
      rw [Session.setLedger, Map.lookup_insert_eq] at hl
      split at hl
      next =>
        cases hl
        obtain ⟨r, hr, hatt⟩ := hattempt
        exact ⟨r, hr, hatt _ rfl rfl⟩
      next => exact h.attempted id l hl

/-- A submission within the schedulable volume keeps the session sound, whether it succeeds or
not. -/
theorem sound_submitChild (now : TimestampNs) {volume : Volume} (price : DPrice) (active : Bool)
    (h : s.Sound parent w) (hle : volume ≤ s.schedulableVolume) :
    Ensures (s.submitChild now volume price active) w (SubmitPost parent s) := by
  rw [submitChild]
  split
  next => exact submitPost_refused h
  next =>
    -- The attempt is on record with a volume that is within the schedulable one.
    have hattempt : s.Accounted (w.childTrace ++ [s.attemptTrace volume price active]) := by
      refine h.1.append fun r hr => ?_
      rw [List.mem_singleton] at hr
      rw [hr]
      exact hle
    refine Ensures.bind (Ensures.modify (Ensures.bind ?_))
    refine (Preserves.ensures ((stable_childTrace _).routerRules.submitInternalOrder now rfl
      fun _ _ _ _ => trivial) rfl).mono ?_
    rintro ⟨sent, child⟩ w₁ htrace
    have hs : s.Accounted w₁.childTrace := htrace ▸ hattempt
    have hnoAttempt : ∀ (success : Bool) (px : DPrice) (reason : String),
        ∀ r ∈ [s.resultTrace child success px reason], WithinSchedulable r := by
      intro success px reason r hr
      rw [List.mem_singleton] at hr
      rw [hr]
      trivial
    simp only
    split
    -- Sent: the volume moves from the schedulable one to the ledger of the child.
    next =>
      obtain ⟨hparent, hplan⟩ := addChild_facts s child volume price
      refine Ensures.bind (Ensures.modify (Ensures.pure
        ⟨⟨?_, hparent.trans h.2⟩, hplan, fun hfalse => Bool.noConfusion hfalse⟩))
      refine (hs.append (hnoAttempt _ _ _)).addChild child hle ?_
      refine ⟨s.attemptTrace volume price active, ?_, fun l hv hp => ⟨hv.symm, hp.symm⟩⟩
      rw [htrace]
      exact List.mem_append_left _ (List.mem_append_right _ List.mem_cons_self)
    -- Not sent: the session fails, and the volume stays where it was.
    next =>
      have hfail : ∀ success, ({ s with failed := true, terminal := true } : Session).Sound parent
          { w₁ with childTrace := w₁.childTrace ++
            [s.resultTrace child success 0 "route_failed"] } :=
        fun success => ⟨(hs.append (hnoAttempt _ _ _)).of_eq rfl rfl, h.2⟩
      exact Ensures.bind (Ensures.modify (Ensures.bind
        ((sound_syncParentView _ now (hfail _)).mono fun _ _ hw =>
          Ensures.pure ⟨hw, rfl, fun _ => rfl⟩)))

theorem sound_tryActive (cfg : Config) (env : Env) (view : Option MarketDataView) (price : DPrice)
    {budget : Volume} (h : s.Sound parent w) (hle : budget ≤ s.schedulableVolume) :
    Ensures (s.tryActive cfg env view price budget) w (SubmitPost parent s) := by
  unfold tryActive
  split
  next => exact submitPost_refused h
  next view =>
    unfold tryActiveSubmit
    split
    · exact submitPost_refused h
    split
    · exact submitPost_refused h
    split
    · exact submitPost_refused h
    have hseen :
        ({ s with lastActivePublishSeqNo := view.publishSeqNo } : Session).Sound parent w :=
      h.of_eq rfl rfl
    simp only
    split
    next => exact Ensures.pure ⟨hseen, rfl, fun _ => rfl⟩
    next hdecision =>
      refine sound_submitChild env.nowNs price true hseen ?_
      show _ ≤ s.schedulableVolume
      rw [Word.le_iff] at hle ⊢
      simp only [not_or, gt_iff_lt, Word.lt_iff] at hdecision
      omega

theorem sound_finishIfIdle (now : TimestampNs) (h : s.Sound parent w) :
    Ensures (s.finishIfIdle now) w fun s' w' => s'.Sound parent w' := by
  rw [finishIfIdle]
  split
  next => exact sound_sync_pure now (h.of_eq rfl rfl)
  split
  next => exact Ensures.pure h
  next => exact sound_sync_pure now h

theorem sound_tickSequential (cfg : Config) (env : Env) (h : s.Sound parent w) :
    Ensures (s.tickSequential cfg env) w fun s' w' => s'.Sound parent w' := by
  rw [tickSequential]
  split
  next => exact sound_sync_pure env.nowNs (h.of_eq rfl rfl)
  split
  next => exact sound_sync_pure env.nowNs h
  split
  next => exact sound_sync_pure env.nowNs (h.of_eq rfl rfl)
  split
  next => exact sound_finishIfIdle env.nowNs h
  split
  next => exact sound_sync_pure env.nowNs h
  next view price hprice =>
    have hbudget := (Word.le_iff _ _).2 s.currentBudgetVolume_le
    refine Ensures.bind ((sound_tryActive cfg env view price h hbudget).mono ?_)
    rintro ⟨active, s₁⟩ w₁ ⟨hsound, -, hledgers⟩
    refine Ensures.bind (Ensures.mono (Q := fun out w' => out.2.Sound parent w') ?_ ?_)
    · split
      next => exact Ensures.pure hsound
      next hactive =>
        have heq := schedulableVolume_congr (hledgers (by simpa using hactive))
          (hsound.2.trans h.2.symm)
        exact (sound_submitChild env.nowNs price false hsound (heq ▸ hbudget)).mono
          fun out w' hout => hout.1
    · rintro ⟨sent, s₂⟩ w₂ hs₂
      exact sound_sync_pure env.nowNs hs₂

theorem sound_endSlice (now : TimestampNs) (h : s.Sound parent w) :
    Ensures (s.endSlice now) w fun s' w' => s'.Sound parent w' := by
  have hadvance : s.advanceSliceIfReady.Sound parent w :=
    h.of_eq s.advanceSliceIfReady_childLedgers s.advanceSliceIfReady_parentRequest
  have hend : ∀ t : Session, t.Sound parent w →
      Ensures (if t.terminal then pure t else do t.syncParentView now; pure t : Service Session) w
        fun s' w' => s'.Sound parent w' := by
    intro t ht
    split
    next => exact Ensures.pure ht
    next => exact sound_sync_pure now ht
  rw [endSlice]
  apply hend
  split
  next => exact hadvance.of_eq rfl rfl
  next => exact hadvance

theorem sliceConsumed_consumeSlice {t : TwapState} (h : s.plan = .twap t) :
    s.consumeSlice.sliceConsumed = true := by
  rw [consumeSlice]
  rw [h]
  rfl

/-- The submissions of a slice: at most one of them succeeds. -/
theorem sound_submitSlice (cfg : Config) (env : Env) (nowNs deadline : TimestampNs)
    {budget : Volume}
    (view : Option MarketDataView) (price : DPrice) {t : TwapState} (htwap : s.plan = .twap t)
    (h : s.Sound parent w) (hle : budget ≤ s.schedulableVolume) :
    Ensures (s.submitSlice cfg env nowNs deadline budget view price) w
      fun s' w' => s'.Sound parent w' := by
  rw [submitSlice]
  refine Ensures.bind (Ensures.mono (Q := fun s₁ w₁ => s₁.Sound parent w₁ ∧
    (s₁.sliceConsumed = false → s₁.childLedgers = s.childLedgers)) ?_ ?_)
  · split
    next => exact Ensures.pure ⟨h, fun _ => rfl⟩
    next =>
      refine Ensures.bind ((sound_tryActive cfg env view price h hle).mono ?_)
      rintro ⟨active, s'⟩ w' ⟨hsound, hplan, hledgers⟩
      refine Ensures.pure ?_
      -- If the active child was not sent, the ledgers are those of before, and so is the
      -- schedulable volume.
      cases active with
      | false => exact ⟨hsound, fun _ => hledgers rfl⟩
      | true =>
          refine ⟨hsound.of_eq s'.consumeSlice_childLedgers s'.consumeSlice_parentRequest, ?_⟩
          intro hfalse
          rw [if_pos rfl, sliceConsumed_consumeSlice (hplan.trans htwap)] at hfalse
          exact Bool.noConfusion hfalse
  · rintro s₁ w₁ ⟨hsound, hledgers⟩
    split
    next hopen =>
      have heq := schedulableVolume_congr (hledgers (by simpa using hopen.1))
        (hsound.2.trans h.2.symm)
      refine Ensures.bind ((sound_submitChild env.nowNs price false hsound (heq ▸ hle)).mono ?_)
      rintro ⟨sent, s'⟩ w' ⟨hs', -, -⟩
      refine Ensures.pure ?_
      cases sent with
      | false => exact hs'
      | true => exact hs'.of_eq s'.consumeSlice_childLedgers s'.consumeSlice_parentRequest
    next => exact Ensures.pure hsound

theorem sound_tickTwap (cfg : Config) (env : Env) (nowNs : TimestampNs) (h : s.Sound parent w) :
    Ensures (s.tickTwap cfg env nowNs) w fun s' w' => s'.Sound parent w' := by
  rw [tickTwap]
  split
  next => exact sound_sync_pure env.nowNs (h.of_eq rfl rfl)
  next =>
    have hadvance : s.advanceSliceIfReady.Sound parent w :=
      h.of_eq s.advanceSliceIfReady_childLedgers s.advanceSliceIfReady_parentRequest
    -- The slice may advance first, which moves no volume.
    generalize s.advanceSliceIfReady = s at hadvance ⊢
    simp only
    split
    next => exact Ensures.pure hadvance
    next t ht =>
      have htwap : s.plan = .twap t := by
        rw [twapState?] at ht
        split at ht
        · exact absurd ht (by simp)
        next hplan => exact hplan.trans (congrArg SessionPlan.twap (Option.some.inj ht))
      split
      next =>
        split
        next => exact sound_sync_pure env.nowNs hadvance
        next => exact sound_sync_pure env.nowNs (hadvance.of_eq rfl rfl)
      split
      next => exact sound_finishIfIdle env.nowNs hadvance
      split
      next => exact sound_endSlice env.nowNs hadvance
      split
      next => exact sound_sync_pure env.nowNs hadvance
      -- A child is tried within the budget of the slice, which the schedulable volume bounds.
      next view price hprice =>
        have hbudget := (Word.le_iff _ _).2 s.currentBudgetVolume_le
        exact Ensures.bind
          ((sound_submitSlice cfg env nowNs _ view price htwap hadvance hbudget).mono
          fun s' w' hs' => sound_endSlice env.nowNs hs')

/-- A tick, whatever the book, the market and the router do, keeps the session sound. -/
theorem sound_tick (cfg : Config) (env : Env) (nowNs : TimestampNs) (h : s.Sound parent w) :
    Ensures (s.tick cfg env nowNs) w fun s' w' => s'.Sound parent w' := by
  obtain ⟨hacc, hparent⟩ := refreshParentState_facts w.book h.1
  have hfresh : (s.refreshParentState w.book).2.Sound parent w := ⟨hacc, hparent.trans h.2⟩
  refine Ensures.bind (Ensures.read ?_)
  generalize s.refreshParentState w.book = refreshed at hfresh ⊢
  cases refreshed with
  | mk found s =>
      simp only
      split
      next =>
        split
        next => exact sound_tickSequential cfg env hfresh
        next => exact sound_tickTwap cfg env nowNs hfresh
      next => exact sound_sync_pure env.nowNs hfresh

/-! ## Runs of a session -/

end Session

/-- A step of a session: a tick in some world, or a response. The world of a tick is arbitrary, so
that anything may have happened to the book, the queues and the pool since the last step. -/
inductive SessionStep where
  | tick (cfg : Config) (env : Env) (nowNs : TimestampNs) (w : World)
  | response (r : TradeResponse)

namespace SessionStep

/-- The session and the records of its submissions after a step. -/
def apply (state : Session × List ChildTrace) : SessionStep → Session × List ChildTrace
  | .tick cfg env nowNs w =>
      let out := (state.1.tick cfg env nowNs).run { w with childTrace := state.2 }
      (out.1, out.2.childTrace)
  | .response r => ((state.1.onTradeResponse r).1, state.2 ++ (state.1.onTradeResponse r).2)

theorem accounted_apply {parent : OrderRequest} {state : Session × List ChildTrace}
    (step : SessionStep) (h : state.1.Accounted state.2 ∧ state.1.parentRequest = parent) :
    (step.apply state).1.Accounted (step.apply state).2 ∧
      (step.apply state).1.parentRequest = parent := by
  cases step with
  | tick cfg env nowNs w =>
      exact Session.sound_tick (w := { w with childTrace := state.2 }) cfg env nowNs h
  | response r =>
      obtain ⟨hacc, hparent⟩ := Session.onTradeResponse_facts r h.1
      exact ⟨hacc, hparent.trans h.2⟩

end SessionStep

namespace Session

/-- A session that has not taken a turn: it has no children, it runs, and its first slice is
open. -/
structure Fresh (request : OrderRequest) (s : Session) : Prop where
  ledgers : s.childLedgers = ∅
  parentRequest : s.parentRequest = request
  failed : s.failed = false
  terminal : s.terminal = false
  sliceOpen : s.sliceConsumed = false
  slicesLeft : s.slicesExhausted = false

theorem fresh_create {c : SplitConfig} {parentIndex : OrderIndex} {parentRequest : OrderRequest}
    {strategyId : StrategyId} {startTimeNs : TimestampNs} {s : Session}
    (h : create c parentIndex parentRequest strategyId startTimeNs = some s) :
    s.Fresh parentRequest := by
  rw [create] at h
  simp only at h
  split at h
  · split at h
    · exact absurd h (by simp)
    · cases h
      exact ⟨rfl, rfl, rfl, rfl, rfl, rfl⟩
  · split at h
    · exact absurd h (by simp)
    · cases h
      exact ⟨rfl, rfl, rfl, rfl, rfl, rfl⟩
  · split at h
    · exact absurd h (by simp)
    -- The one way to fail with slices is a plan without any.
    · obtain ⟨slices, hslices, hs⟩ := Option.map_eq_some_iff.1 h
      have hsome : slices ≠ [] := by
        rw [buildTwapSlicePlan] at hslices
        split at hslices
        · exact absurd hslices (by simp)
        simp only at hslices
        split at hslices
        · exact absurd hslices (by simp)
        split at hslices
        · exact absurd hslices (by simp)
        split at hslices
        · exact absurd hslices (by simp)
        next hempty =>
          rw [← Option.some.inj hslices]
          simpa using hempty
      cases hs
      refine ⟨rfl, rfl, rfl, rfl, rfl, ?_⟩
      simpa [slicesExhausted, twapState?, TwapState.exhausted] using hsome
  · exact absurd h (by simp)
  · exact absurd h (by simp)

theorem accounted_create {c : SplitConfig} {parentIndex : OrderIndex} {parentRequest : OrderRequest}
    {strategyId : StrategyId} {startTimeNs : TimestampNs} {s : Session}
    (h : create c parentIndex parentRequest strategyId startTimeNs = some s) :
    s.Accounted [] ∧ s.parentRequest = parentRequest := by
  have hfresh := fresh_create h
  refine ⟨⟨⟨?_, ?_⟩, ?_, ?_⟩, hfresh.parentRequest⟩
  · intro id l hl
    rw [hfresh.ledgers] at hl
    exact absurd hl (by simp)
  · rw [hfresh.ledgers, Map.total_empty]
    exact Nat.zero_le _
  · intro r hr
    exact absurd hr (by simp)
  · intro id l hl
    rw [hfresh.ledgers] at hl
    exact absurd hl (by simp)

/-- No interleaving of ticks and responses over-commits a session: the known volumes of every child
stay within what it was submitted with, the confirmed, working and schedulable volumes add up to the
target, every submission stayed within what was schedulable at that moment, every child goes back to
such a submission, and the committed volumes stay within the target. -/
theorem never_over_commits (c : SplitConfig) (parentIndex : OrderIndex)
    (parentRequest : OrderRequest) (strategyId : StrategyId) (startTimeNs : TimestampNs)
    (s₀ : Session) (hcreate : create c parentIndex parentRequest strategyId startTimeNs = some s₀)
    (steps : List SessionStep) :
    ∀ state ∈ trace SessionStep.apply (s₀, []) steps,
      (∀ id l, state.1.childLedgers.lookup id = some l →
        l.confirmedTradedVolume.toNat + l.finalCancelledVolume.toNat ≤ l.entrustVolume.toNat) ∧
      state.1.confirmedTradedVolume.toNat + state.1.workingVolume.toNat +
          state.1.schedulableVolume.toNat = parentRequest.volumeEntrust.toNat ∧
      (∀ record ∈ state.2, WithinSchedulable record) ∧
      (∀ id l, state.1.childLedgers.lookup id = some l → ∃ record ∈ state.2, AttemptedBy l record) ∧
      Map.total state.1.childLedgers ChildExecutionLedger.committed ≤
        parentRequest.volumeEntrust.toNat := by
  have hrun := trace_invariant
    (fun state : Session × List ChildTrace =>
      state.1.Accounted state.2 ∧ state.1.parentRequest = parentRequest)
    (fun state step hstate _ => SessionStep.accounted_apply step hstate) (s := (s₀, []))
    (accounted_create hcreate) (stepsMeet_true _ _ steps)
  intro state hstate
  obtain ⟨hacc, hparent⟩ := hrun state hstate
  have htarget : state.1.targetVolume = parentRequest.volumeEntrust := by
    rw [targetVolume, hparent]
  refine ⟨fun id l hl => (hacc.budgeted.consistent id l hl).known_le, ?_, hacc.attempts,
    hacc.attempted, ?_⟩
  · rw [← htarget]
    exact hacc.budgeted.confirmed_working_schedulable
  · rw [← htarget]
    exact hacc.budgeted.within

/-- A parent of 250 shares, in clips of 100. -/
def clippedParent : OrderRequest :=
  { OrderRequest.ofClient 7 .buy 250 10 with passiveExecutionAlgo := .fixedSize }

def clippedConfig : Config :=
  { hasExecutionEngine := true
    splitConfig := { strategy := .fixedSize, maxChildVolume := 100 }
    hasMarketDataService := true
    allowOrderPriceFallback := true }

/-- The service with the parent in its book, before it hands out the id `next`. -/
def clippedWorld (next : InternalOrderId) : World :=
  { World.start {} {} (OrdersShm.ofClients [clippedParent]) with
    book := (OrderBook.empty.addOrder { request := clippedParent } 0).book
    upstreamNextOrderId := some next }

/-- A clip is sent and filled. -/
def clip (childId : InternalOrderId) (volume : Volume) : List SessionStep :=
  [.tick clippedConfig {} 0 (clippedWorld childId),
    .response
      { internalOrderId := childId, tradeSide := .buy, newState := .finished, volumeTraded := volume
        dpriceTraded := 10, dvalueTraded := volume * 10 }]

/-- Three clips, and the tick behind the last one. -/
def threeClips : List SessionStep :=
  clip 1 100 ++ clip 2 100 ++ clip 3 50 ++ [.tick clippedConfig {} 0 (clippedWorld 4)]

/-- Nothing is over-committed while the three clips are sent and filled. -/
theorem never_over_commits_clips :
    ∃ s₀, create clippedConfig.splitConfig 0 clippedParent 1 0 = some s₀ ∧
      (∀ state ∈ trace SessionStep.apply (s₀, []) threeClips,
        state.1.confirmedTradedVolume.toNat + state.1.workingVolume.toNat +
            state.1.schedulableVolume.toNat = 250 ∧
          Map.total state.1.childLedgers ChildExecutionLedger.committed ≤ 250) ∧
      (threeClips.foldl SessionStep.apply (s₀, [])).1.confirmedTradedVolume = 250 := by
  refine ⟨(create clippedConfig.splitConfig 0 clippedParent 1 0).get (by decide),
    (Option.some_get _).symm, fun state hstate => ?_, by decide⟩
  obtain ⟨-, hsum, -, -, hwithin⟩ :=
    never_over_commits _ _ _ _ _ _ (Option.some_get _).symm threeClips state hstate
  exact ⟨hsum, hwithin⟩

end Session

end AccountServices
