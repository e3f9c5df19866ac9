import Mathlib.Algebra.Order.Group.Nat
import AccountServices.Logging.AsyncLogger
import AccountServices.Logging.LogLaps

/-!
# What the logger counts as lost

All records of a format have one size. Between two drains the logger counts as dropped each record
beyond the number that the ring has room for. The reader decodes what lies in front of the writer's
position, which is the last lap only: nothing of a lap that ends where the ring ends, and one record
right after a wrap. The two agree as long as the ring is not filled; from there on only when the
records leave a rest of the ring unused and the last lap is complete.
-/

set_option autoImplicit false

namespace AccountServices

open Foundation

/-! ## Laps of records of one size -/

/-- The records of the last lap, of `n` records that take `unit` of a ring of size `cap`. -/
def lapCount (cap unit n : Nat) : Nat :=
  if unit ∣ cap then n % (cap / unit) else if n = 0 then 0 else (n - 1) % (cap / unit) + 1

section

variable {cap unit n : Nat}

theorem lapCount_of_dvd (hdvd : unit ∣ cap) (n : Nat) :
    lapCount cap unit n = n % (cap / unit) := if_pos hdvd

theorem lapCount_zero (cap unit : Nat) : lapCount cap unit 0 = 0 := by
  rw [lapCount, Nat.zero_mod, if_pos rfl, ite_self]

theorem lapCount_of_rest (hdvd : ¬ unit ∣ cap) (n : Nat) :
    lapCount cap unit (n + 1) = n % (cap / unit) + 1 := by
  rw [lapCount, if_neg hdvd, if_neg (Nat.succ_ne_zero n), Nat.add_sub_cancel]

/-- Counting round and round. -/
theorem succ_mod_cases {k : Nat} (hk : 0 < k) (n : Nat) :
    (n + 1) % k = if n % k + 1 = k then 0 else n % k + 1 := by
  have hlt := Nat.mod_lt n hk
  have hsum : (n + 1) % k = (n % k + 1) % k := (Nat.mod_add_mod n k 1).symm
  split
  next hlast => rw [hsum, hlast, Nat.mod_self]
  next hinside => rw [hsum, Nat.mod_eq_of_lt (by omega)]

/-- Whether one more record fits. -/
theorem fits_iff (cap : Nat) (hunit : 0 < unit) (k : Nat) :
    k * unit + unit ≤ cap ↔ k < cap / unit := by
  rw [← Nat.succ_le_iff, Nat.le_div_iff_mul_le hunit, Nat.succ_mul]

/-- Whether it ends where the ring ends. -/
theorem exact_iff (cap : Nat) (hunit : 0 < unit) (k : Nat) :
    k * unit + unit = cap ↔ unit ∣ cap ∧ k + 1 = cap / unit := by
  rw [← Nat.succ_mul]
  constructor
  · rintro rfl
    exact ⟨Nat.dvd_mul_left _ _, (Nat.mul_div_cancel _ hunit).symm⟩
  · rintro ⟨hdvd, hk⟩
    rw [Nat.succ_eq_add_one, hk, Nat.div_mul_cancel hdvd]

/-- One more record continues the lap or starts one. -/
theorem lapCount_succ (hunit : 0 < unit) (hle : unit ≤ cap) (n : Nat) :
    lapCount cap unit (n + 1) =
      if lapCount cap unit n * unit + unit > cap then 1
      else if lapCount cap unit n * unit + unit = cap then 0
      else lapCount cap unit n + 1 := by
  have hpos := Nat.div_pos hle hunit
  have hfits := fits_iff cap hunit (lapCount cap unit n)
  have hexact := exact_iff cap hunit (lapCount cap unit n)
  by_cases hdvd : unit ∣ cap
  · -- The ring is filled to its last byte: there is room until the writer is back at the start.
    have hcount := lapCount_of_dvd hdvd n
    have hlt := Nat.mod_lt n hpos
    rw [if_neg (Nat.not_lt.mpr (hfits.mpr (hcount ▸ hlt))), lapCount_of_dvd hdvd,
      succ_mod_cases hpos, ← hcount]
    simp only [hexact, hdvd, true_and]
  · rw [lapCount_of_rest hdvd]
    cases n with
    | zero =>
        rw [lapCount_zero] at hfits hexact ⊢
        rw [if_neg (Nat.not_lt.mpr (hfits.mpr hpos)), if_neg (fun h => hdvd (hexact.mp h).1),
          Nat.zero_mod]
    | succ n =>
        have hcount := lapCount_of_rest hdvd n
        have hlt := Nat.mod_lt n hpos
        rw [if_neg (c := _ = cap) (fun h => hdvd (hexact.mp h).1), succ_mod_cases hpos, hcount]
        rw [hcount] at hfits
        by_cases hlast : n % (cap / unit) + 1 = cap / unit
        · rw [if_pos hlast, if_pos (by omega)]
        · rw [if_neg hlast, if_neg (by omega)]

/-- The last lap is all of the records that the ring has room for. -/
theorem lapCount_eq_iff (hunit : 0 < unit) (hle : unit ≤ cap) (n : Nat) :
    lapCount cap unit n = min n (cap / unit) ↔
      n * unit < cap ∨ ¬ unit ∣ cap ∧ cap / unit ∣ n := by
  have hpos := Nat.div_pos hle hunit
  by_cases hdvd : unit ∣ cap
  · -- A full lap ends where the ring ends and is an empty one: the count is right in the first
    -- lap only.
    have hlt := Nat.mod_lt n hpos
    have hroom : n * unit < cap ↔ n < cap / unit := by
      rw [Nat.mul_comm]
      exact (Nat.lt_div_iff_mul_lt' hdvd n).symm
    rw [lapCount_of_dvd hdvd, hroom]
    constructor
    · intro h
      exact Or.inl (by omega)
    · rintro (h | h)
      · rw [Nat.mod_eq_of_lt h, Nat.min_eq_left (Nat.le_of_lt h)]
      · exact absurd hdvd h.1
  · cases n with
    | zero =>
        rw [lapCount_zero, Nat.zero_min, Nat.zero_mul]
        exact ⟨fun _ => Or.inl (Nat.lt_of_lt_of_le hunit hle), fun _ => rfl⟩
    | succ n =>
        -- A rest of the ring stays unused, and a full lap is still there at its last record.
        have hne : (n + 1) * unit ≠ cap := fun h => hdvd (h ▸ Nat.dvd_mul_left _ _)
        have hroom : (n + 1) * unit < cap ↔ n + 1 ≤ cap / unit := by
          rw [Nat.le_div_iff_mul_le hunit]
          omega
        have hround := succ_mod_cases hpos n
        have hlt := Nat.mod_lt n hpos
        have hdvd_succ : cap / unit ∣ n + 1 ↔ (n + 1) % (cap / unit) = 0 := Nat.dvd_iff_mod_eq_zero
        rw [lapCount_of_rest hdvd, hroom, hdvd_succ]
        by_cases hfew : n + 1 ≤ cap / unit
        · rw [Nat.mod_eq_of_lt hfew, Nat.min_eq_left hfew]
          exact ⟨fun _ => Or.inl hfew, fun _ => rfl⟩
        · rw [Nat.min_eq_right (by omega)]
          constructor
          · intro hlast
            rw [if_pos hlast] at hround
            exact Or.inr ⟨hdvd, hround⟩
          · rintro (hcontra | ⟨-, hzero⟩)
            · exact absurd hcontra hfew
            · by_contra hinside
              rw [if_neg hinside] at hround
              omega

/-- A reader that finds the last lap agrees with a writer that takes the records beyond the ring's
room for lost. -/
theorem accounts_iff (hunit : 0 < unit) (hle : unit ≤ cap) (n : Nat) :
    lapCount cap unit n + (n - cap / unit) = n ↔ n * unit < cap ∨ ¬ unit ∣ cap ∧
      cap / unit ∣ n := by
  rw [← lapCount_eq_iff hunit hle]
  omega

end

/-! ## The two classes of payloads -/

namespace RecordFormat

variable (f : RecordFormat)

/-- What one record takes of its ring: a slot, or its bytes. -/
def unit : Nat :=
  if f.recordLogPayloadSize ≤ kLogMaxPayload then 1
  else kVarHeaderSize + f.recordLogPayloadSize

/-- The size of the ring that the records go to. -/
def capacity : Nat :=
  if f.recordLogPayloadSize ≤ kLogMaxPayload then kBufferCapacity else kBufferVarSize

theorem unit_pos : 0 < f.unit := by
  rw [unit]
  split
  next => exact Nat.one_pos
  next => exact Nat.lt_of_lt_of_le (by decide) (Nat.le_add_right kVarHeaderSize _)

theorem unit_le_capacity : f.unit ≤ f.capacity := by
  have hfits := f.fits
  rw [unit, capacity]
  rw [kLogMaxVarPayload] at hfits
  split
  next => decide
  next =>
    rw [kVarHeaderSize, kBufferVarSize]
    omega

end RecordFormat

/-- The slots that a walk over the ring of slots meets. -/
theorem length_readSlots (buffer : Nat → LogEntry) {writeIndex fuel i : Nat} (hle : i ≤ writeIndex)
    (hlt : writeIndex < kBufferCapacity) (hfuel : writeIndex - i ≤ fuel) :
    (readSlots buffer writeIndex fuel i).length = writeIndex - i := by
  induction fuel generalizing i with
  | zero => rw [Nat.le_zero.mp hfuel, readSlots, List.length_nil]
  | succ fuel ih =>
      rw [readSlots]
      split
      next heq => rw [heq, Nat.sub_self, List.length_nil]
      next hne =>
        rw [Nat.mod_eq_of_lt (a := i + 1) (by omega), List.length_cons, ih (by omega) (by omega)]
        omega

/-- A reader decodes the slots in front of the writer's position and the last lap of the byte
ring. -/
theorem ShmLogger.Ring.run_count {l : ShmLogger} {lap : List LogVarEntry} (h : l.Ring lap) :
    (LogReader.run l.shm).count = l.writer.writeIndex + lap.length := by
  have hlt := h.index_lt
  rw [← h.published] at hlt
  rw [LogRead.count, LogReader.run, h.readVariable_zero, varFormat.length_placed,
    length_readSlots _ (Nat.zero_le _) hlt (by omega), Nat.sub_zero, h.published]

namespace AsyncLogger

variable {f : RecordFormat} {a : AsyncLogger} {d n : Nat} {lap : List LogVarEntry}

/-- The logger after `n` records in slots; `d` were dropped before. -/
structure CountedSlots (f : RecordFormat) (d n : Nat) (a : AsyncLogger) : Prop where
  ring : a.logger.Ring []
  decoded : a.logger.writer.writeIndex = lapCount f.capacity f.unit n
  pending : a.pendingFixedEntries = n
  dropped : a.dropped = d + (n - f.capacity / f.unit)

/-- The logger after `n` records in the byte ring; `d` were dropped before. -/
structure CountedBytes (f : RecordFormat) (d n : Nat) (a : AsyncLogger) (lap : List LogVarEntry) :
    Prop where
  ring : a.logger.Ring lap
  sizes : ∀ e ∈ lap, e.size = f.unit
  idle : a.logger.writer.writeIndex = 0
  decoded : lap.length = lapCount f.capacity f.unit n
  pending : a.pendingVariableBytes = n * f.unit
  dropped : a.dropped = d + (n - f.capacity / f.unit)

/-- The entries of a lap of one size. -/
theorem total_of_sizes {unit : Nat} (h : ∀ e ∈ lap, e.size = unit) :
    varFormat.total lap = lap.length * unit := by
  induction lap with
  | nil => rw [varFormat.total_nil, List.length_nil, Nat.zero_mul]
  | cons e lap ih =>
      rw [varFormat.total_cons, ih fun e' he' => h e' (List.mem_cons_of_mem e he'),
        List.length_cons, Nat.succ_mul, Nat.add_comm]
      exact congrArg _ (h e List.mem_cons_self)

/-- One more record is beyond the room of the ring. -/
theorem dropped_succ (d n cap : Nat) {unit : Nat} (hunit : 0 < unit) :
    (if (n + 1) * unit > cap then d + (n - cap / unit) + 1 else d + (n - cap / unit)) =
      d + (n + 1 - cap / unit) := by
  have hroom : (n + 1) * unit ≤ cap ↔ n + 1 ≤ cap / unit := (Nat.le_div_iff_mul_le hunit).symm
  split
  next hbeyond => omega
  next hwithin => omega

/-- What a write does when the rings take the record. -/
theorem writeRecordLocked_of {l : ShmLogger} {ts : UInt64} {record : LogRecord}
    (h : logWriteFmt a.logger record.level ts
      (projectLogModuleFromName record.module.view) f.recordLogId
      (f.pack record) ((f.length_pack record).symm ▸ f.fits) = (true, l)) :
    a.writeRecordLocked f ts record =
      (true, ({ a with logger := l }).accountPendingPayload f.recordLogPayloadSize) := by
  rw [writeRecordLocked, h]
  rfl

/-- A record that fits a slot. -/
theorem CountedSlots.write (h : CountedSlots f d n a)
    (hshort : f.recordLogPayloadSize ≤ kLogMaxPayload) (ts : UInt64) (record : LogRecord) :
    (a.writeRecordLocked f ts record).1 = true ∧
      CountedSlots f d (n + 1) (a.writeRecordLocked f ts record).2 := by
  have hunit : f.unit = 1 := if_pos hshort
  have hcap : f.capacity = kBufferCapacity := if_pos hshort
  have hfmt : logWriteFmt a.logger record.level ts
      (projectLogModuleFromName record.module.view) f.recordLogId
      (f.pack record) ((f.length_pack record).symm ▸ f.fits) =
        (true, a.logger.slotted (formatEntry record.level ts
        (projectLogModuleFromName record.module.view) f.recordLogId (f.pack record))) := by
    rw [logWriteFmt, if_pos (f.length_pack record ▸ hshort), h.ring.tryPush]
  have hdropped := dropped_succ d n f.capacity f.unit_pos
  rw [writeRecordLocked_of hfmt, accountPendingPayload, if_pos hshort]
  refine ⟨rfl, ?_⟩
  exact {
    ring := h.ring.slotted _
    decoded := by
      have hcount := h.decoded
      rw [hcap, hunit, lapCount_of_dvd (Nat.one_dvd _), Nat.div_one] at hcount ⊢
      rw [ShmLogger.slotted, hcount, Nat.mod_add_mod]
    pending := congrArg (· + 1) h.pending
    dropped := by
      rw [← hdropped, hcap, hunit, Nat.mul_one, h.pending, h.dropped, hcap, hunit] }

/-- A record for the byte ring. -/
theorem CountedBytes.write (h : CountedBytes f d n a lap)
    (hlong : ¬ f.recordLogPayloadSize ≤ kLogMaxPayload) (ts : UInt64) (record : LogRecord) :
    (a.writeRecordLocked f ts record).1 = true ∧
      ∃ lap', CountedBytes f d (n + 1) (a.writeRecordLocked f ts record).2 lap' := by
  have hunit : f.unit = kVarHeaderSize + f.recordLogPayloadSize := if_neg hlong
  have hcap : f.capacity = kBufferVarSize := if_neg hlong
  -- The record goes into the byte ring, which has taken it with the size of the format.
  obtain ⟨e, hfmt, hsize⟩ : ∃ e, logWriteFmt a.logger record.level ts
      (projectLogModuleFromName record.module.view) f.recordLogId (f.pack record)
      ((f.length_pack record).symm ▸ f.fits) = (true, a.logger.wrote e) ∧ e.size = f.unit := by
    refine ⟨formatVarEntry record.level ts
      (projectLogModuleFromName record.module.view) f.recordLogId
      (f.pack record) ((f.length_pack record).symm ▸ f.fits), ?_, ?_⟩
    · rw [logWriteFmt, if_neg (f.length_pack record ▸ hlong), h.ring.tryPushVariable]
    · rw [LogVarEntry.size, formatVarEntry, f.length_pack, hunit]
  have hdropped := dropped_succ d n f.capacity f.unit_pos
  have hcount := lapCount_succ f.unit_pos f.unit_le_capacity n
  rw [writeRecordLocked_of hfmt, accountPendingPayload, if_neg hlong]
  refine ⟨rfl, lapAfter lap e, ?_⟩
  exact {
    ring := h.ring.wrote e
    -- all records of a lap have the size of the format
    sizes := by
      intro e' he'
      rw [lapAfter] at he'
      split at he'
      next => rw [List.mem_singleton.mp he', hsize]
      next =>
        split at he'
        next => exact absurd he' List.not_mem_nil
        next =>
          rcases List.mem_append.mp he' with hold | hnew
          · exact h.sizes e' hold
          · rw [List.mem_singleton.mp hnew, hsize]
    idle := h.idle
    -- a lap that ends starts the count again
    decoded := by
      rw [hcount, lapAfter, total_of_sizes h.sizes, h.decoded, hsize, hcap]
      split
      next => rfl
      next =>
        split
        next => rfl
        next => rw [List.length_append, List.length_singleton, h.decoded, hcap]
    -- what is pending grows with the record
    pending := by
      rw [Nat.succ_mul, ← h.pending, hunit]
    dropped := by
      rw [← hdropped, hcap, Nat.succ_mul, ← h.pending, h.dropped, hcap, hunit] }

/-! ## From one drain to the next -/

theorem accountPendingPayload_settings (a : AsyncLogger) (payloadSize : Nat) :
    (a.accountPendingPayload payloadSize).asyncEnabled = a.asyncEnabled ∧
      (a.accountPendingPayload payloadSize).minLevel = a.minLevel := by
  rw [accountPendingPayload]
  split
  next => exact ⟨rfl, rfl⟩
  next => exact ⟨rfl, rfl⟩

theorem writeRecordLocked_settings (f : RecordFormat) (a : AsyncLogger) (ts : UInt64)
    (record : LogRecord) : (a.writeRecordLocked f ts record).2.asyncEnabled = a.asyncEnabled ∧
      (a.writeRecordLocked f ts record).2.minLevel = a.minLevel := by
  rw [writeRecordLocked]
  simp only
  split
  next => exact accountPendingPayload_settings _ _
  next => exact ⟨rfl, rfl⟩

/-- What each write carries on to one more record holds after all of them, counted by the records
that are written. -/
theorem logAll_induct {P : Nat → AsyncLogger → Prop}
    (hwrite : ∀ n a ts record, P n a →
      (a.writeRecordLocked f ts record).1 = true ∧ P (n + 1) (a.writeRecordLocked f ts record).2)
    (hasync : a.asyncEnabled = true) (h : P n a) (records : List (UInt64 × LogRecord)) :
    P (n + (a.written records).length) (a.logAll f records) := by
  induction records generalizing n a with
  | nil => exact h
  | cons entry records ih =>
      have hsettings := writeRecordLocked_settings f a entry.1 entry.2
      obtain ⟨hok, hnext⟩ := hwrite n a entry.1 entry.2 h
      rw [logAll, List.foldl_cons, ← logAll]
      by_cases hlevel : entry.2.level.toNat < a.minLevel.toNat
      · rw [log, if_pos hlevel, written, List.filter_cons_of_neg (by simpa using hlevel), ← written]
        exact ih hasync h
      · have hstep : (a.log f entry.1 entry.2).2 = (a.writeRecordLocked f entry.1 entry.2).2 := by
          rw [log, if_neg hlevel]
          simp only [hok, hsettings.1, hasync, Bool.not_true, Bool.false_eq_true, if_false]
        have hwritten : a.written (entry :: records) =
            entry :: (a.writeRecordLocked f entry.1 entry.2).2.written records := by
          rw [written, List.filter_cons_of_pos (by simpa using hlevel), written, hsettings.2]
        have hrest := ih (hsettings.1.trans hasync) hnext
        rw [hstep, hwritten, List.length_cons, Nat.add_comm _ 1, ← Nat.add_assoc]
        exact hrest

/-- The logger after a drain and the records that follow it. -/
def sinceDrain (f : RecordFormat) (a : AsyncLogger) (records : List (UInt64 × LogRecord)) :
    AsyncLogger :=
  a.drainLocked.2.logAll f records

/-- A drain decodes what the last lap has, and the records beyond the room of the ring were counted
as dropped. -/
theorem counts_after (f : RecordFormat) (hasync : a.asyncEnabled = true)
    (records : List (UInt64 × LogRecord)) :
    (a.sinceDrain f records).drainLocked.1.count = lapCount f.capacity f.unit
      (a.written records).length ∧
      (a.sinceDrain f records).dropped = a.dropped +
        ((a.written records).length - f.capacity / f.unit) := by
  have hzero : a.dropped = a.dropped + (0 - f.capacity / f.unit) := by
    rw [Nat.zero_sub, Nat.add_zero]
  -- Short records go into the slots, long ones into the byte ring; either way a record adds to the
  -- lap, to what is pending and to what is dropped.
  by_cases hshort : f.recordLogPayloadSize ≤ kLogMaxPayload
  · have hstart : CountedSlots f a.dropped 0 a.drainLocked.2 := {
      ring := ShmLogger.ring_init
      decoded := (lapCount_zero _ _).symm
      pending := rfl
      dropped := hzero }
    have hend := logAll_induct (P := CountedSlots f a.dropped)
      (fun n a ts record h => CountedSlots.write h hshort ts record)
        (a := a.drainLocked.2) hasync hstart records
    rw [Nat.zero_add] at hend
    exact ⟨hend.ring.run_count.trans hend.decoded, hend.dropped⟩
  · have hstart : ∃ lap, CountedBytes f a.dropped 0 a.drainLocked.2 lap := ⟨[], {
      ring := ShmLogger.ring_init
      sizes := fun e he => absurd he List.not_mem_nil
      idle := rfl
      decoded := (lapCount_zero _ _).symm
      pending := (Nat.zero_mul _).symm
      dropped := hzero }⟩
    have hend := logAll_induct (P := fun n b => ∃ lap, CountedBytes f a.dropped n b lap)
      (fun n a ts record ⟨_, h⟩ => CountedBytes.write h hshort ts record)
        (a := a.drainLocked.2) hasync hstart records
    rw [Nat.zero_add] at hend
    obtain ⟨lap, hlap⟩ := hend
    have hcount := hlap.ring.run_count
    rw [hlap.idle, Nat.zero_add, hlap.decoded] at hcount
    exact ⟨hcount, hlap.dropped⟩

/-- The records of a level that is written are all written. -/
theorem written_replicate (a : AsyncLogger) (n : Nat) (entry : UInt64 × LogRecord)
    (h : a.minLevel.toNat ≤ entry.2.level.toNat) :
    (a.written (List.replicate n entry)).length = n := by
  rw [written, List.filter_replicate_of_pos (by simpa using h), List.length_replicate]

/-- What a new logger accounts for, of a number of equal records. -/
theorem accounted_replicate (f : RecordFormat) (n : Nat) :
    (({} : AsyncLogger).sinceDrain f (List.replicate n (0, {}))).drainLocked.1.count +
        ((({} : AsyncLogger).sinceDrain f (List.replicate n (0, {}))).dropped -
          ({} : AsyncLogger).dropped) =
      lapCount f.capacity f.unit n + (n - f.capacity / f.unit) := by
  obtain ⟨hcount, hdropped⟩ := counts_after (a := {}) f rfl (List.replicate n (0, {}))
  rw [hcount, hdropped, written_replicate _ n _ (Nat.le_refl _), Nat.add_sub_cancel_left]

end AsyncLogger

/-- Between two drains the entries that the second one decodes and those that were counted as
dropped are the records written if and only if the records leave room in the ring, or the room does
not divide into records and the last lap is complete. -/
theorem drain_accounts_iff (f : RecordFormat) (a : AsyncLogger) (hasync : a.asyncEnabled = true)
    (records : List (UInt64 × LogRecord)) :
    (a.sinceDrain f records).drainLocked.1.count + ((a.sinceDrain f records).dropped - a.dropped) =
        (a.written records).length ↔
      (a.written records).length * f.unit < f.capacity ∨
        ¬ f.unit ∣ f.capacity ∧ f.capacity / f.unit ∣ (a.written records).length := by
  obtain ⟨hcount, hdropped⟩ := AsyncLogger.counts_after f hasync records
  rw [hcount, hdropped, Nat.add_sub_cancel_left]
  exact accounts_iff f.unit_pos f.unit_le_capacity _

/-- Of two complete laps of 574 records, the one that was overwritten is counted as dropped. -/
theorem drain_accounts_two_laps :
    (({} : AsyncLogger).sinceDrain projectLogFormat
        (List.replicate 1148 (0, {}))).drainLocked.1.count +
        ((({} : AsyncLogger).sinceDrain projectLogFormat (List.replicate 1148 (0, {}))).dropped -
          ({} : AsyncLogger).dropped) =
      (({} : AsyncLogger).written (List.replicate 1148 (0, {}))).length :=
  (drain_accounts_iff projectLogFormat {} rfl (List.replicate 1148 (0, {}))).mpr (by
    rw [AsyncLogger.written_replicate _ _ _ (Nat.le_refl _)]
    decide)

/-- A record more than the ring has room for: a lap of 574 records, and one in the next. -/
theorem drain_accounts_wrapped :
    (({} : AsyncLogger).written (List.replicate 575 (0, {}))).length = 575 ∧
      (({} : AsyncLogger).sinceDrain projectLogFormat
        (List.replicate 575 (0, {}))).drainLocked.1.count +
        ((({} : AsyncLogger).sinceDrain projectLogFormat (List.replicate 575 (0, {}))).dropped -
          ({} : AsyncLogger).dropped) = 2 :=
  ⟨AsyncLogger.written_replicate {} 575 (0, {}) (Nat.le_refl _),
    (AsyncLogger.accounted_replicate projectLogFormat 575).trans (by decide)⟩

end AccountServices
