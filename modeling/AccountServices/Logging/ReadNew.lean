import Mathlib.Data.List.Induction
import AccountServices.Logging.LogLaps

/-!
# Reading while the rings are written

A writer and a reader take turns in any order. Each turn of the reader decodes what was written
since its last one, unless the writer came to the end of the byte ring in between: the reader starts
over then, and misses the entries that were written before the end. It misses nothing when the first
entry was already too long for the rest of the ring.
-/

set_option autoImplicit false

namespace AccountServices

open Foundation

/-! ## Runs -/

/-- Entries of both rings, those of `a` first. -/
def LogRead.append (a b : LogRead) : LogRead := ⟨a.fixed ++ b.fixed, a.ofVar ++ b.ofVar⟩

instance : Append LogRead := ⟨LogRead.append⟩

/-- No entries. -/
def LogRead.none : LogRead := ⟨[], []⟩

/-- A call of the writer or of the reader. -/
inductive LogStep where
  | tryPush (e : LogEntry)
  | tryPushVariable (e : LogVarEntry)
  | tryPushVariableStr (tsTsc : UInt64) (level moduleId : UInt8) (str : Bytes)
      (short : str.length + 1 < 256 ^ 2)
  | readNew

/-- A logger and its reader, with the entries that were written, those of them that were written
since the last read, and the entries that were decoded; an entry of the byte ring comes with its
position. -/
structure LogRun where
  logger : ShmLogger := .init
  reader : LogReader := {}
  wrote : LogRead := .none
  fresh : LogRead := .none
  read : LogRead := .none

namespace LogRun

/-- After a push with its result: an entry counts as written if the push took it. -/
def pushed (s : LogRun) (result : Bool × ShmLogger) (entry : LogRead) : LogRun :=
  if result.1 then
    { s with logger := result.2, wrote := s.wrote ++ entry, fresh := s.fresh ++ entry }
  else { s with logger := result.2 }

/-- One call. -/
def step (s : LogRun) : LogStep → LogRun
  | .tryPush e => s.pushed (s.logger.tryPush e) ⟨[e], []⟩
  | .tryPushVariable e =>
      s.pushed (s.logger.tryPushVariable e) ⟨[], [(varStart s.logger.writer.writeIndexVar e, e)]⟩
  | .tryPushVariableStr tsTsc level moduleId str short =>
      let e := ShmLogger.stringEntry tsTsc level moduleId str short
      s.pushed (s.logger.tryPushVariableStr tsTsc level moduleId str short)
        ⟨[], [(varStart s.logger.writer.writeIndexVar e, e)]⟩
  | .readNew =>
      let result := s.reader.readNew s.logger.shm
      { s with reader := result.2, read := s.read ++ result.1, fresh := .none }

/-- The calls one after another, on a new logger with a new reader. -/
def run (steps : List LogStep) : LogRun := steps.foldl step {}

theorem run_concat (steps : List LogStep) (op : LogStep) :
    run (steps ++ [op]) = (run steps).step op := by
  rw [run, List.foldl_append, List.foldl_cons, List.foldl_nil, ← run]

/-- The entries of the byte ring that were written since the last read. -/
def freshVar (s : LogRun) : List LogVarEntry := s.fresh.ofVar.map Prod.snd

/-- Fewer entries than there are slots, and less than half of the bytes, since the last read. -/
def Paced (s : LogRun) : Prop :=
  s.fresh.fixed.length < kBufferCapacity ∧ 2 * varFormat.total s.freshVar < kBufferVarSize

/-- All that was written was decoded, once and in the order of writing and at its position, except
for what was written since the last read. -/
def Lossless (s : LogRun) : Prop := s.wrote = s.read ++ s.fresh

/-- What was written since the last read does not reach the end of the byte ring, or it starts with
an entry that is too long for the rest of it. -/
def InOneLap (s : LogRun) : Prop :=
  s.reader.lastReadIndexVar + varFormat.total s.freshVar < kBufferVarSize ∨
    ∃ e ∈ s.freshVar.head?, s.reader.lastReadIndexVar + e.size > kBufferVarSize

/-! ## Slots -/

/-- Walking over `c` slots from one position of the ring of slots. -/
theorem readSlots_walk (buffer : Nat → LogEntry) {r c fuel : Nat} (hr : r < kBufferCapacity)
    (hc : c < kBufferCapacity) (hfuel : c ≤ fuel) :
    readSlots buffer ((r + c) % kBufferCapacity) fuel r =
      (List.range c).map fun j => buffer ((r + j) % kBufferCapacity) := by
  induction c generalizing r fuel with
  | zero =>
      rw [Nat.add_zero, Nat.mod_eq_of_lt hr]
      cases fuel with
      | zero => rfl
      | succ fuel => rw [readSlots, if_pos rfl, List.range_zero, List.map_nil]
  | succ c ih =>
      cases fuel with
      | zero => exact absurd hfuel (Nat.not_succ_le_zero c)
      | succ fuel =>
          have hne : r ≠ (r + (c + 1)) % kBufferCapacity := by
            rw [kBufferCapacity] at hr hc ⊢
            omega
          have hnext : (r + (c + 1)) % kBufferCapacity =
              ((r + 1) % kBufferCapacity + c) % kBufferCapacity := by
            rw [Nat.mod_add_mod, Nat.add_assoc, Nat.add_comm 1 c]
          rw [readSlots, if_neg hne, hnext, ih (Nat.mod_lt _ (by decide)) (Nat.lt_of_succ_lt hc)
            (Nat.le_of_succ_le_succ hfuel), List.range_succ_eq_map, List.map_cons, List.map_map]
          simp only [Nat.add_zero, Nat.mod_eq_of_lt hr]
          congr 1
          refine List.map_congr_left fun j _ => ?_
          rw [Function.comp_apply, Nat.mod_add_mod, Nat.succ_eq_add_one,
            Nat.add_assoc, Nat.add_comm 1 j]

/-- The slots that the reader decodes are those from its last position to the writer's. -/
theorem newSlots_eq (r : LogReader) (shm : LogShm) {c : Nat}
    (hr : r.lastReadIndex < kBufferCapacity)
    (hc : c < kBufferCapacity) (hw : shm.writeIndex = (r.lastReadIndex + c) % kBufferCapacity) :
    r.newSlots shm = (List.range c).map fun j =>
      shm.buffer ((r.lastReadIndex + j) % kBufferCapacity) := by
  rw [LogReader.newSlots]
  split
  next hwrapped =>
    -- The part up to the end of the ring, then the part from its start.
    have hw' : shm.writeIndex = r.lastReadIndex + c - kBufferCapacity := by
      rw [kBufferCapacity] at *
      omega
    have hc' : c = (kBufferCapacity - r.lastReadIndex) + shm.writeIndex := by
      rw [kBufferCapacity] at *
      omega
    rw [List.range'_eq_map_range, List.map_map]
    conv_rhs => rw [hc', List.range_add, List.map_append, List.map_map]
    congr 1
    · refine List.map_congr_left fun j hj => ?_
      rw [List.mem_range] at hj
      rw [Function.comp_apply, Nat.mod_eq_of_lt (by omega)]
    · refine List.map_congr_left fun j hj => ?_
      rw [List.mem_range] at hj
      have hround : r.lastReadIndex + (kBufferCapacity - r.lastReadIndex + j) =
          kBufferCapacity + j := by omega
      rw [Function.comp_apply, hround, Nat.add_mod_left, Nat.mod_eq_of_lt (by omega)]
  next => rw [hw, readSlots_walk _ hr hc (Nat.le_of_lt hc)]

/-! ## What the reader's positions say -/

/-- Since the last read the writer went on with its lap. -/
def GoesOn (s : LogRun) (lap : List LogVarEntry) : Prop :=
  ∃ before after, lap = before ++ after ∧ varFormat.total before = s.reader.lastReadIndexVar ∧
    s.fresh.ofVar = varFormat.placed s.reader.lastReadIndexVar after

/-- Since the last read the writer came to the end of the ring, after the entries `old`. -/
def StartedOver (s : LogRun) (lap : List LogVarEntry) : Prop :=
  ∃ old, s.fresh.ofVar = old ++ varFormat.placed 0 lap ∧
    kBufferVarSize ≤ s.reader.lastReadIndexVar + varFormat.total s.freshVar ∧
    (old = [] ↔ ∃ e ∈ s.freshVar.head?, s.reader.lastReadIndexVar + e.size > kBufferVarSize)

/-- The rings, and where the last read stopped in them. -/
structure Sync (s : LogRun) (lap : List LogVarEntry) : Prop where
  ring : s.logger.Ring lap
  last_lt : s.reader.lastReadIndex < kBufferCapacity
  index : s.logger.writer.writeIndex = (s.reader.lastReadIndex + s.fresh.fixed.length) %
    kBufferCapacity
  slots : s.fresh.fixed = (List.range s.fresh.fixed.length).map fun j =>
    s.logger.shm.buffer ((s.reader.lastReadIndex + j) % kBufferCapacity)
  lastVar_lt : s.reader.lastReadIndexVar < kBufferVarSize
  window : s.GoesOn lap ∨ s.StartedOver lap

theorem sync_init : Sync {} [] where
  ring := ShmLogger.ring_init
  last_lt := by decide
  index := rfl
  slots := rfl
  lastVar_lt := by decide
  window := Or.inl ⟨[], [], rfl, rfl, rfl⟩

section

variable {s : LogRun} {lap : List LogVarEntry}

/-- After the writer has gone on, its position is behind what it wrote. -/
theorem GoesOn.total_eq (h : s.GoesOn lap) :
    varFormat.total lap = s.reader.lastReadIndexVar + varFormat.total s.freshVar := by
  obtain ⟨before, after, rfl, hbefore, hfresh⟩ := h
  rw [freshVar, hfresh, varFormat.map_snd_placed, varFormat.total_append, hbefore]

/-- The first entry since the last read fits, if the writer has gone on with any. -/
theorem GoesOn.first_fits (h : s.GoesOn lap) (hlt : varFormat.total lap < kBufferVarSize) :
    ¬ ∃ e ∈ s.freshVar.head?, s.reader.lastReadIndexVar + e.size > kBufferVarSize := by
  rintro ⟨e, he, hlong⟩
  have htotal := h.total_eq
  cases hfresh : s.freshVar with
  | nil =>
      rw [hfresh] at he
      exact absurd he (by simp)
  | cons x xs =>
      rw [hfresh, List.head?_cons, Option.mem_some_iff] at he
      rw [hfresh, varFormat.total_cons, he] at htotal
      have hsize : varFormat.size e = e.size := rfl
      omega

/-! ## Pushes -/

/-- The run with an entry in a slot. -/
theorem Sync.step_tryPush (h : s.Sync lap) (e : LogEntry) :
    s.step (.tryPush e) =
      { s with
        logger := s.logger.slotted e
        wrote := s.wrote ++ ⟨[e], []⟩
        fresh := s.fresh ++ ⟨[e], []⟩ } := by
  rw [step, h.ring.tryPush]
  rfl

/-- The run with an entry in the byte ring. -/
def wroteVar (s : LogRun) (e : LogVarEntry) : LogRun :=
  { s with
    logger := s.logger.wrote e
    wrote := s.wrote ++ ⟨[], [(varStart s.logger.writer.writeIndexVar e, e)]⟩
    fresh := s.fresh ++ ⟨[], [(varStart s.logger.writer.writeIndexVar e, e)]⟩ }

theorem Sync.step_tryPushVariable (h : s.Sync lap) (e : LogVarEntry) :
    s.step (.tryPushVariable e) = s.wroteVar e := by
  rw [step, h.ring.tryPushVariable]
  rfl

theorem Sync.step_tryPushVariableStr (h : s.Sync lap) (tsTsc : UInt64) (level moduleId : UInt8)
    (str : Bytes) (short : str.length + 1 < 256 ^ 2) :
    s.step (.tryPushVariableStr tsTsc level moduleId str short) =
      s.wroteVar (ShmLogger.stringEntry tsTsc level moduleId str short) := by
  rw [step, h.ring.tryPushVariableStr]
  rfl

/-- An entry in a slot leaves the entries before it where they are. -/
theorem Sync.slotted (h : s.Sync lap) (e : LogEntry) (hpaced : (s.step (.tryPush e)).Paced) :
    (s.step (.tryPush e)).Sync lap := by
  have hlength : (s.step (.tryPush e)).fresh.fixed.length = s.fresh.fixed.length + 1 := by
    rw [h.step_tryPush]
    exact List.length_append
  have hroom := hpaced.1
  rw [hlength] at hroom
  rw [h.step_tryPush] at hlength ⊢
  exact {
    ring := h.ring.slotted e
    last_lt := h.last_lt
    index := by
      rw [hlength, ← Nat.add_assoc, ← Nat.mod_add_mod, ← h.index]
      rfl
    slots := by
      rw [hlength, List.range_succ, List.map_append, List.map_singleton]
      refine congr_arg₂ _ ?_ ?_
      · conv_lhs => rw [h.slots]
        refine List.map_congr_left fun j hj => ?_
        rw [List.mem_range] at hj
        -- Fewer entries than slots are unread, so the new one overwrites none of them.
        have hne : (s.reader.lastReadIndex + j) % kBufferCapacity ≠ s.logger.writer.writeIndex := by
          rw [h.index, kBufferCapacity] at *
          omega
        rw [ShmLogger.slotted]
        exact (if_neg hne).symm
      · rw [ShmLogger.slotted]
        simp only
        rw [if_pos h.index.symm]
    lastVar_lt := h.lastVar_lt
    window := by
      have hfresh : (s.fresh ++ (⟨[e], []⟩ : LogRead)).ofVar = s.fresh.ofVar := List.append_nil _
      simp only [GoesOn, StartedOver, freshVar, hfresh]
      exact h.window }

/-- The entries of the byte ring since the last read, after one more. -/
theorem freshVar_wroteVar (s : LogRun) (e : LogVarEntry) :
    (s.wroteVar e).freshVar = s.freshVar ++ [e] :=
  List.map_append

theorem reader_wroteVar (s : LogRun) (e : LogVarEntry) : (s.wroteVar e).reader = s.reader := rfl

theorem ofVar_wroteVar (s : LogRun) (e : LogVarEntry) :
    (s.wroteVar e).fresh.ofVar = s.fresh.ofVar ++ [(varStart s.logger.writer.writeIndexVar e, e)] :=
      rfl

theorem ofVar_eq_nil_iff (s : LogRun) : s.fresh.ofVar = [] ↔ s.freshVar = [] := by
  rw [freshVar, List.map_eq_nil_iff]

/-- An entry behind others that fit is not the first to be too long. -/
theorem GoesOn.first_long_iff (h : s.GoesOn lap) (hlt : varFormat.total lap < kBufferVarSize)
    (e : LogVarEntry) :
    (∃ x ∈ (s.freshVar ++ [e]).head?, s.reader.lastReadIndexVar + x.size > kBufferVarSize) ↔
      s.freshVar = [] ∧ varFormat.total lap + e.size > kBufferVarSize := by
  have hfits := h.first_fits hlt
  have htotal := h.total_eq
  cases hfresh : s.freshVar with
  | nil =>
      rw [hfresh, varFormat.total_nil, Nat.add_zero] at htotal
      rw [htotal]
      simp
  | cons x xs =>
      rw [hfresh, List.head?_cons] at hfits
      simpa using hfits

/-- The writer goes on, or comes to the end of the ring. -/
theorem GoesOn.wroteVar (h : s.GoesOn lap) (hring : s.logger.Ring lap) (e : LogVarEntry) :
    (s.wroteVar e).GoesOn (lapAfter lap e) ∨ (s.wroteVar e).StartedOver (lapAfter lap e) := by
  have htotal := h.total_eq
  have hlong := h.first_long_iff hring.total_lt e
  have hsize : varFormat.size e = e.size := rfl
  have hgrown : s.reader.lastReadIndexVar + varFormat.total
      (s.freshVar ++ [e]) = varFormat.total lap + e.size := by
    rw [varFormat.total_append, varFormat.total_cons, varFormat.total_nil,
      Nat.add_zero, htotal, hsize, Nat.add_assoc]
  obtain ⟨before, after, hlap, hbefore, hfresh⟩ := h
  have hafter : s.freshVar = after := by rw [freshVar, hfresh, varFormat.map_snd_placed]
  rw [lapAfter, GoesOn, StartedOver, freshVar_wroteVar, ofVar_wroteVar,
    reader_wroteVar, hring.lapped]
  split
  next hfull =>
    -- The entry does not fit behind the others: the writer starts over with it.
    refine Or.inr ⟨s.fresh.ofVar, ?_, ?_, ?_⟩
    · rw [varStart, if_pos hfull]
      rfl
    · exact hgrown ▸ Nat.le_of_lt hfull
    · rw [hlong, ofVar_eq_nil_iff]
      exact ⟨fun hnil => ⟨hnil, hfull⟩, And.left⟩
  next hroom =>
    rw [varStart, if_neg hroom]
    split
    next hexact =>
      -- It fills the ring: the writer starts over behind it, and nothing is written there yet.
      refine Or.inr ⟨s.fresh.ofVar ++ [(varFormat.total lap, e)], (List.append_nil _).symm, ?_, ?_⟩
      · exact hgrown ▸ Nat.le_of_eq hexact.symm
      · rw [hlong]
        exact ⟨fun hnil =>
          absurd hnil (List.append_ne_nil_of_right_ne_nil _ (List.cons_ne_nil _ _)),
          fun hfirst => absurd hfirst.2 hroom⟩
    next hinside =>
      refine Or.inl ⟨before, after ++ [e], ?_, hbefore, ?_⟩
      · rw [hlap, List.append_assoc]
      · rw [hfresh, varFormat.placed_append, htotal, hafter]
        rfl

/-- Once it has started over, the writer goes on for the rest of the window. -/
theorem StartedOver.wroteVar (h : s.StartedOver lap) (hring : s.logger.Ring lap)
    (hlast : s.reader.lastReadIndexVar < kBufferVarSize) (e : LogVarEntry)
    (hpaced : (s.wroteVar e).Paced) :
    (s.wroteVar e).StartedOver (lapAfter lap e) := by
  obtain ⟨old, hfresh, hend, hold⟩ := h
  have hbytes := hpaced.2
  have hsize : varFormat.size e = e.size := rfl
  have htotal : varFormat.total s.freshVar = varFormat.total
      (old.map Prod.snd) + varFormat.total lap := by
    rw [freshVar, hfresh, List.map_append, varFormat.map_snd_placed, varFormat.total_append]
  rw [freshVar_wroteVar, varFormat.total_append, varFormat.total_cons,
    varFormat.total_nil, hsize] at hbytes
  have hlt : varFormat.total lap + e.size < kBufferVarSize := by omega
  rw [lapAfter, if_neg (by omega), if_neg (by omega), StartedOver,
    freshVar_wroteVar, ofVar_wroteVar, reader_wroteVar, hring.lapped, varStart, if_neg (by omega)]
  refine ⟨old, ?_, ?_, ?_⟩
  · rw [hfresh, varFormat.placed_append, Nat.zero_add, List.append_assoc]
    rfl
  · rw [varFormat.total_append]
    exact Nat.le_trans hend (Nat.add_le_add_left (Nat.le_add_right _ _) _)
  · rw [hold]
    cases hnonempty : s.freshVar with
    | nil =>
        rw [hnonempty, varFormat.total_nil] at hend
        exact absurd hend (Nat.not_le.mpr hlast)
    | cons x xs => rw [List.cons_append, List.head?_cons, List.head?_cons]

/-- An entry in the byte ring. -/
theorem Sync.wroteVar (h : s.Sync lap) (e : LogVarEntry) (hpaced : (s.wroteVar e).Paced) :
    (s.wroteVar e).Sync (lapAfter lap e) := by
  have hfixed : (s.wroteVar e).fresh.fixed = s.fresh.fixed := List.append_nil _
  exact {
    ring := h.ring.wrote e
    last_lt := h.last_lt
    index := by
      rw [hfixed]
      exact h.index
    slots := by
      rw [hfixed]
      exact h.slots
    lastVar_lt := h.lastVar_lt
    window := by
      rcases h.window with hgoes | hstarted
      · exact hgoes.wroteVar h.ring e
      · exact Or.inr (hstarted.wroteVar h.ring h.lastVar_lt e hpaced) }

/-! ## Reads -/

/-- The slots that a read decodes are those that were written since the last one. -/
theorem Sync.newSlots (h : s.Sync lap) (hpaced : s.Paced) :
    s.reader.newSlots s.logger.shm = s.fresh.fixed := by
  have hindex := h.ring.published.trans h.index
  rw [newSlots_eq s.reader s.logger.shm h.last_lt hpaced.1 hindex, ← h.slots]

/-- The entries of the byte ring that a read decodes, and where it stops. -/
def varRead (s : LogRun) : List (Nat × LogVarEntry) × Nat :=
  readVariable s.logger.shm (s.reader.startVar s.logger.shm)

/-- A read finds all of the window if the writer went on. -/
theorem GoesOn.varRead (h : s.GoesOn lap) (hring : s.logger.Ring lap) :
    s.varRead = (s.fresh.ofVar, s.logger.shm.writeIndexVar) := by
  obtain ⟨before, after, rfl, hbefore, hfresh⟩ := h
  have hlast : s.logger.shm.writeIndexVar = varFormat.total (before ++ after) :=
    hring.publishedVar.trans hring.lapped
  rw [varFormat.total_append] at hlast
  rw [LogRun.varRead, LogReader.startVar, if_neg (by omega), ← hbefore,
    hring.readVariable, hfresh, hbefore]

/-- If it started over, a read finds the last lap. -/
theorem StartedOver.varRead (h : s.StartedOver lap) (hring : s.logger.Ring lap) (hpaced : s.Paced) :
    s.varRead = (varFormat.placed 0 lap, s.logger.shm.writeIndexVar) := by
  obtain ⟨old, hfresh, hend, -⟩ := h
  have hbytes := hpaced.2
  have hlast : s.logger.shm.writeIndexVar = varFormat.total lap :=
    hring.publishedVar.trans hring.lapped
  have htotal : varFormat.total s.freshVar = varFormat.total
      (old.map Prod.snd) + varFormat.total lap := by
    rw [freshVar, hfresh, List.map_append, varFormat.map_snd_placed, varFormat.total_append]
  rw [LogRun.varRead, LogReader.startVar, if_pos (by omega), hring.readVariable_zero]

/-- A read decodes all that was written since the last one if and only if that lies in one lap. -/
theorem Sync.varRead_iff (h : s.Sync lap) (hpaced : s.Paced) :
    s.varRead.1 = s.fresh.ofVar ↔ s.InOneLap := by
  rcases h.window with hgoes | hstarted
  · have htotal := hgoes.total_eq
    have hlt := h.ring.total_lt
    rw [hgoes.varRead h.ring]
    exact ⟨fun _ => Or.inl (htotal ▸ hlt), fun _ => rfl⟩
  · rw [hstarted.varRead h.ring hpaced]
    obtain ⟨old, hfresh, hend, hold⟩ := hstarted
    rw [InOneLap, or_iff_right (Nat.not_lt.mpr hend), ← hold, hfresh]
    exact ⟨fun hsame => List.self_eq_append_left.mp hsame, fun hnil =>
      by rw [hnil, List.nil_append]⟩

/-- A read stops where the writer stands. -/
theorem Sync.varRead_stop (h : s.Sync lap) (hpaced : s.Paced) :
    s.varRead.2 = s.logger.shm.writeIndexVar := by
  rcases h.window with hgoes | hstarted
  · rw [hgoes.varRead h.ring]
  · rw [hstarted.varRead h.ring hpaced]

theorem Sync.readNew (h : s.Sync lap) (hpaced : s.Paced) : (s.step .readNew).Sync lap := by
  have hstop := h.varRead_stop hpaced
  have hlast : s.logger.shm.writeIndexVar = varFormat.total lap :=
    h.ring.publishedVar.trans h.ring.lapped
  have hindex := h.ring.index_lt
  rw [← h.ring.published] at hindex
  exact {
    ring := h.ring
    last_lt := hindex
    index := h.ring.published.symm.trans (Nat.mod_eq_of_lt hindex).symm
    slots := rfl
    lastVar_lt := by
      have hlt := h.ring.total_lt
      rw [← hlast, ← hstop] at hlt
      exact hlt
    window := Or.inl ⟨lap, [], (List.append_nil _).symm, (hstop.trans hlast).symm, rfl⟩ }

/-! ## Nothing lost -/

theorem append_mk (a b : LogRead) : a ++ b = ⟨a.fixed ++ b.fixed, a.ofVar ++ b.ofVar⟩ := rfl

theorem append_right_inj_iff (a b c : LogRead) : a ++ b = a ++ c ↔ b = c := by
  cases b
  cases c
  simp only [append_mk, LogRead.mk.injEq, List.append_cancel_left_eq]

theorem append_left_inj_iff (a b c : LogRead) : b ++ a = c ++ a ↔ b = c := by
  cases b
  cases c
  simp only [append_mk, LogRead.mk.injEq, List.append_cancel_right_eq]

theorem append_assoc_eq (a b c : LogRead) : a ++ b ++ c = a ++ (b ++ c) := by
  simp only [append_mk, List.append_assoc]

theorem append_none (a : LogRead) : a ++ LogRead.none = a := by
  cases a
  simp only [append_mk, LogRead.none, List.append_nil]

/-- A push loses nothing of what was written before. -/
theorem lossless_pushed (s : LogRun) (result : Bool × ShmLogger) (entry : LogRead) :
    (s.pushed result entry).Lossless ↔ s.Lossless := by
  rw [pushed]
  split
  next =>
    simp only [Lossless]
    rw [← append_assoc_eq, append_left_inj_iff]
  next => exact Iff.rfl

/-- A read loses nothing if and only if what was written since the last one lies in one lap. -/
theorem Sync.lossless_readNew (h : s.Sync lap) (hpaced : s.Paced) (hlossless : s.Lossless) :
    (s.step .readNew).Lossless ↔ s.InOneLap := by
  have hread : (s.step .readNew).read = s.read ++ ⟨s.fresh.fixed, s.varRead.1⟩ := by
    rw [← h.newSlots hpaced]
    rfl
  rw [← h.varRead_iff hpaced, Lossless, hread]
  have hfresh : (s.step .readNew).fresh = LogRead.none := rfl
  have hwrote : (s.step .readNew).wrote = s.read ++ s.fresh := hlossless
  rw [hfresh, hwrote, append_none, append_right_inj_iff]
  cases hparts : s.fresh
  rw [LogRead.mk.injEq]
  exact ⟨fun hsame => hsame.2.symm, fun hsame => ⟨rfl, hsame.symm⟩⟩

/-- What a push leaves of the window's limits held before it. -/
theorem paced_of_pushed {result : Bool × ShmLogger} {entry : LogRead}
    (h : (s.pushed result entry).Paced) : s.Paced := by
  rw [pushed] at h
  split at h
  next =>
    obtain ⟨hslots, hbytes⟩ := h
    simp only [freshVar, append_mk, List.length_append, List.map_append,
      varFormat.total_append] at hslots hbytes
    exact ⟨by omega, by rw [freshVar]; omega⟩
  next => exact h

/-! ## Runs of calls -/

end

/-- In every state of a run. -/
def Always (P : LogRun → Prop) (steps : List LogStep) : Prop := ∀ pre, pre <+: steps → P (run pre)

/-- In every state of a run in which a read is called. -/
def AtReads (P : LogRun → Prop) (steps : List LogStep) :
    Prop := ∀ pre, pre ++ [.readNew] <+: steps → P (run pre)

variable {P : LogRun → Prop} {steps : List LogStep} {op : LogStep}

theorem always_concat : Always P (steps ++ [op]) ↔ Always P steps ∧ P (run (steps ++ [op])) := by
  constructor
  · intro h
    exact ⟨fun pre hpre => h pre (hpre.trans (List.prefix_append _ _)), h _ List.prefix_rfl⟩
  · rintro ⟨hall, hlast⟩ pre hpre
    rcases List.prefix_concat_iff.mp hpre with rfl | hshort
    · exact hlast
    · exact hall pre hshort

theorem atReads_concat : AtReads P (steps ++ [op]) ↔ AtReads P steps ∧
    (op = .readNew → P (run steps)) := by
  constructor
  · intro h
    refine ⟨fun pre hpre => h pre (hpre.trans (List.prefix_append _ _)), ?_⟩
    rintro rfl
    exact h steps List.prefix_rfl
  · rintro ⟨hall, hlast⟩ pre hpre
    rcases List.prefix_concat_iff.mp hpre with heq | hshort
    · obtain ⟨rfl, hop⟩ := List.append_inj' heq rfl
      exact hlast (List.cons.inj hop).1.symm
    · exact hall pre hshort

theorem atReads_nil : AtReads P [] := fun _ hpre =>
  absurd (List.prefix_nil.mp hpre) (List.append_ne_nil_of_right_ne_nil _ (List.cons_ne_nil _ _))

/-- The positions of the reader are right in a run whose windows keep their limits. -/
theorem sync_run (hreads : AtReads Paced steps) (hpaced : (run steps).Paced) :
    ∃ lap, (run steps).Sync lap := by
  induction steps using List.reverseRecOn with
  | nil => exact ⟨[], sync_init⟩
  | append_singleton steps op ih =>
      obtain ⟨hprior, hlast⟩ := atReads_concat.mp hreads
      rw [run_concat] at hpaced ⊢
      cases op with
      | tryPush e =>
          obtain ⟨lap, hlap⟩ := ih hprior (paced_of_pushed hpaced)
          exact ⟨lap, hlap.slotted e hpaced⟩
      | tryPushVariable e =>
          obtain ⟨lap, hlap⟩ := ih hprior (paced_of_pushed hpaced)
          rw [hlap.step_tryPushVariable] at hpaced ⊢
          exact ⟨_, hlap.wroteVar e hpaced⟩
      | tryPushVariableStr tsTsc level moduleId str short =>
          obtain ⟨lap, hlap⟩ := ih hprior (paced_of_pushed hpaced)
          rw [hlap.step_tryPushVariableStr] at hpaced ⊢
          exact ⟨_, hlap.wroteVar _ hpaced⟩
      | readNew =>
          obtain ⟨lap, hlap⟩ := ih hprior (hlast rfl)
          exact ⟨lap, hlap.readNew (hlast rfl)⟩

/-- In a run in which fewer entries than there are slots and less than half of the bytes are written
between two reads, everything is decoded once, in order and at its position, if and only if what is
written between two reads never reaches the end of the byte ring, or starts with an entry that is
too long for the rest. -/
theorem always_lossless_iff (steps : List LogStep) (hpaced : AtReads Paced steps) :
    Always Lossless steps ↔ AtReads InOneLap steps := by
  induction steps using List.reverseRecOn with
  | nil =>
      refine iff_of_true (fun pre hpre => ?_) atReads_nil
      rw [List.prefix_nil.mp hpre]
      rfl
  | append_singleton steps op ih =>
      obtain ⟨hreads, hlast⟩ := atReads_concat.mp hpaced
      rw [always_concat, atReads_concat, ih hreads, run_concat]
      refine and_congr_right fun honeLap => ?_
      have hlossless : (run steps).Lossless := ((ih hreads).mpr honeLap) steps List.prefix_rfl
      cases op with
      | tryPush e => exact iff_of_true ((lossless_pushed _ _ _).mpr hlossless) (by simp)
      | tryPushVariable e => exact iff_of_true ((lossless_pushed _ _ _).mpr hlossless) (by simp)
      | tryPushVariableStr tsTsc level moduleId str short =>
          exact iff_of_true ((lossless_pushed _ _ _).mpr hlossless) (by simp)
      | readNew =>
          obtain ⟨lap, hlap⟩ := sync_run hreads (hlast rfl)
          rw [hlap.lossless_readNew (hlast rfl) hlossless]
          exact ⟨fun h _ => h, fun h => h rfl⟩

/-! ## The end of the ring -/

section

variable {s : LogRun} {lap : List LogVarEntry}

/-- A run that has read all that was written. -/
structure Settled (s : LogRun) (lap : List LogVarEntry) : Prop where
  sync : s.Sync lap
  lossless : s.Lossless
  fresh : s.fresh = LogRead.none
  stop : s.reader.lastReadIndexVar = varFormat.total lap

theorem settled_init : Settled {} [] where
  sync := sync_init
  lossless := rfl
  fresh := rfl
  stop := rfl

/-- One entry since the last read. -/
theorem Settled.freshVar_push (h : s.Settled lap) (e : LogVarEntry) :
    (s.step (.tryPushVariable e)).freshVar = [e] := by
  rw [h.sync.step_tryPushVariable, freshVar_wroteVar, freshVar, h.fresh]
  rfl

/-- An entry since the last read lies in one lap unless it ends where the ring ends. -/
theorem Settled.inOneLap_push (h : s.Settled lap) (e : LogVarEntry) :
    (s.step (.tryPushVariable e)).InOneLap ↔ varFormat.total lap + e.size ≠ kBufferVarSize := by
  have hstop : (s.step (.tryPushVariable e)).reader = s.reader := by
    rw [h.sync.step_tryPushVariable]
    rfl
  have hsize : varFormat.size e = e.size := rfl
  rw [InOneLap, h.freshVar_push e, hstop, h.stop, varFormat.total_cons, varFormat.total_nil, hsize]
  simp only [List.head?_cons, Option.mem_some_iff, exists_eq_left']
  omega

theorem Settled.paced_push (h : s.Settled lap) {e : LogVarEntry}
    (hhalf : 2 * e.size < kBufferVarSize) : (s.step (.tryPushVariable e)).Paced := by
  refine ⟨?_, ?_⟩
  · rw [h.sync.step_tryPushVariable]
    change (s.fresh.fixed ++ []).length < _
    rw [h.fresh]
    decide
  · rw [h.freshVar_push e, varFormat.total_cons, varFormat.total_nil]
    exact hhalf

/-- An entry in the byte ring and a read, with room behind the entry. -/
theorem Settled.round (h : s.Settled lap) {e : LogVarEntry} (hhalf : 2 * e.size < kBufferVarSize)
    (hroom : varFormat.total lap + e.size < kBufferVarSize) :
    ((s.step (.tryPushVariable e)).step .readNew).Settled (lap ++ [e]) := by
  have hpaced := h.paced_push hhalf
  have hsync : (s.step (.tryPushVariable e)).Sync (lap ++ [e]) := by
    rw [h.sync.step_tryPushVariable] at hpaced ⊢
    have hnext := h.sync.wroteVar e hpaced
    rw [lapAfter, if_neg (by omega), if_neg (by omega)] at hnext
    exact hnext
  have hlossless : (s.step (.tryPushVariable e)).Lossless := (lossless_pushed _ _ _).mpr h.lossless
  have honeLap : (s.step (.tryPushVariable e)).InOneLap := (h.inOneLap_push e).2 (by omega)
  exact {
    sync := hsync.readNew hpaced
    lossless := (hsync.lossless_readNew hpaced hlossless).mpr honeLap
    fresh := rfl
    stop := (hsync.varRead_stop hpaced).trans (hsync.ring.publishedVar.trans hsync.ring.lapped) }

/-- An entry that ends where the ring ends, and a read: it is lost. -/
theorem Settled.exact_lost (h : s.Settled lap) {e : LogVarEntry}
    (hhalf : 2 * e.size < kBufferVarSize) (hexact : varFormat.total lap + e.size = kBufferVarSize) :
    ¬ ((s.step (.tryPushVariable e)).step .readNew).Lossless := by
  have hpaced := h.paced_push hhalf
  have hsync : (s.step (.tryPushVariable e)).Sync (lapAfter lap e) := by
    rw [h.sync.step_tryPushVariable] at hpaced ⊢
    exact h.sync.wroteVar e hpaced
  have hlossless : (s.step (.tryPushVariable e)).Lossless := (lossless_pushed _ _ _).mpr h.lossless
  rw [hsync.lossless_readNew hpaced hlossless, h.inOneLap_push e]
  exact fun hlap => hlap hexact

end

/-- An entry of a quarter of the ring. -/
def quarterEntry : LogVarEntry where
  tsTsc := 0
  typeId := msgFormat
  level := 0
  msgId := 0
  moduleId := 0
  payload := List.replicate 65504 0
  short := by
    rw [List.length_replicate]
    decide

theorem size_quarterEntry : quarterEntry.size = 65536 := by
  have hlength : quarterEntry.payload.length = 65504 := List.length_replicate
  rw [LogVarEntry.size, hlength, kVarHeaderSize]

/-- Entries of a quarter of the ring, each of them read before the next. -/
def quarters : Nat → List LogStep
  | 0 => []
  | n + 1 => quarters n ++ [.tryPushVariable quarterEntry] ++ [.readNew]

theorem half_quarterEntry : 2 * quarterEntry.size < kBufferVarSize := by
  rw [size_quarterEntry]
  decide

theorem total_quarters (n : Nat) : varFormat.total (List.replicate n quarterEntry) = n * 65536 := by
  induction n with
  | zero => rw [List.replicate_zero, varFormat.total_nil, Nat.zero_mul]
  | succ n ih =>
      have hsize : varFormat.size quarterEntry = 65536 := size_quarterEntry
      rw [List.replicate_succ, varFormat.total_cons, ih, hsize, Nat.succ_mul, Nat.add_comm]

/-- Three quarters are read as they are written. -/
theorem settled_quarters {n : Nat} (hn : n ≤ 3) :
    (run (quarters n)).Settled (List.replicate n quarterEntry) ∧ AtReads Paced (quarters n) ∧
      AtReads InOneLap (quarters n) := by
  induction n with
  | zero => exact ⟨settled_init, atReads_nil, atReads_nil⟩
  | succ n ih =>
      obtain ⟨hsettled, hreads, honeLap⟩ := ih (Nat.le_of_succ_le hn)
      have hroom : varFormat.total (List.replicate n quarterEntry) + quarterEntry.size <
          kBufferVarSize := by
        rw [total_quarters, size_quarterEntry, kBufferVarSize]
        omega
      rw [quarters, run_concat, run_concat, atReads_concat, atReads_concat, atReads_concat,
        atReads_concat, run_concat, List.replicate_succ']
      exact ⟨hsettled.round half_quarterEntry hroom,
        ⟨⟨hreads, fun hop => by cases hop⟩, fun _ => hsettled.paced_push half_quarterEntry⟩,
        ⟨honeLap, fun hop => by cases hop⟩,
        fun _ => (hsettled.inOneLap_push _).2 (Nat.ne_of_lt hroom)⟩

/-- An entry that is too long for the last quarter of the ring. -/
def longEntry : LogVarEntry where
  tsTsc := 0
  typeId := msgFormat
  level := 0
  msgId := 0
  moduleId := 0
  payload := List.replicate 65535 0
  short := by
    rw [List.length_replicate]
    decide

theorem size_longEntry : longEntry.size = 65567 := by
  have hlength : longEntry.payload.length = 65535 := List.length_replicate
  rw [LogVarEntry.size, hlength, kVarHeaderSize]

/-- Behind three quarters an entry that is too long for the fourth starts the next lap, and is
decoded. -/
theorem always_lossless_into_next_lap :
    Always Lossless (quarters 3 ++ [.tryPushVariable longEntry] ++ [.readNew]) := by
  obtain ⟨hsettled, hreads, honeLap⟩ := settled_quarters (Nat.le_refl 3)
  have hhalf : 2 * longEntry.size < kBufferVarSize := by
    rw [size_longEntry]
    decide
  refine (always_lossless_iff _ ?_).2 ?_
  · rw [atReads_concat, atReads_concat, run_concat]
    exact ⟨⟨hreads, fun hop => by cases hop⟩, fun _ => hsettled.paced_push hhalf⟩
  · rw [atReads_concat, atReads_concat, run_concat]
    refine ⟨⟨honeLap, fun hop => by cases hop⟩, fun _ => (hsettled.inOneLap_push _).2 ?_⟩
    rw [total_quarters, size_longEntry, kBufferVarSize]
    decide

/-- The fourth quarter ends where the ring ends, and is lost. -/
theorem quarters_lost : AtReads Paced (quarters 4) ∧ ¬ Always Lossless (quarters 4) := by
  obtain ⟨hsettled, hreads, -⟩ := settled_quarters (Nat.le_refl 3)
  have hexact : varFormat.total (List.replicate 3 quarterEntry) + quarterEntry.size =
      kBufferVarSize := by
    rw [total_quarters, size_quarterEntry, kBufferVarSize]
  have hpaced := hsettled.paced_push half_quarterEntry
  have hlost := hsettled.exact_lost half_quarterEntry hexact
  rw [← run_concat] at hpaced hlost
  rw [← run_concat] at hlost
  have hall : AtReads Paced (quarters 3 ++ [.tryPushVariable quarterEntry] ++ [.readNew]) := by
    rw [atReads_concat, atReads_concat]
    exact ⟨⟨hreads, fun hop => by cases hop⟩, fun _ => hpaced⟩
  exact ⟨hall, fun halways => hlost (halways _ List.prefix_rfl)⟩

end LogRun

end AccountServices
