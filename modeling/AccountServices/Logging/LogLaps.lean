import AccountServices.Logging.LogRing

/-!
# Laps of the byte ring

A lap of the byte ring is what its writer has written since it last started over. The entries of the
lap lie one behind another from the start of the ring up to the writer's position, and
`ShmLogger.Ring` says so. Each push continues the lap, or starts one if the entry does not fit; an
entry that ends where the ring ends puts the writer back to the start, which leaves an empty lap
(`lapAfter`). A read that starts at an entry of the lap decodes the lap from there.
-/

set_option autoImplicit false

namespace AccountServices

open Foundation

theorem LogVarEntry.size_lt (e : LogVarEntry) : e.size < kBufferVarSize := by
  have hshort := e.short
  rw [LogVarEntry.size, kVarHeaderSize, kBufferVarSize]
  omega

theorem LogVarEntry.size_pos (e : LogVarEntry) : 0 < e.size := varFormat.size_pos e

/-- Where an entry is written: at the writer's position, or at the start if it does not fit behind
it. -/
def varStart (pos : Nat) (e : LogVarEntry) : Nat := if pos + e.size > kBufferVarSize then 0 else pos

/-- The lap after an entry. -/
def lapAfter (lap : List LogVarEntry) (e : LogVarEntry) : List LogVarEntry :=
  if varFormat.total lap + e.size > kBufferVarSize then [e]
  else if varFormat.total lap + e.size = kBufferVarSize then []
  else lap ++ [e]

namespace ShmLogger

/-- What the writer's numbers say about the lap. -/
structure Ring (l : ShmLogger) (lap : List LogVarEntry) : Prop where
  capacity : l.writer.capacity = kBufferCapacity
  varSize : l.writer.bufferVarSize = kBufferVarSize
  published : l.shm.writeIndex = l.writer.writeIndex
  publishedVar : l.shm.writeIndexVar = l.writer.writeIndexVar
  index_lt : l.writer.writeIndex < kBufferCapacity
  lapped : l.writer.writeIndexVar = varFormat.total lap
  total_lt : varFormat.total lap < kBufferVarSize
  holds : varFormat.Holds l.shm.bufferVar 0 lap

theorem ring_init : ShmLogger.init.Ring [] where
  capacity := rfl
  varSize := rfl
  published := rfl
  publishedVar := rfl
  index_lt := by decide
  lapped := rfl
  total_lt := by decide
  holds := varFormat.holds_nil _ _

/-- The logger with an entry in the next slot. -/
def slotted (l : ShmLogger) (e : LogEntry) : ShmLogger where
  shm := { l.shm with
    buffer := fun i => if i = l.writer.writeIndex then e else l.shm.buffer i
    writeIndex := (l.writer.writeIndex + 1) % kBufferCapacity }
  writer := { l.writer with writeIndex := (l.writer.writeIndex + 1) % kBufferCapacity }

/-- The logger with an entry in the byte ring. -/
def wrote (l : ShmLogger) (e : LogVarEntry) : ShmLogger :=
  let idx := varStart l.writer.writeIndexVar e
  let next := (idx + e.size) % kBufferVarSize
  { shm := { l.shm with
      bufferVar := l.shm.bufferVar.write idx (varFormat.encode e)
      writeIndexVar := next }
    writer := { l.writer with writeIndexVar := next } }

section

variable {l : ShmLogger} {lap : List LogVarEntry}

theorem Ring.indexVar_lt (h : l.Ring lap) : l.writer.writeIndexVar < kBufferVarSize := by
  rw [h.lapped]
  exact h.total_lt

/-! ## Pushes -/

theorem Ring.tryPush (h : l.Ring lap) (e : LogEntry) : l.tryPush e = (true, l.slotted e) := by
  rw [ShmLogger.tryPush, h.capacity, if_neg (by decide), slotted, Nat.mod_eq_of_lt h.index_lt]

/-- The header and the payload, written one after the other, are the bytes of the entry. -/
theorem write_parts (m : Memory) (a : Nat) (e : LogVarEntry) :
    (m.write a e.header).write (a + kVarHeaderSize) e.payload = m.write a (varFormat.encode e) := by
  rw [← e.length_header, Memory.write_append]
  rfl

theorem Ring.tryPushVariable (h : l.Ring lap) (e : LogVarEntry) :
    l.tryPushVariable e = (true, l.wrote e) := by
  have hsize := e.size_lt
  have hpos := h.indexVar_lt
  rw [LogVarEntry.size] at hsize
  rw [ShmLogger.tryPushVariable, h.varSize, if_neg (by decide)]
  simp only
  rw [if_neg (Nat.not_lt.mpr (Nat.le_of_lt hsize)), Nat.mod_eq_of_lt hpos, write_parts]
  rfl

/-- A string is pushed as the entry of its bytes and a terminator. -/
theorem Ring.tryPushVariableStr (h : l.Ring lap) (tsTsc : UInt64) (level moduleId : UInt8)
    (str : Bytes) (short : str.length + 1 < 256 ^ 2) :
    l.tryPushVariableStr tsTsc level moduleId str short =
      (true, l.wrote (stringEntry tsTsc level moduleId str short)) := by
  have hpos := h.indexVar_lt
  have hlength : (stringEntry tsTsc level moduleId str short).size = kVarHeaderSize +
      (str.length + 1) := by
    rw [LogVarEntry.size, stringEntry, List.length_append, List.length_singleton]
  rw [ShmLogger.tryPushVariableStr, h.varSize, if_neg (by decide)]
  simp only
  rw [if_neg (by rw [kBufferVarSize, kVarHeaderSize]; omega), Nat.mod_eq_of_lt hpos,
    Memory.write_append]
  have hparts :=
    write_parts l.shm.bufferVar
    (varStart l.writer.writeIndexVar (stringEntry tsTsc level moduleId str short))
    (stringEntry tsTsc level moduleId str short)
  rw [wrote]
  simp only
  rw [← hparts, varStart, hlength]
  rfl

theorem Ring.slotted (h : l.Ring lap) (e : LogEntry) : (l.slotted e).Ring lap where
  capacity := h.capacity
  varSize := h.varSize
  published := rfl
  publishedVar := h.publishedVar
  index_lt := Nat.mod_lt _ (by decide)
  lapped := h.lapped
  total_lt := h.total_lt
  holds := h.holds

/-- An entry in the byte ring. -/
theorem Ring.wrote (h : l.Ring lap) (e : LogVarEntry) : (l.wrote e).Ring (lapAfter lap e) := by
  have hsize := e.size_lt
  have htotal := h.total_lt
  have hnext : (l.wrote e).writer.writeIndexVar = varFormat.total (lapAfter lap e) ∧
      varFormat.total (lapAfter lap e) < kBufferVarSize ∧
      varFormat.Holds (l.wrote e).shm.bufferVar 0 (lapAfter lap e) := by
    rw [ShmLogger.wrote, h.lapped, lapAfter]
    simp only
    split
    next hfull =>
      -- The entry starts a lap at the start of the ring.
      rw [varStart, if_pos hfull, Nat.zero_add, Nat.mod_eq_of_lt hsize]
      refine ⟨?_, ?_, varFormat.holds_write (varFormat.holds_nil _ _) e⟩
      · rw [varFormat.total_cons, varFormat.total_nil, Nat.add_zero]
        rfl
      · rw [varFormat.total_cons, varFormat.total_nil, Nat.add_zero]
        exact hsize
    next hroom =>
      rw [varStart, if_neg hroom]
      split
      next hexact =>
        -- It ends where the ring ends, and the writer is back at the start: the lap is empty.
        rw [hexact, Nat.mod_self]
        exact ⟨rfl, by decide, varFormat.holds_nil _ _⟩
      next hinside =>
        -- It continues the lap.
        have hlt : varFormat.total lap + e.size < kBufferVarSize :=
          Nat.lt_of_le_of_ne (Nat.not_lt.mp hroom) hinside
        have hgrown : varFormat.total (lap ++ [e]) = varFormat.total lap + e.size := by
          rw [varFormat.total_append, varFormat.total_cons, varFormat.total_nil, Nat.add_zero]
          rfl
        rw [hgrown, Nat.mod_eq_of_lt hlt]
        refine ⟨rfl, hlt, ?_⟩
        have hholds := varFormat.holds_write h.holds e
        rw [Nat.zero_add] at hholds
        exact hholds
  exact {
    capacity := h.capacity
    varSize := h.varSize
    published := h.published
    publishedVar := rfl
    index_lt := h.index_lt
    lapped := hnext.1
    total_lt := hnext.2.1
    holds := hnext.2.2 }

/-! ## Reads -/

/-- A read from an entry of the lap decodes the lap from there, up to the writer's position. -/
theorem Ring.readVariable (before : List LogVarEntry) {rest : List LogVarEntry}
    (h : l.Ring (before ++ rest)) : AccountServices.readVariable l.shm (varFormat.total before) =
      (varFormat.placed (varFormat.total before) rest, l.shm.writeIndexVar) := by
  have hholds := (varFormat.holds_append.mp h.holds).2
  have hlimit := h.publishedVar.trans h.lapped
  rw [varFormat.total_append] at hlimit
  have hrest := varFormat.length_le_total rest
  rw [Nat.zero_add] at hholds
  exact varFormat.scan_frames hholds hlimit (by omega)

/-- A read from the start decodes the lap. -/
theorem Ring.readVariable_zero (h : l.Ring lap) :
    AccountServices.readVariable l.shm 0 = (varFormat.placed 0 lap, l.shm.writeIndexVar) :=
  Ring.readVariable [] h

end

end ShmLogger

end AccountServices
