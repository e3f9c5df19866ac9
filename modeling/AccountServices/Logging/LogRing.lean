import AccountServices.Common.Types
import AccountServices.Foundation.Frames

/-!
# The shared-memory log rings

`logging/log.hpp` and `logging/log.cpp` of the base library. The memory of a logger has two rings:
slots of one size for short entries, and bytes for entries of any length. The writer keeps its two
positions to itself and publishes them after each entry; an entry that does not fit between its
position and the end of the byte ring is written at the start. The reader knows the published
positions and those of its last read, and walks the byte ring from entry to entry by the sizes in
their headers.

The text that an entry is printed as is a function of the entry, and is left out. The positions are
32-bit numbers below the sizes of the rings, so that none of their sums overflows.
-/

set_option autoImplicit false

namespace AccountServices

open Foundation

/-- `kLogMaxPayload`. -/
def kLogMaxPayload : Nat := 32

/-- `kLogMaxVarPayload`. -/
def kLogMaxVarPayload : Nat := 1024

/-- `ShmLogger::kBufferCapacity`. -/
def kBufferCapacity : Nat := 4096

/-- `ShmLogger::kBufferVarSize`. -/
def kBufferVarSize : Nat := 262144

/-- `sizeof(LogVarEntryHeader)`. -/
def kVarHeaderSize : Nat := 32

/-- `LogTypeId::MsgFormat`. -/
def msgFormat : UInt8 := 6

/-- `LogTypeId::MsgString`. -/
def msgString : UInt8 := 7

/-! ## Entries -/

/-- `LogEntry`. -/
structure LogEntry where
  tsTsc : UInt64 := 0
  typeId : UInt8 := 0
  level : UInt8 := 0
  msgId : UInt8 := 0
  moduleId : UInt8 := 0
  payloadSize : UInt16 := 0
  payload : List UInt8 := []
  deriving DecidableEq

/-- `LogVarEntryHeader` with the payload behind it, whose size is a 16-bit number. -/
structure LogVarEntry where
  tsTsc : UInt64
  typeId : UInt8
  level : UInt8
  msgId : UInt8
  moduleId : UInt8
  payload : List UInt8
  short : payload.length < 256 ^ 2
  deriving DecidableEq

namespace LogVarEntry

/-- The bytes of the header: the time, the four bytes that describe the entry, the size of the
payload, and padding. -/
def header (e : LogVarEntry) : List UInt8 :=
  leBytes 8 e.tsTsc.toNat ++ [e.typeId, e.level, e.msgId, e.moduleId] ++
    leBytes 2 e.payload.length ++ List.replicate 18 0

/-- The size of the entry with its header. -/
def size (e : LogVarEntry) : Nat := kVarHeaderSize + e.payload.length

theorem length_header (e : LogVarEntry) : e.header.length = kVarHeaderSize := by
  simp [header, kVarHeaderSize]

end LogVarEntry

theorem ofLeBytes_lt (bytes : List UInt8) : ofLeBytes bytes < 256 ^ bytes.length := by
  induction bytes with
  | nil => exact Nat.one_pos
  | cons byte rest ih =>
      have hbyte : byte.toNat < 256 := byte.toNat_lt
      rw [ofLeBytes, List.length_cons, Nat.pow_succ]
      omega

/-- The entry whose header starts at an address, with as many bytes behind it as the header says. -/
def varEntryAt (m : Memory) (a : Nat) : LogVarEntry where
  tsTsc := UInt64.ofNat (ofLeBytes (m.read a 8))
  typeId := m (a + 8)
  level := m (a + 9)
  msgId := m (a + 10)
  moduleId := m (a + 11)
  payload := m.read (a + kVarHeaderSize) (ofLeBytes (m.read (a + 12) 2))
  short := by
    have hlt := ofLeBytes_lt (m.read (a + 12) 2)
    rw [Memory.length_read] at hlt ⊢
    exact hlt

/-- The bytes of an entry part by part, where the entry lies. -/
theorem varEntry_parts (m : Memory) (a : Nat) (e : LogVarEntry)
    (h : m.read a e.size = e.header ++ e.payload) : m.read a 8 = leBytes 8 e.tsTsc.toNat ∧
    m.read (a + 8) 4 = [e.typeId, e.level, e.msgId, e.moduleId] ∧
    m.read (a + 12) 2 = leBytes 2 e.payload.length ∧
    m.read (a + kVarHeaderSize) e.payload.length = e.payload := by
  have hsize : e.size = 8 + (4 + (2 + (18 + e.payload.length))) := by
    rw [LogVarEntry.size, kVarHeaderSize]
    omega
  rw [hsize, LogVarEntry.header, Memory.read_add, Memory.read_add, Memory.read_add, Memory.read_add,
    List.append_assoc, List.append_assoc, List.append_assoc] at h
  obtain ⟨htime, h⟩ := List.append_inj h (by simp)
  obtain ⟨hfour, h⟩ := List.append_inj h (by simp)
  obtain ⟨hlength, h⟩ := List.append_inj h (by simp)
  obtain ⟨-, hpayload⟩ := List.append_inj h (by simp)
  exact ⟨htime, hfour, hlength, hpayload⟩

/-- An entry is found again where its bytes are. -/
theorem varEntryAt_of_read (m : Memory) (a : Nat) (e : LogVarEntry)
    (h : m.read a e.size = e.header ++ e.payload) : varEntryAt m a = e := by
  obtain ⟨htime, hfour, hlength, hpayload⟩ := varEntry_parts m a e h
  have htsTsc : UInt64.ofNat (ofLeBytes (m.read a 8)) = e.tsTsc := by
    rw [htime, ofLeBytes_leBytes e.tsTsc.toNat_lt, UInt64.ofNat_toNat]
  have hsize : ofLeBytes (m.read (a + 12) 2) = e.payload.length := by
    rw [hlength, ofLeBytes_leBytes e.short]
  simp only [Memory.read, List.range_succ, List.range_zero, List.nil_append, List.map_cons,
    List.map_nil, List.cons_append, List.cons.injEq, and_true, Nat.add_assoc] at hfour
  obtain ⟨htype, hlevel, hmsg, hmodule⟩ := hfour
  cases e
  simp only [varEntryAt, LogVarEntry.mk.injEq]
  exact ⟨htsTsc, htype, hlevel, hmsg, hmodule, by rw [hsize, hpayload]⟩

/-- The frames of the byte ring. -/
def varFormat : FrameFormat LogVarEntry where
  encode e := e.header ++ e.payload
  size := LogVarEntry.size
  frameAt := varEntryAt
  length_encode e := by
    rw [List.length_append, e.length_header, LogVarEntry.size]
  size_pos e := Nat.lt_of_lt_of_le (by decide) (Nat.le_add_right kVarHeaderSize e.payload.length)
  frameAt_of_read := varEntryAt_of_read

/-! ## The memory and the writer -/

/-- The indexes of `LogShmHeader` and the two buffers behind it. -/
structure LogShm where
  writeIndex : Nat := 0
  writeIndexVar : Nat := 0
  buffer : Nat → LogEntry := fun _ => {}
  bufferVar : Memory := fun _ => 0

/-- `LogBufferWriter`, attached to a memory. -/
structure LogBufferWriter where
  capacity : Nat
  writeIndex : Nat
  bufferVarSize : Nat
  writeIndexVar : Nat

/-- A logger that is open: its memory and its writer. -/
structure ShmLogger where
  shm : LogShm
  writer : LogBufferWriter

/-- `LogBufferWriter::attach`. -/
def LogBufferWriter.attach (shm : LogShm) (capacity bufferVarSize : Nat) : LogBufferWriter where
  capacity := capacity
  writeIndex := shm.writeIndex
  bufferVarSize := bufferVarSize
  writeIndexVar := shm.writeIndexVar

namespace ShmLogger

/-- `ShmLogger::init` on a memory that was just created. -/
def init : ShmLogger where
  shm := {}
  writer := .attach {} kBufferCapacity kBufferVarSize

/-- `LogBufferWriter::try_push`. -/
def tryPush (l : ShmLogger) (e : LogEntry) : Bool × ShmLogger :=
  if l.writer.capacity = 0 then (false, l)
  else
    let idx := l.writer.writeIndex % l.writer.capacity
    let next := (idx + 1) % l.writer.capacity
    (true,
      { shm := { l.shm with
          buffer := fun i => if i = idx then e else l.shm.buffer i
          writeIndex := next }
        writer := { l.writer with writeIndex := next } })

/-- `LogBufferWriter::try_push_variable`, with the payload that it is given. -/
def tryPushVariable (l : ShmLogger) (e : LogVarEntry) : Bool × ShmLogger :=
  if l.writer.bufferVarSize = 0 then (false, l)
  else
    let entrySize := kVarHeaderSize + e.payload.length
    if entrySize > l.writer.bufferVarSize then (false, l)
    else
      let start := l.writer.writeIndexVar % l.writer.bufferVarSize
      -- An entry is not split: one that does not fit behind the last is written at the start.
      let idx := if start + entrySize > l.writer.bufferVarSize then 0 else start
      let next := (idx + entrySize) % l.writer.bufferVarSize
      (true,
        { shm := { l.shm with
            bufferVar := (l.shm.bufferVar.write idx e.header).write (idx + kVarHeaderSize) e.payload
            writeIndexVar := next }
          writer := { l.writer with writeIndexVar := next } })

/-- The entry of a string: its bytes and a terminator. -/
def stringEntry (tsTsc : UInt64) (level moduleId : UInt8) (str : Bytes)
    (short : str.length + 1 < 256 ^ 2) : LogVarEntry where
  tsTsc := tsTsc
  typeId := msgString
  level := level
  msgId := 0
  moduleId := moduleId
  payload := str ++ [0]
  short := by
    rw [List.length_append, List.length_singleton]
    exact short

/-- `LogBufferWriter::try_push_variable_str`, for a string whose size fits the header. -/
def tryPushVariableStr (l : ShmLogger) (tsTsc : UInt64) (level moduleId : UInt8) (str : Bytes)
    (short : str.length + 1 < 256 ^ 2) : Bool × ShmLogger :=
  if l.writer.bufferVarSize = 0 then (false, l)
  else
    let payloadSize := str.length + 1
    if payloadSize > l.writer.bufferVarSize - kVarHeaderSize then (false, l)
    else
      let start := l.writer.writeIndexVar % l.writer.bufferVarSize
      let entrySize := kVarHeaderSize + payloadSize
      let idx := if start + entrySize > l.writer.bufferVarSize then 0 else start
      let e := stringEntry tsTsc level moduleId str short
      let bytes := ((l.shm.bufferVar.write idx e.header).write (idx + kVarHeaderSize) str).write
        (idx + kVarHeaderSize + str.length) [0]
      let next := (idx + entrySize) % l.writer.bufferVarSize
      (true,
        { shm := { l.shm with bufferVar := bytes, writeIndexVar := next }
          writer := { l.writer with writeIndexVar := next } })

end ShmLogger

/-! ## The reader -/

/-- The loop over the slots from one position until it meets the published one. -/
def readSlots (buffer : Nat → LogEntry) (writeIndex : Nat) : Nat → Nat → List LogEntry
  | 0, _ => []
  | fuel + 1, i =>
      if i = writeIndex then []
      else buffer i :: readSlots buffer writeIndex fuel ((i + 1) % kBufferCapacity)

/-- The loop over the byte ring from one position to the published one: the entries that it decodes
with their positions, and where it stops. -/
def readVariable (shm : LogShm) (pos : Nat) : List (Nat × LogVarEntry) × Nat :=
  varFormat.scan shm.bufferVar shm.writeIndexVar shm.writeIndexVar pos

/-- What a read decodes. -/
structure LogRead where
  fixed : List LogEntry
  ofVar : List (Nat × LogVarEntry)

/-- The positions of `LogReader`. -/
structure LogReader where
  lastReadIndex : Nat := 0
  lastReadIndexVar : Nat := 0

namespace LogReader

/-- The slots that `read_new` decodes. -/
def newSlots (r : LogReader) (shm : LogShm) : List LogEntry :=
  -- The writer has wrapped: the rest of the ring, then its beginning.
  if shm.writeIndex < r.lastReadIndex then
    (List.range' r.lastReadIndex (kBufferCapacity - r.lastReadIndex)).map shm.buffer ++
      (List.range shm.writeIndex).map shm.buffer
  else readSlots shm.buffer shm.writeIndex kBufferCapacity r.lastReadIndex

/-- The position in the byte ring from which `read_new` reads: after a wrap it starts over. -/
def startVar (r : LogReader) (shm : LogShm) : Nat :=
  if shm.writeIndexVar < r.lastReadIndexVar then 0 else r.lastReadIndexVar

/-- `LogReader::read_new`. -/
def readNew (r : LogReader) (shm : LogShm) : LogRead × LogReader :=
  let read := readVariable shm (r.startVar shm)
  (⟨r.newSlots shm, read.1⟩, { lastReadIndex := shm.writeIndex, lastReadIndexVar := read.2 })

/-- `LogReader::run`: everything from the start of both rings. -/
def run (shm : LogShm) : LogRead :=
  ⟨readSlots shm.buffer shm.writeIndex kBufferCapacity 0, (readVariable shm 0).1⟩

end LogReader

end AccountServices
