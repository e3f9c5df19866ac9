import AccountServices.Common.SecurityIdentity
import AccountServices.Logging.LogRing

/-!
# The asynchronous logger

`common/log.cpp`, the layout of its records in `common/basecore_log_format.hpp` and the names of the
modules in `common/basecore_log_modules.cpp`. A record is packed into a payload of one size and
written to the rings; the logger counts what it has written since the last drain and takes the
records beyond the size of the ring for dropped. A drain decodes the rings and goes on with new
ones.

The shared memory can always be created, opened and removed, so that the logger is open at all
times. The time stamp of a record is read from the processor's counter and comes with the record.
The counters are natural numbers: they are those of the source while fewer than 2^64 bytes of
records are written between two drains, and fewer than 2^64 records are dropped in all.
-/

set_option autoImplicit false

namespace AccountServices

open Foundation

/-! ## Records -/

/-- `LogLevel`. -/
inductive LogLevel where
  | debug | info | warn | error | fatal
  deriving DecidableEq

/-- The numbers of the levels, the same in both libraries (`to_basecore_level`). -/
def LogLevel.toNat : LogLevel → Nat
  | .debug => 0
  | .info => 1
  | .warn => 2
  | .error => 3
  | .fatal => 4

/-- `to_string(ErrorSeverity)`. -/
def ErrorSeverity.text : ErrorSeverity → String
  | .recoverable => "Recoverable"
  | .critical => "Critical"
  | .fatal => "Fatal"

/-- `to_string(ErrorDomain)`. -/
def ErrorDomain.text : ErrorDomain → String
  | .none => "none"
  | .config => "config"
  | .shm => "shm"
  | .core => "core"
  | .order => "order"
  | .risk => "risk"
  | .portfolio => "portfolio"
  | .api => "api"

/-- `to_string(ErrorCode)`. -/
def ErrorCode.text : ErrorCode → String
  | .invalidParam => "InvalidParam"
  | .invalidState => "InvalidState"
  | .componentUnavailable => "ComponentUnavailable"
  | .healthCheckFailed => "HealthCheckFailed"
  | .internalError => "InternalError"
  | .invalidConfig => "InvalidConfig"
  | .configParseFailed => "ConfigParseFailed"
  | .configValidateFailed => "ConfigValidateFailed"
  | .shmOpenFailed => "ShmOpenFailed"
  | .shmFstatFailed => "ShmFstatFailed"
  | .shmResizeFailed => "ShmResizeFailed"
  | .shmMmapFailed => "ShmMmapFailed"
  | .shmHeaderInvalid => "ShmHeaderInvalid"
  | .shmHeaderCorrupted => "ShmHeaderCorrupted"
  | .invalidOrderId => "InvalidOrderId"
  | .duplicateOrder => "DuplicateOrder"
  | .orderBookFull => "OrderBookFull"
  | .orderNotFound => "OrderNotFound"
  | .queueFull => "QueueFull"
  | .queuePushFailed => "QueuePushFailed"
  | .queuePopFailed => "QueuePopFailed"
  | .routeFailed => "RouteFailed"
  | .splitFailed => "SplitFailed"
  | .orderInvariantBroken => "OrderInvariantBroken"
  | .orderPoolFull => "OrderPoolFull"
  | .positionUpdateFailed => "PositionUpdateFailed"
  | .loggerInitFailed => "LoggerInitFailed"
  | .loggerThreadFailed => "LoggerThreadFailed"
  | .loggerQueueFull => "LoggerQueueFull"

instance neZero_twentyFour : NeZero (24 : Nat) := ⟨by decide⟩

instance neZero_ninetySix : NeZero (96 : Nat) := ⟨by decide⟩

instance neZero_twoHundredFiftySix : NeZero (256 : Nat) := ⟨by decide⟩

/-- `LogRecord`, whose code is missing when there is no error. -/
structure LogRecord where
  level : LogLevel := .info
  severity : ErrorSeverity := .recoverable
  sysErrno : Int32 := 0
  line : UInt32 := 0
  module : FixedString 24 := FixedString.clear
  file : FixedString 96 := FixedString.clear
  message : FixedString 256 := FixedString.clear
  domain : ErrorDomain := .none
  code : Option ErrorCode := none

/-! ## The layout of a record -/

/-- `make_field`: the text in a field of `n` bytes, cut and filled up with zeros. -/
def makeField (n : Nat) (text : Bytes) : Bytes :=
  text.take (n - 1) ++ List.replicate (n - min (n - 1) text.length) 0

theorem length_makeField (n : Nat) (text : Bytes) : (makeField n text).length = n := by
  rw [makeField, List.length_append, List.length_take, List.length_replicate]
  omega

/-- What the rings see of a record format: its number, the size of its payload, and the payload of a
record. -/
structure RecordFormat where
  recordLogId : UInt8
  recordLogPayloadSize : Nat
  pack : LogRecord → Bytes
  length_pack : ∀ r, (pack r).length = recordLogPayloadSize
  fits : recordLogPayloadSize ≤ kLogMaxVarPayload

/-- The payload of a record: its fields one behind another. -/
def packRecord (r : LogRecord) : Bytes :=
  let file := if r.file.isEmpty then asciiBytes "<unknown>".toList else r.file.view
  makeField 96 file ++ leBytes 4 r.line.toNat ++ makeField 16 (asciiBytes r.severity.text.toList) ++
    makeField 32 (asciiBytes ((r.code.map ErrorCode.text).getD "Ok").toList) ++
    makeField 16 (asciiBytes r.domain.text.toList) ++ leBytes 4 r.sysErrno.toUInt32.toNat ++
    makeField 256 r.message.view

/-- `ProjectLogFormat`. -/
def projectLogFormat : RecordFormat where
  recordLogId := 64
  recordLogPayloadSize := 96 + 4 + 16 + 32 + 16 + 4 + 256
  pack := packRecord
  length_pack r := by
    simp only [packRecord, List.length_append, length_makeField, length_leBytes]
  fits := by decide

/-! ## Modules -/

/-- The characters that the names of modules are compared without. -/
def isSeparator (ch : UInt8) : Bool := ch = 95 || ch = 45 || ch = 32

/-- `std::tolower`, of the letters that it changes. -/
def toLower (ch : UInt8) : UInt8 := if 65 ≤ ch ∧ ch ≤ 90 then ch + 32 else ch

/-- `matches_module_alias`: the names are equal but for case and separators. -/
def matchesModuleAlias (actual expected : Bytes) : Bool :=
  (actual.filter fun ch => !isSeparator ch).map toLower =
    (expected.filter fun ch => !isSeparator ch).map toLower

/-- The names that `project_log_module_from_name` tries in turn, with the numbers of their
modules. -/
def moduleAliases : List (String × UInt8) :=
  [("account_service", 1), ("AccountService", 1), ("api", 2), ("config_manager", 3),
    ("ConfigManager", 3), ("event_loop", 4), ("EventLoop", 4), ("gateway", 5), ("gateway_loop", 6),
    ("order_api", 7), ("order_recovery", 8), ("order_router", 9), ("orders_shm", 10),
    ("position_loader", 11), ("position_manager", 12), ("PositionManager", 12),
    ("shm_manager", 13), ("test_logger", 15), ("test", 14)]

/-- `project_log_module_from_name`. -/
def projectLogModuleFromName (name : Bytes) : UInt8 :=
  ((moduleAliases.find? fun entry => matchesModuleAlias name (asciiBytes entry.1.toList)).map
    Prod.snd).getD 0

/-! ## The logger -/

/-- The slot of a formatted record. -/
def formatEntry (level : LogLevel) (ts : UInt64) (moduleId formatFuncId : UInt8) (payload : Bytes) :
    LogEntry where
  tsTsc := ts
  typeId := msgFormat
  level := UInt8.ofNat level.toNat
  msgId := formatFuncId
  moduleId := moduleId
  payloadSize := UInt16.ofNat payload.length
  payload := payload

/-- The entry of the byte ring for a formatted record. -/
def formatVarEntry (level : LogLevel) (ts : UInt64) (moduleId formatFuncId : UInt8)
    (payload : Bytes) (fits : payload.length ≤ kLogMaxVarPayload) : LogVarEntry where
  tsTsc := ts
  typeId := msgFormat
  level := UInt8.ofNat level.toNat
  msgId := formatFuncId
  moduleId := moduleId
  payload := payload
  short := Nat.lt_of_le_of_lt fits (by decide)

/-- `log_write_fmt`, with the payload that its arguments are packed into: a slot if the payload fits
one. -/
def logWriteFmt (l : ShmLogger) (level : LogLevel) (ts : UInt64) (moduleId formatFuncId : UInt8)
    (payload : Bytes) (fits : payload.length ≤ kLogMaxVarPayload) : Bool × ShmLogger :=
  if payload.length ≤ kLogMaxPayload then
    l.tryPush (formatEntry level ts moduleId formatFuncId payload)
  else l.tryPushVariable (formatVarEntry level ts moduleId formatFuncId payload fits)

/-- `AsyncLogger::Impl`. -/
structure AsyncLogger where
  logger : ShmLogger := .init
  minLevel : LogLevel := .info
  asyncEnabled : Bool := true
  healthy : Bool := true
  dropped : Nat := 0
  pendingFixedEntries : Nat := 0
  pendingVariableBytes : Nat := 0

namespace AsyncLogger

/-- `account_pending_payload`. -/
def accountPendingPayload (a : AsyncLogger) (payloadSize : Nat) : AsyncLogger :=
  if payloadSize ≤ kLogMaxPayload then
    { a with
      -- The count goes on past the size of the ring, and each record past it is a dropped one.
      pendingFixedEntries := a.pendingFixedEntries + 1
      dropped := if a.pendingFixedEntries + 1 > kBufferCapacity then a.dropped + 1 else a.dropped }
  else
    { a with
      pendingVariableBytes := a.pendingVariableBytes + (kVarHeaderSize + payloadSize)
      dropped :=
        if a.pendingVariableBytes + (kVarHeaderSize + payloadSize) > kBufferVarSize then
          a.dropped + 1
        else a.dropped }

/-- `reopen_locked`. -/
def reopenLocked (a : AsyncLogger) : AsyncLogger :=
  { a with
    logger := .init
    pendingFixedEntries := 0
    pendingVariableBytes := 0
    healthy := true }

/-- `drain_locked(true)`: what the reader decodes of the rings, and the logger with new ones. -/
def drainLocked (a : AsyncLogger) : LogRead × AsyncLogger :=
  (LogReader.run a.logger.shm, a.reopenLocked)

/-- `write_record_locked`. -/
def writeRecordLocked (f : RecordFormat) (a : AsyncLogger) (ts : UInt64) (record : LogRecord) :
    Bool × AsyncLogger :=
  let written := logWriteFmt a.logger record.level ts (projectLogModuleFromName record.module.view)
    f.recordLogId (f.pack record) ((f.length_pack record).symm ▸ f.fits)
  let a' := { a with logger := written.2 }
  if written.1 then (true, a'.accountPendingPayload f.recordLogPayloadSize)
  else (false, { a' with healthy := false })

/-- `AsyncLogger::log`, with what is drained on the way when the logger is not asynchronous. -/
def log (f : RecordFormat) (a : AsyncLogger) (ts : UInt64) (record : LogRecord) :
    List LogRead × AsyncLogger :=
  if record.level.toNat < a.minLevel.toNat then ([], a)
  else
    let written := a.writeRecordLocked f ts record
    if !written.1 then ([], { written.2 with dropped := written.2.dropped + 1 })
    -- A logger that is not asynchronous drains behind every record.
    else if !a.asyncEnabled then ([written.2.drainLocked.1], written.2.drainLocked.2)
    else ([], written.2)

/-- A number of records, with their times. -/
def logAll (f : RecordFormat) (a : AsyncLogger) (records : List (UInt64 × LogRecord)) :
    AsyncLogger :=
  records.foldl (fun a entry => (a.log f entry.1 entry.2).2) a

/-- The records that a logger writes: those of its level and above. -/
def written (a : AsyncLogger) (records : List (UInt64 × LogRecord)) : List (UInt64 × LogRecord) :=
  records.filter fun entry => a.minLevel.toNat ≤ entry.2.level.toNat

end AsyncLogger

/-- The number of entries that a read decodes. -/
def LogRead.count (r : LogRead) : Nat := r.fixed.length + r.ofVar.length

end AccountServices
