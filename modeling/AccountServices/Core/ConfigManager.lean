import AccountServices.Execution.SessionState
import AccountServices.Portfolio.PositionLoader
import AccountServices.Risk.RiskManager

/-!
# The configuration manager

`core/config_manager.cpp`: a configuration is read from a YAML document over the current one,
section by section, and validated. The YAML library hands a document over as a node tree or as an
exception with a text, and `std::stod` reads the floating point values, which nothing here computes
with: both are parameters. An answer is the error that was reported, or none for `true`.
-/

set_option autoImplicit false

namespace AccountServices

open Foundation

/-- The bytes of a literal. -/
def textOf (text : String) : Bytes := asciiBytes text.toList

/-! ## Configurations -/

/-- `SHMConfig`. -/
structure ShmConfig where
  upstreamShmName : Bytes := textOf "/upstream_order_shm"
  downstreamShmName : Bytes := textOf "/downstream_order_shm"
  tradesShmName : Bytes := textOf "/trades_shm"
  ordersShmName : Bytes := textOf "/orders_shm"
  positionsShmName : Bytes := textOf "/positions_shm"
  createIfNotExist : Bool := true

/-- `EventLoopConfig`. -/
structure EventLoopConfig where
  busyPolling : Bool := true
  pollBatchSize : UInt32 := 64
  idleSleepUs : UInt32 := 0
  statsIntervalMs : UInt32 := 1000
  archiveTerminalOrders : Bool := false
  terminalArchiveDelayMs : UInt32 := 2000
  pinCpu : Bool := false
  cpuCore : Int32 := -1

/-- `MarketDataConfig`. -/
structure MarketDataConfig where
  enabled : Bool := false
  snapshotShmName : Bytes := textOf "/signal_xshg_v2"
  allowOrderPriceFallback : Bool := false

/-- `ActiveStrategyConfig`. -/
structure ActiveStrategyConfig (D : Type) where
  enabled : Bool := false
  name : Bytes := textOf "none"
  signalThreshold : D

/-- `LogConfig`. -/
structure LogConfig where
  logDir : Bytes := textOf "./logs"
  logLevel : Bytes := textOf "info"
  asyncLogging : Bool := true
  asyncQueueSize : UInt64 := 8192

/-- `BusinessLogConfig`. -/
structure BusinessLogConfig where
  enabled : Bool := true
  outputDir : Bytes := textOf "./logs"
  queueCapacity : UInt64 := 65536
  flushIntervalMs : UInt32 := 100

/-- `DBConfig`. -/
structure DbConfig where
  dbPath : Bytes := []
  enablePersistence : Bool := true
  syncIntervalMs : UInt32 := 1000

namespace ConfigManager

/-- `RiskConfig`, with the limit that no rule is built from. -/
structure RiskConfig extends AccountServices.RiskConfig where
  maxDailyTurnover : DValue := 0

/-- `split_config`, with its factor. -/
structure SplitConfig (D : Type) extends AccountServices.SplitConfig where
  randomizeFactor : D

/-- `Config`. -/
structure Config (D : Type) where
  accountId : UInt32 := 1
  tradingDay : Bytes := textOf "19700101"
  configFile : Bytes := []
  shm : ShmConfig := {}
  eventLoop : EventLoopConfig := {}
  marketData : MarketDataConfig := {}
  activeStrategy : ActiveStrategyConfig D
  risk : RiskConfig := {}
  split : SplitConfig D
  log : LogConfig := {}
  businessLog : BusinessLogConfig := {}
  db : DbConfig := {}

/-- A default constructed configuration. -/
instance {D : Type} [Zero D] : Inhabited (Config D) :=
  ⟨{ activeStrategy := { signalThreshold := 0 }, split := { randomizeFactor := 0 } }⟩

end ConfigManager

/-! ## Values -/

/-- `ConfigValueParseError`. -/
inductive ConfigValueParseError where
  | invalidBool | invalidU32 | invalidU64 | invalidI32 | invalidDouble | invalidSplitStrategy
  | invalidTradingDay | outOfRange | unknownKey
  deriving DecidableEq, Repr

/-- `config_value_parse_error_message`. -/
def ConfigValueParseError.message : ConfigValueParseError → String
  | .invalidBool => "invalid boolean value"
  | .invalidU32 => "invalid uint32 value"
  | .invalidU64 => "invalid uint64 value"
  | .invalidI32 => "invalid int32 value"
  | .invalidDouble => "invalid double value"
  | .invalidSplitStrategy => "invalid split strategy"
  | .invalidTradingDay => "invalid trading day"
  | .outOfRange => "numeric value out of range"
  | .unknownKey => "unknown key"

/-- `is_valid_trading_day_value`. -/
def isValidTradingDayValue (tradingDay : Bytes) :
    Bool := tradingDay.length == 8 && tradingDay.all isDigit

/-- The exceptions of `std::stod`. -/
inductive StodFailure where
  | invalidArgument | outOfRange
  deriving DecidableEq, Repr

/-- The result of `std::from_chars`: no number, a number outside the type, or a value and the text
behind it. -/
inductive FromCharsResult where
  | invalidArgument
  | resultOutOfRange
  | parsed (value : Int) (rest : Bytes)

/-- `std::from_chars` in base ten for an integer type with the values from `lo` to `hi`: the longest
prefix of digits, behind a minus if the type has negative values. -/
def fromChars (lo hi : Int) (text : Bytes) : FromCharsResult :=
  let negative : Bool := decide (lo < 0) && text.head? == some (UInt8.ofNat '-'.toNat)
  let unsignedText := if negative then text.tail else text
  let digits := unsignedText.takeWhile isDigit
  let value : Int := if negative then -(digitsValue digits : Int) else digitsValue digits
  if digits.isEmpty then .invalidArgument
  else if value < lo ∨ hi < value then .resultOutOfRange
  else .parsed value (unsignedText.dropWhile isDigit)

namespace ConfigManager

/-- `parse_integral`. One plus sign is taken off here, since `from_chars` reads none. -/
def parseIntegral (lo hi : Int) (error : ConfigValueParseError) (rawValue : Bytes) :
    Except ConfigValueParseError Int :=
  let value := trimCopy rawValue
  let value := if value.head? = some (UInt8.ofNat '+'.toNat) then value.tail else value
  if value.isEmpty then .error error
  else match fromChars lo hi value with
    | .parsed n [] => .ok n
    | .resultOutOfRange => .error .outOfRange
    | _ => .error error

/-- `parse_bool`. -/
def parseBool (rawValue : Bytes) : Except ConfigValueParseError Bool :=
  let value := toLowerCopy (trimCopy rawValue)
  if value ∈ ["1", "true", "yes", "on"].map textOf then .ok true
  else if value ∈ ["0", "false", "no", "off"].map textOf then .ok false
  else .error .invalidBool

/-- `parse_u32`. -/
def parseU32 (value : Bytes) : Except ConfigValueParseError UInt32 :=
  (parseIntegral 0 4294967295 .invalidU32 value).map fun n => UInt32.ofNat n.toNat

/-- `parse_u64`. -/
def parseU64 (value : Bytes) : Except ConfigValueParseError UInt64 :=
  (parseIntegral 0 18446744073709551615 .invalidU64 value).map fun n => UInt64.ofNat n.toNat

/-- `parse_i32`. -/
def parseI32 (value : Bytes) : Except ConfigValueParseError Int32 :=
  (parseIntegral (-2147483648) 2147483647 .invalidI32 value).map Int32.ofInt

/-- `parse_double`. The text must be consumed as a whole. -/
def parseDouble {D : Type} (stod : Bytes → Except StodFailure (D × Nat)) (rawValue : Bytes) :
    Except ConfigValueParseError D :=
  let value := trimCopy rawValue
  if value.isEmpty then .error .invalidDouble
  else match stod value with
    | .ok (parsed, consumed) => if consumed = value.length then .ok parsed else
        .error .invalidDouble
    | .error .outOfRange => .error .outOfRange
    | .error .invalidArgument => .error .invalidDouble

/-- `parse_split_strategy`. -/
def parseSplitStrategy (rawValue : Bytes) : Except ConfigValueParseError SplitStrategy :=
  let value := toLowerCopy (trimCopy rawValue)
  if value = textOf "none" then .ok .none
  else if value ∈ ["fixed", "fixed_size", "fixedsize"].map textOf then .ok .fixedSize
  else if value = textOf "twap" then .ok .twap
  else if value = textOf "vwap" then .ok .vwap
  else if value = textOf "iceberg" then .ok .iceberg
  else .error .invalidSplitStrategy

/-- The check that `apply_value` makes of a trading day. -/
def parseTradingDay (value : Bytes) : Except ConfigValueParseError Bytes :=
  if isValidTradingDayValue value then .ok value else .error .invalidTradingDay

/-- A text is stored as it stands. -/
def parseText (value : Bytes) : Except ConfigValueParseError Bytes := .ok value

/-! ## Settings -/

section Settings

variable {D : Type}

/-- One branch of `apply_value`: the keys it is for, and what it does with the trimmed value. -/
structure Setting (D : Type) where
  keys : List Bytes
  assign : Config D → Bytes → Except ConfigValueParseError (Config D)

/-- `assign_parsed`. -/
def Setting.of {T : Type} (keys : List String) (parse : Bytes → Except ConfigValueParseError T)
    (assign : Config D → T → Config D) : Setting D where
  keys := keys.map textOf
  assign cfg value := (parse value).map (assign cfg)

/-- The branches of `apply_value` in their order. -/
def settings (stod : Bytes → Except StodFailure (D × Nat)) : List (Setting D) :=
  [ .of ["account_id"] parseU32 fun cfg v => { cfg with accountId := v },
    .of ["trading_day"] parseTradingDay fun cfg v => { cfg with tradingDay := v },
    .of ["shm.upstream_shm_name"] parseText fun cfg v => { cfg with shm.upstreamShmName := v },
    .of ["shm.downstream_shm_name"] parseText fun cfg v => { cfg with shm.downstreamShmName := v },
    .of ["shm.trades_shm_name"] parseText fun cfg v => { cfg with shm.tradesShmName := v },
    .of ["shm.orders_shm_name"] parseText fun cfg v => { cfg with shm.ordersShmName := v },
    .of ["shm.positions_shm_name"] parseText fun cfg v => { cfg with shm.positionsShmName := v },
    .of ["shm.create_if_not_exist"] parseBool fun cfg v => { cfg with shm.createIfNotExist := v },
    -- The keys of the event loop are known under both spellings of their section.
    .of ["event_loop.busy_polling", "EventLoop.busy_polling"] parseBool
      fun cfg v => { cfg with eventLoop.busyPolling := v },
    .of ["event_loop.poll_batch_size", "EventLoop.poll_batch_size"] parseU32
      fun cfg v => { cfg with eventLoop.pollBatchSize := v },
    .of ["event_loop.idle_sleep_us", "EventLoop.idle_sleep_us"] parseU32
      fun cfg v => { cfg with eventLoop.idleSleepUs := v },
    .of ["event_loop.stats_interval_ms", "EventLoop.stats_interval_ms"] parseU32
      fun cfg v => { cfg with eventLoop.statsIntervalMs := v },
    .of ["event_loop.archive_terminal_orders", "EventLoop.archive_terminal_orders"] parseBool
      fun cfg v => { cfg with eventLoop.archiveTerminalOrders := v },
    .of ["event_loop.terminal_archive_delay_ms", "EventLoop.terminal_archive_delay_ms"] parseU32
      fun cfg v => { cfg with eventLoop.terminalArchiveDelayMs := v },
    .of ["event_loop.pin_cpu", "EventLoop.pin_cpu"] parseBool
      fun cfg v => { cfg with eventLoop.pinCpu := v },
    .of ["event_loop.cpu_core", "EventLoop.cpu_core"] parseI32
      fun cfg v => { cfg with eventLoop.cpuCore := v },
    .of ["market_data.enabled"] parseBool fun cfg v => { cfg with marketData.enabled := v },
    .of ["market_data.snapshot_shm_name"] parseText
      fun cfg v => { cfg with marketData.snapshotShmName := v },
    .of ["market_data.allow_order_price_fallback"] parseBool
      fun cfg v => { cfg with marketData.allowOrderPriceFallback := v },
    .of ["active_strategy.enabled"] parseBool fun cfg v => { cfg with activeStrategy.enabled := v },
    .of ["active_strategy.name"] parseText fun cfg v => { cfg with activeStrategy.name := v },
    .of ["active_strategy.signal_threshold"] (parseDouble stod)
      fun cfg v => { cfg with activeStrategy.signalThreshold := v },
    .of ["risk.max_order_value"] parseU64 fun cfg v => { cfg with risk.maxOrderValue := v },
    .of ["risk.max_order_volume"] parseU64 fun cfg v => { cfg with risk.maxOrderVolume := v },
    .of ["risk.max_daily_turnover"] parseU64 fun cfg v => { cfg with risk.maxDailyTurnover := v },
    .of ["risk.max_orders_per_second"] parseU32 fun cfg v =>
      { cfg with risk.maxOrdersPerSecond := v },
    .of ["risk.enable_price_limit_check"] parseBool
      fun cfg v => { cfg with risk.enablePriceLimitCheck := v },
    .of ["risk.enable_duplicate_check"] parseBool
      fun cfg v => { cfg with risk.enableDuplicateCheck := v },
    .of ["risk.enable_fund_check"] parseBool fun cfg v => { cfg with risk.enableFundCheck := v },
    .of ["risk.enable_position_check"] parseBool fun cfg v =>
      { cfg with risk.enablePositionCheck := v },
    .of ["risk.duplicate_window_ns"] parseU64 fun cfg v => { cfg with risk.duplicateWindowNs := v },
    .of ["split.strategy"] parseSplitStrategy fun cfg v => { cfg with split.strategy := v },
    .of ["split.max_child_volume"] parseU64 fun cfg v => { cfg with split.maxChildVolume := v },
    .of ["split.min_child_volume"] parseU64 fun cfg v => { cfg with split.minChildVolume := v },
    .of ["split.max_child_count"] parseU32 fun cfg v => { cfg with split.maxChildCount := v },
    .of ["split.interval_ms"] parseU32 fun cfg v => { cfg with split.intervalMs := v },
    .of ["split.randomize_factor"] (parseDouble stod) fun cfg v =>
      { cfg with split.randomizeFactor := v },
    .of ["log.log_dir"] parseText fun cfg v => { cfg with log.logDir := v },
    .of ["log.log_level"] parseText fun cfg v => { cfg with log.logLevel := v },
    .of ["log.async_logging"] parseBool fun cfg v => { cfg with log.asyncLogging := v },
    .of ["log.async_queue_size"] parseU64 fun cfg v => { cfg with log.asyncQueueSize := v },
    .of ["business_log.enabled"] parseBool fun cfg v => { cfg with businessLog.enabled := v },
    .of ["business_log.output_dir"] parseText fun cfg v => { cfg with businessLog.outputDir := v },
    .of ["business_log.queue_capacity"] parseU64 fun cfg v =>
      { cfg with businessLog.queueCapacity := v },
    .of ["business_log.flush_interval_ms"] parseU32
      fun cfg v => { cfg with businessLog.flushIntervalMs := v },
    .of ["db.db_path"] parseText fun cfg v => { cfg with db.dbPath := v },
    .of ["db.enable_persistence"] parseBool fun cfg v => { cfg with db.enablePersistence := v },
    .of ["db.sync_interval_ms"] parseU32 fun cfg v => { cfg with db.syncIntervalMs := v } ]

/-- `apply_value`. -/
def applyValue (stod : Bytes → Except StodFailure (D × Nat)) (cfg : Config D)
    (key rawValue : Bytes) : Except ConfigValueParseError (Config D) :=
  match (settings stod).find? fun setting => decide (key ∈ setting.keys) with
  | some setting => setting.assign cfg (trimCopy rawValue)
  | none => .error .unknownKey

end Settings

end ConfigManager

/-! ## Documents -/

/-- A node of a document, as the library delivers it. What a sequence holds is never read. -/
inductive YamlNode where
  | null
  | scalar (text : Bytes)
  | sequence
  | map (entries : List (YamlNode × YamlNode))

namespace YamlNode

/-- `as<std::string>` of a node that is a scalar. -/
def text : YamlNode → Bytes
  | .scalar text => text
  | _ => []

/-- Whether a key of a mapping is the scalar `key`. -/
def hasText (key : Bytes) : YamlNode → Bool
  | .scalar text => decide (text = key)
  | _ => false

/-- `root[key]`: of the entries with that key, the first. -/
def lookup (entries : List (YamlNode × YamlNode)) (key : Bytes) : Option YamlNode :=
  (entries.find? fun entry => entry.1.hasText key).map Prod.snd

end YamlNode

namespace ConfigManager

/-- What `report_config_error` is given. -/
structure ConfigError where
  code : ErrorCode
  message : Bytes
  deriving DecidableEq

/-- `report_yaml_parse_error`. -/
def yamlParseError (path : Bytes) (reason : String) : ConfigError :=
  ⟨.configParseFailed, textOf "invalid config key '" ++ path ++ textOf "': " ++ textOf reason⟩

/-- `read_scalar_string`. -/
def readScalarString (path : Bytes) : YamlNode → Except ConfigError Bytes
  | .scalar text => .ok text
  | _ => .error (yamlParseError path "value must be scalar")

/-- A section of the document: its name, empty for the root, and the keys that it may have. -/
structure SectionKeys where
  name : Bytes
  allowedKeys : List Bytes

/-- A section from literals. -/
def SectionKeys.of (name : String) (allowedKeys : List String) : SectionKeys :=
  ⟨textOf name, allowedKeys.map textOf⟩

/-- The path under which a key of the section is reported and applied. -/
def SectionKeys.path (s : SectionKeys) (key : Bytes) : Bytes :=
  if s.name.isEmpty then key else s.name ++ textOf "." ++ key

/-- The error for a key that is not a scalar. -/
def SectionKeys.nonScalarKey (s : SectionKeys) : ConfigError :=
  ⟨.configParseFailed,
    if s.name.isEmpty then textOf "non-scalar root key is not allowed"
    else textOf "non-scalar key in section '" ++ s.name ++ textOf "' is not allowed"⟩

/-- `check_allowed_keys`. -/
def checkAllowedKeys (s : SectionKeys) : List (YamlNode × YamlNode) → Except ConfigError Unit
  | [] => .ok ()
  | (.scalar key, _) :: entries =>
      if key ∈ s.allowedKeys then checkAllowedKeys s entries
      else .error (yamlParseError (s.path key) "unknown key")
  | _ :: _ => .error s.nonScalarKey

/-- The keys of the root. -/
def rootKeys : SectionKeys :=
  .of "" ["account_id", "trading_day", "shm", "event_loop", "EventLoop",
    "market_data", "active_strategy", "risk", "split", "log", "business_log", "db"]

/-- The keys that are settings of the root, in the order in which they are read. -/
def rootSettings : List Bytes := ["account_id", "trading_day"].map textOf

/-- The sections in the order in which they are parsed. -/
def sections : List SectionKeys :=
  [ .of "shm" ["upstream_shm_name", "downstream_shm_name", "trades_shm_name", "orders_shm_name",
      "positions_shm_name", "create_if_not_exist"],
    .of "event_loop" ["busy_polling", "poll_batch_size", "idle_sleep_us", "stats_interval_ms",
      "archive_terminal_orders", "terminal_archive_delay_ms", "pin_cpu", "cpu_core"],
    .of "EventLoop" ["busy_polling", "poll_batch_size", "idle_sleep_us", "stats_interval_ms",
      "archive_terminal_orders", "terminal_archive_delay_ms", "pin_cpu", "cpu_core"],
    .of "market_data" ["enabled", "snapshot_shm_name", "allow_order_price_fallback"],
    .of "active_strategy" ["enabled", "name", "signal_threshold"],
    .of "risk" ["max_order_value", "max_order_volume", "max_daily_turnover",
      "max_orders_per_second",
      "enable_price_limit_check", "enable_duplicate_check", "enable_fund_check",
        "enable_position_check",
      "duplicate_window_ns"],
    .of "split" ["strategy", "max_child_volume", "min_child_volume",
      "max_child_count", "interval_ms", "randomize_factor"],
    .of "log" ["log_dir", "log_level", "async_logging", "async_queue_size"],
    .of "business_log" ["enabled", "output_dir", "queue_capacity", "flush_interval_ms"],
    .of "db" ["db_path", "enable_persistence", "sync_interval_ms"] ]

section Loading

variable {D : Type}

/-- What a setting goes through: `read_scalar_string`, then `apply_value`, whose error is reported
under the path of the setting. -/
def enterSetting (stod : Bytes → Except StodFailure (D × Nat)) (path : Bytes) (node : YamlNode)
    (cfg : Config D) : Except ConfigError (Config D) := do
  let value ← readScalarString path node
  match applyValue stod cfg path value with
  | .ok cfg => .ok cfg
  | .error error => .error (yamlParseError path error.message)

/-- The settings of the root. -/
def parseRootSetting (stod : Bytes → Except StodFailure (D × Nat))
    (root : List (YamlNode × YamlNode))
    (key : Bytes) (cfg : Config D) : Except ConfigError (Config D) :=
  match YamlNode.lookup root key with
  | none => .ok cfg
  | some node => enterSetting stod key node cfg

/-- `parse_section`. The middle branch is `ensure_mapping`. -/
def parseSection (stod : Bytes → Except StodFailure (D × Nat)) (root : List (YamlNode × YamlNode))
    (s : SectionKeys) (cfg : Config D) : Except ConfigError (Config D) :=
  match YamlNode.lookup root s.name with
  | none => .ok cfg
  | some (.map entries) => do
      checkAllowedKeys s entries
      entries.foldlM (fun cfg entry => enterSetting stod (s.path entry.1.text) entry.2 cfg) cfg
  | some _ => .error ⟨.configParseFailed, textOf "section '" ++ s.name ++ textOf "' must be a map"⟩

/-- What `load_from_file` makes of the root of the document. -/
def readRoot (stod : Bytes → Except StodFailure (D × Nat)) (cfg : Config D) :
    YamlNode → Except ConfigError (Config D)
  | .null => .ok cfg
  | .map root => do
      checkAllowedKeys rootKeys root
      let cfg ← rootSettings.foldlM (fun cfg key => parseRootSetting stod root key cfg) cfg
      sections.foldlM (fun cfg s => parseSection stod root s cfg) cfg
  | _ => .error ⟨.configParseFailed, textOf "root YAML node must be a map"⟩

/-! ## The manager -/

/-- An error of `validate`. -/
def validateError (message : String) : ConfigError := ⟨.configValidateFailed, textOf message⟩

/-- `validate`. -/
def Config.validate (c : Config D) : Option ConfigError :=
  if c.accountId = 0 then some (validateError "account_id must be non-zero")
  else if isValidTradingDayValue c.tradingDay = false then
    some (validateError "trading_day must be YYYYMMDD")
  else if c.shm.upstreamShmName = [] ∨ c.shm.downstreamShmName = [] ∨ c.shm.tradesShmName = [] ∨
      c.shm.ordersShmName = [] ∨ c.shm.positionsShmName = [] then
    some (validateError "shm names must be non-empty")
  else if c.marketData.enabled = true ∧ c.marketData.snapshotShmName = [] then
    some (validateError "market_data snapshot_shm_name must be non-empty")
  else if c.activeStrategy.enabled = true ∧ c.marketData.enabled = false then
    some (validateError "active_strategy requires market_data.enabled=true")
  else if c.split.strategy ≠ .none ∧ c.marketData.enabled = false ∧
      c.marketData.allowOrderPriceFallback = false then
    some (validateError "managed execution requires market_data.enabled=true")
  else if c.eventLoop.pollBatchSize = 0 then some (validateError "poll_batch_size must be non-zero")
  else if c.split.strategy ≠ .none ∧ c.split.maxChildCount = 0 then
    some (validateError "split max_child_count must be non-zero")
  else if c.businessLog.enabled = true then
    if c.businessLog.outputDir = [] then
      some (validateError "business_log output_dir must be non-empty")
    else if c.businessLog.queueCapacity < 2 then
      some (validateError "business_log queue_capacity must be >= 2")
    else if 4294967295 ≤ c.businessLog.queueCapacity then
      some (validateError "business_log queue_capacity must fit in uint32_t")
    else if c.businessLog.flushIntervalMs = 0 then
      some (validateError "business_log flush_interval_ms must be non-zero")
    else none
  else none

end Loading

end ConfigManager

/-- The YAML library's `LoadFile`, with the text of its exception, and `std::stod` with the number
of characters it has consumed. -/
structure ConfigLibrary (D : Type) where
  loadFile : Bytes → Except Bytes YamlNode
  stod : Bytes → Except StodFailure (D × Nat)

/-- `ConfigManager`. `get` is the field `config`. -/
structure ConfigManager (D : Type) where
  config : ConfigManager.Config D
  configPath : Bytes := []

namespace ConfigManager

variable {D : Type}

/-- `load_from_file`. The member is assigned before it is validated. -/
def loadFromFile (lib : ConfigLibrary D) (m : ConfigManager D) (configPath : Bytes) :
    Option ConfigError × ConfigManager D :=
  match lib.loadFile configPath with
  | .error what => (some ⟨.configParseFailed, what⟩, m)
  | .ok root =>
      match readRoot lib.stod { m.config with configFile := configPath } root with
      | .error error => (some error, m)
      | .ok loaded => (loaded.validate, { config := loaded, configPath := configPath })

/-- `reload`. -/
def reload (lib : ConfigLibrary D) (m : ConfigManager D) : Option ConfigError × ConfigManager D :=
  if m.configPath.isEmpty then
    (some ⟨.invalidState, textOf "reload requested before load_from_file"⟩, m)
  else loadFromFile lib m m.configPath

end ConfigManager

end AccountServices
