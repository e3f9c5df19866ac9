import AccountServices.Core.ConfigManager
import AccountServices.Foundation.Stages

/-!
# Loading a configuration

What a document asks for is said without the loader: a well formed document is a list of settings,
and it describes the configuration that these make of the current one. The loader checks and applies
section by section, and what it reads is exactly that configuration (`enters_readRoot`). It hands it
to the manager before `validate` has seen it, so that a document whose configuration breaks a rule
is rejected and yet applied (`rejected_unapplied_iff`). A document that cannot be read is rejected
with an error of another code, and changes nothing (`run_of_not_offers`).
-/

set_option autoImplicit false

namespace AccountServices

open Foundation

/-! ## What a document describes -/

/-- The entries of a mapping. -/
def YamlNode.entries : YamlNode → List (YamlNode × YamlNode)
  | .map entries => entries
  | _ => []

/-- The node is a scalar. -/
def YamlNode.IsScalar (node : YamlNode) : Prop := ∃ text, node = .scalar text

namespace ConfigManager

variable {D : Type}

/-- The keys of a mapping are scalars that it may have. -/
def SectionKeys.Allows (s : SectionKeys) (entries : List (YamlNode × YamlNode)) : Prop :=
  ∀ entry ∈ entries, ∃ key ∈ s.allowedKeys, entry.1 = .scalar key

/-- A section is a mapping from keys that it may have to scalars. -/
def SectionKeys.Formed (s : SectionKeys) (node : YamlNode) : Prop :=
  (∃ entries, node = .map entries) ∧ s.Allows node.entries ∧
    ∀ entry ∈ node.entries, entry.2.IsScalar

/-- The settings of a section. -/
def SectionKeys.settings (s : SectionKeys) (node : YamlNode) : List (Bytes × Bytes) :=
  node.entries.map fun entry => (s.path entry.1.text, entry.2.text)

/-- A root is a mapping from keys that it may have, whose own settings are scalars and whose
sections are sections. -/
def FormedRoot (root : List (YamlNode × YamlNode)) : Prop :=
  rootKeys.Allows root ∧
    (∀ key ∈ rootSettings, ∀ node ∈ YamlNode.lookup root key, node.IsScalar) ∧
    ∀ s ∈ sections, ∀ node ∈ YamlNode.lookup root s.name, s.Formed node

/-- The settings of a root: its own first, and then those of the sections, whatever the order in the
document. -/
def settingsOfRoot (root : List (YamlNode × YamlNode)) : List (Bytes × Bytes) :=
  (rootSettings.flatMap fun key =>
      (YamlNode.lookup root key).toList.map fun node => (key, node.text)) ++
    sections.flatMap fun s => (YamlNode.lookup root s.name).toList.flatMap s.settings

/-- A document is empty or a root. -/
def WellFormed (node : YamlNode) : Prop :=
  node = .null ∨ (∃ root, node = .map root) ∧ FormedRoot node.entries

/-- A setting is applied under its path. -/
def enter (stod : Bytes → Except StodFailure (D × Nat)) (cfg : Config D) (setting : Bytes × Bytes) :
    Except ConfigValueParseError (Config D) :=
  applyValue stod cfg setting.1 setting.2

/-- The document describes the configuration over the one it starts from. -/
def Describes (stod : Bytes → Except StodFailure (D × Nat)) (node : YamlNode)
    (start cfg : Config D) : Prop :=
  WellFormed node ∧ applyAll (enter stod) (settingsOfRoot node.entries) start = .ok cfg

/-! ## The loader reads what the document describes -/

/-- An error of reading the document. -/
def ConfigError.IsParseError (error : ConfigError) : Prop := error.code = .configParseFailed

/-- A check of the keys passes if all of them are allowed. -/
theorem checkAllowedKeys_eq_ok (s : SectionKeys) (entries : List (YamlNode × YamlNode)) :
    checkAllowedKeys s entries = .ok () ↔ s.Allows entries := by
  induction entries with
  | nil => exact ⟨fun _ _ h => absurd h List.not_mem_nil, fun _ => rfl⟩
  | cons entry entries ih =>
      obtain ⟨key, value⟩ := entry
      have hcons : s.Allows ((key, value) :: entries) ↔
          (∃ k ∈ s.allowedKeys, key = .scalar k) ∧ s.Allows entries := List.forall_mem_cons
      rw [hcons, ← ih]
      cases key with
      | scalar text =>
          -- The check goes on behind a key that is allowed, and ends at the first that is not.
          simp only [checkAllowedKeys]
          by_cases h : text ∈ s.allowedKeys
          · rw [if_pos h]
            exact ⟨fun hrest => ⟨⟨text, h, rfl⟩, hrest⟩, fun hrest => hrest.2⟩
          · rw [if_neg h]
            constructor
            · intro hok
              cases hok
            · rintro ⟨⟨_, hk, heq⟩, -⟩
              cases heq
              exact absurd hk h
      | null | sequence | map =>
          constructor
          · intro hok
            cases hok
          · rintro ⟨⟨_, -, heq⟩, -⟩
            cases heq

theorem isParseError_checkAllowedKeys {s : SectionKeys} {entries : List (YamlNode × YamlNode)}
    {error : ConfigError} (h : checkAllowedKeys s entries = .error error) : error.IsParseError := by
  induction entries with
  | nil => cases h
  | cons entry entries ih =>
      obtain ⟨key, value⟩ := entry
      cases key with
      | scalar text =>
          simp only [checkAllowedKeys] at h
          split at h
          · exact ih h
          · cases h
            rfl
      | null | sequence | map =>
          cases h
          rfl

section Stages

variable (stod : Bytes → Except StodFailure (D × Nat))

/-- A scalar is applied, and an error reported under its path. -/
theorem enterSetting_scalar (path text : Bytes) (cfg : Config D) :
    enterSetting stod path (.scalar text) cfg =
      (applyValue stod cfg path text).mapError fun e => yamlParseError path e.message := by
  cases hvalue : applyValue stod cfg path text with
  | error e =>
      simp only [enterSetting, readScalarString, bind, Except.bind, hvalue, Except.mapError]
  | ok next =>
      simp only [enterSetting, readScalarString, bind, Except.bind, hvalue, Except.mapError]

/-- A setting is entered if it is a scalar and its value is accepted. -/
theorem enters_enterSetting (path : Bytes) (node : YamlNode) :
    Enters (enter stod) ConfigError.IsParseError node.IsScalar [(path, node.text)]
      (enterSetting stod path node) := by
  cases node with
  | scalar text =>
      refine ⟨fun cfg cfg' => ?_, fun cfg error h => ?_⟩
      · rw [enterSetting_scalar, applyAll_singleton]
        have hscalar : (YamlNode.scalar text).IsScalar := ⟨text, rfl⟩
        simp only [enter, YamlNode.text, hscalar, true_and]
        cases applyValue stod cfg path text with
        | error e =>
            constructor
            · intro h
              cases h
            · intro h
              cases h
        | ok next =>
            simp only [Except.mapError, Except.ok.injEq]
      · rw [enterSetting_scalar] at h
        cases hvalue : applyValue stod cfg path text with
        | error e =>
            rw [hvalue] at h
            cases h
            rfl
        | ok next =>
            rw [hvalue] at h
            cases h
  | null | sequence | map =>
      refine Enters.fail rfl ?_
      rintro ⟨_, h⟩
      cases h

/-- A setting of the root. -/
theorem enters_parseRootSetting (root : List (YamlNode × YamlNode)) (key : Bytes) :
    Enters (enter stod) ConfigError.IsParseError (∀ node ∈ YamlNode.lookup root key, node.IsScalar)
      ((YamlNode.lookup root key).toList.map fun node => (key, node.text))
      (parseRootSetting stod root key) := by
  unfold parseRootSetting
  cases YamlNode.lookup root key with
  | none => exact Enters.pure fun _ h => absurd h (Option.not_mem_none _)
  | some node =>
      refine (enters_enterSetting stod key node).congr ?_
      simp only [Option.mem_some_iff, forall_eq']

/-- A section. -/
theorem enters_parseSection (root : List (YamlNode × YamlNode)) (s : SectionKeys) :
    Enters (enter stod) ConfigError.IsParseError
      (∀ node ∈ YamlNode.lookup root s.name, s.Formed node)
      ((YamlNode.lookup root s.name).toList.flatMap s.settings) (parseSection stod root s) := by
  unfold parseSection
  cases YamlNode.lookup root s.name with
  | none => exact Enters.pure fun _ h => absurd h (Option.not_mem_none _)
  | some node =>
      simp only [Option.mem_some_iff, forall_eq', Option.toList_some, List.flatMap_singleton]
      cases node with
      | map entries =>
          -- All keys are checked before the first value is applied.
          have hvalues := Enters.foldlM (l := entries) fun entry _ =>
            enters_enterSetting stod (s.path entry.1.text) entry.2
          have hsection := hvalues.guard (checkAllowedKeys_eq_ok s entries)
            fun _ h => isParseError_checkAllowedKeys h
          rw [← List.map_eq_flatMap] at hsection
          refine hsection.congr ?_
          exact ⟨fun h => ⟨⟨entries, rfl⟩, h⟩, fun h => h.2⟩
      | null | scalar | sequence =>
          refine Enters.fail rfl ?_
          rintro ⟨⟨_, h⟩, -⟩
          cases h

/-- The loader reads what the document describes. -/
theorem enters_readRoot (node : YamlNode) :
    Enters (enter stod) ConfigError.IsParseError (WellFormed node) (settingsOfRoot node.entries)
      (fun cfg => readRoot stod cfg node) := by
  cases node with
  | null => exact Enters.pure (Or.inl rfl)
  | map root =>
      have hroot := Enters.foldlM (l := rootSettings) fun key _ =>
        enters_parseRootSetting stod root key
      have hsections := Enters.foldlM (l := sections) fun s _ =>
        enters_parseSection stod root s
      refine ((hroot.bind hsections).guard (checkAllowedKeys_eq_ok rootKeys root)
        fun _ h => isParseError_checkAllowedKeys h).congr ?_
      constructor
      · intro h
        exact Or.inr ⟨⟨root, rfl⟩, h⟩
      · rintro (h | ⟨-, h⟩)
        · cases h
        · exact h
  | scalar | sequence =>
      refine Enters.fail rfl ?_
      rintro (h | ⟨⟨_, h⟩, -⟩)
      · cases h
      · cases h

end Stages

/-- Every key that a section may have is a branch of `apply_value`, and so is every setting of the
root. -/
theorem path_mem_settings (stod : Bytes → Except StodFailure (D × Nat)) :
    (∀ key ∈ rootSettings, key ∈ (settings stod).flatMap Setting.keys) ∧
      ∀ s ∈ sections, ∀ key ∈ s.allowedKeys, s.path key ∈ (settings stod).flatMap Setting.keys := by
  have hkeys : (settings stod).flatMap Setting.keys =
      (settings (D := Unit) fun _ => .error .invalidArgument).flatMap Setting.keys := rfl
  rw [hkeys]
  decide +kernel

/-! ## Valid configurations -/

/-- The rules of `validate`, one field for each. -/
structure Config.Valid (c : Config D) : Prop where
  accountId : c.accountId ≠ 0
  tradingDay : isValidTradingDayValue c.tradingDay = true
  shmNames : ∀ name ∈ [c.shm.upstreamShmName, c.shm.downstreamShmName, c.shm.tradesShmName,
    c.shm.ordersShmName, c.shm.positionsShmName], name ≠ []
  snapshotName : c.marketData.enabled = true → c.marketData.snapshotShmName ≠ []
  activeStrategy : c.activeStrategy.enabled = true → c.marketData.enabled = true
  managedPrices : c.split.strategy ≠ .none →
    c.marketData.enabled = true ∨ c.marketData.allowOrderPriceFallback = true
  pollBatchSize : c.eventLoop.pollBatchSize ≠ 0
  maxChildCount : c.split.strategy ≠ .none → c.split.maxChildCount ≠ 0
  businessLog : c.businessLog.enabled = true → c.businessLog.outputDir ≠ [] ∧
    2 ≤ c.businessLog.queueCapacity ∧ c.businessLog.queueCapacity < 4294967295 ∧
    c.businessLog.flushIntervalMs ≠ 0

/-- A rule in front of other rules. -/
theorem refuse_eq_none {p : Prop} [Decidable p] {error : ConfigError} {rest : Option ConfigError} :
    (if p then some error else rest) = none ↔ ¬ p ∧ rest = none := by
  split
  next h => simp only [reduceCtorEq, h, not_true, false_and]
  next h => simp only [h, not_false_eq_true, true_and]

/-- `validate` accepts a configuration exactly if it follows the rules. -/
theorem validate_eq_none (c : Config D) : c.validate = none ↔ c.Valid := by
  simp only [Config.validate, refuse_eq_none, ite_eq_right_iff, Bool.not_eq_false, not_or, not_and,
    UInt64.not_lt, UInt64.not_le, reduceCtorEq, imp_false]
  constructor
  · rintro ⟨haccount, hday, hnames, hsnapshot, hstrategy, hmanaged, hbatch, hcount, hlog⟩
    refine ⟨haccount, hday, ?_, hsnapshot, hstrategy, ?_, hbatch, hcount, hlog⟩
    · simpa only [List.forall_mem_cons, List.not_mem_nil, false_implies, implies_true,
        and_true] using hnames
    · intro hsplit
      cases hmarket : c.marketData.enabled with
      | true => exact Or.inl rfl
      | false => exact Or.inr (hmanaged hsplit hmarket)
  · rintro ⟨haccount, hday, hnames, hsnapshot, hstrategy, hmanaged, hbatch, hcount, hlog⟩
    refine ⟨haccount, hday, ?_, hsnapshot, hstrategy, ?_, hbatch, hcount, hlog⟩
    · simpa only [List.forall_mem_cons, List.not_mem_nil, false_implies, implies_true,
        and_true] using hnames
    · intro hsplit hmarket
      exact (hmanaged hsplit).resolve_left (by rw [hmarket]; exact Bool.false_ne_true)

/-- A default constructed configuration is valid. -/
theorem valid_default [Zero D] : (default : Config D).Valid := (validate_eq_none _).1 rfl

/-! ## Calls -/

end ConfigManager

open ConfigManager

/-- The two calls that load a configuration. -/
inductive ConfigCall where
  | loadFromFile (configPath : Bytes)
  | reload

namespace ConfigCall

variable {D : Type} {lib : ConfigLibrary D} {m next : ConfigManager D} {call : ConfigCall}

/-- The answer of a call and the manager after it. -/
def run (lib : ConfigLibrary D) (m : ConfigManager D) :
    ConfigCall → Option ConfigError × ConfigManager D
  | .loadFromFile configPath => ConfigManager.loadFromFile lib m configPath
  | .reload => ConfigManager.reload lib m

/-- The file that a call reads. Without one, `reload` has nothing to read. -/
def file (m : ConfigManager D) : ConfigCall → Option Bytes
  | .loadFromFile configPath => some configPath
  | .reload => if m.configPath.isEmpty then none else some m.configPath

/-- The document that a call reads asks for this state: its path, and what it describes over the
current configuration. -/
def Offers (call : ConfigCall) (lib : ConfigLibrary D) (m next : ConfigManager D) : Prop :=
  call.file m = some next.configPath ∧ ∃ node, lib.loadFile next.configPath = .ok node ∧
    Describes lib.stod node { m.config with configFile := next.configPath } next.config

/-- A call that has a file loads it. -/
theorem run_of_file {configPath : Bytes} (h : call.file m = some configPath) :
    call.run lib m = ConfigManager.loadFromFile lib m configPath := by
  cases call with
  | loadFromFile other =>
      cases h
      rfl
  | reload =>
      rw [file] at h
      split at h
      · cases h
      next hpath =>
        cases h
        rw [run, ConfigManager.reload, if_neg hpath]

/-- What a document asks for is taken over before it is validated. -/
theorem run_of_offers (h : call.Offers lib m next) :
    call.run lib m = (next.config.validate, next) := by
  obtain ⟨hfile, node, hload, hdescribes⟩ := h
  have hread := ((enters_readRoot lib.stod node).ok _ _).2 hdescribes
  rw [run_of_file hfile, ConfigManager.loadFromFile, hload]
  simp only
  rw [hread]

/-- Without a document that describes a configuration nothing changes. -/
theorem run_of_not_offers (h : ∀ next, ¬ call.Offers lib m next) :
    ∃ error, call.run lib m = (some error, m) ∧ error.code ≠ .configValidateFailed := by
  cases hfile : call.file m with
  | none =>
      cases call with
      | loadFromFile configPath => cases hfile
      | reload =>
          rw [file] at hfile
          split at hfile
          next hpath =>
            refine ⟨_, if_pos hpath, fun hcode => ?_⟩
            cases hcode
          · cases hfile
  | some configPath =>
      rw [run_of_file hfile, ConfigManager.loadFromFile]
      cases hload : lib.loadFile configPath with
      | error what =>
          refine ⟨_, rfl, fun hcode => ?_⟩
          cases hcode
      | ok node =>
          simp only
          cases hread : readRoot lib.stod { m.config with configFile := configPath } node with
          | error error =>
              have hparse := (enters_readRoot lib.stod node).error _ _ hread
              refine ⟨error, rfl, fun hcode => ?_⟩
              cases hparse.symm.trans hcode
          | ok cfg =>
              refine absurd ⟨hfile, node, hload, ?_⟩ (h ⟨cfg, configPath⟩)
              exact ((enters_readRoot lib.stod node).ok _ _).1 hread

/-- The answer is `false` and the state as it was, or `true` and the configuration valid. -/
def Sound (m : ConfigManager D) (answer : Option ConfigError × ConfigManager D) : Prop :=
  (answer.1 ≠ none → answer.2.config = m.config ∧ answer.2.configPath = m.configPath) ∧
    (answer.1 = none → answer.2.config.validate = none)

/-- A rejected configuration is not applied, and an accepted one is valid, exactly if what the
document asks for follows the rules or is what the manager has already. -/
theorem rejected_unapplied_iff (lib : ConfigLibrary D) (m : ConfigManager D) (call : ConfigCall) :
    Sound m (call.run lib m) ↔ ∀ next, call.Offers lib m next → next.config.Valid ∨ next = m := by
  constructor
  · rintro ⟨hrejected, -⟩ next hoffers
    rw [run_of_offers hoffers] at hrejected
    by_cases hvalid : next.config.validate = none
    · exact Or.inl ((validate_eq_none _).1 hvalid)
    · -- It was rejected and is in place, so it was there before.
      obtain ⟨hconfig, hpath⟩ := hrejected hvalid
      refine Or.inr ?_
      cases next
      cases m
      cases hconfig
      cases hpath
      rfl
  · intro h
    by_cases hoffers : ∃ next, call.Offers lib m next
    · obtain ⟨next, hnext⟩ := hoffers
      rw [run_of_offers hnext]
      refine ⟨fun hrejected => ?_, fun haccepted => haccepted⟩
      rcases h next hnext with hvalid | rfl
      · exact absurd ((validate_eq_none _).2 hvalid) hrejected
      · exact ⟨rfl, rfl⟩
    · obtain ⟨error, hrun, -⟩ := run_of_not_offers fun next hnext => hoffers ⟨next, hnext⟩
      rw [hrun]
      exact ⟨fun _ => ⟨rfl, rfl⟩, fun haccepted => by cases haccepted⟩

/-- A library that delivers one document, and reads no floating point number. -/
def deliver (node : YamlNode) : ConfigLibrary Float where
  loadFile _ := .ok node
  stod _ := .error .invalidArgument

/-- The document `account_id: 0`. -/
def zeroAccount : YamlNode := .map [(.scalar (textOf "account_id"), .scalar (textOf "0"))]

/-- The rejected account is in place. -/
theorem zero_account_applied :
    ¬ Sound { config := default } (run (deliver zeroAccount) { config := default }
      (.loadFromFile (textOf "account.yaml"))) := by
  rintro ⟨hrejected, -⟩
  obtain ⟨hconfig, -⟩ := hrejected (by decide)
  exact absurd (congrArg Config.accountId hconfig) (by decide)

end ConfigCall

end AccountServices
