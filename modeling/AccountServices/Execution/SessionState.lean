import AccountServices.Order.OrderBook

/-!
# The state of an execution session

`execution/execution_engine.cpp`, the parts that do not touch the order book: the ledgers of the
children, the budget that is derived from them, the state that the parent mirrors, the response
handler, and the slice plan of the TWAP algorithm. FixedSize and Iceberg sessions share one advance
rule and differ in the name they report.
-/

set_option autoImplicit false

namespace AccountServices

open Foundation

/-- `split_config`, without the factor that nothing reads. -/
structure SplitConfig where
  strategy : SplitStrategy := .none
  maxChildVolume : Volume := 0
  minChildVolume : Volume := 100
  maxChildCount : UInt32 := 100
  intervalMs : UInt32 := 0

/-- `resolve_clip_volume`. -/
def SplitConfig.resolveClipVolume (c : SplitConfig) : Volume :=
  if c.maxChildVolume ≠ 0 then c.maxChildVolume else max c.minChildVolume 1

/-- `passive_execution_algo_to_split_strategy`. -/
def PassiveExecutionAlgo.toSplitStrategy : PassiveExecutionAlgo → SplitStrategy
  | .none => .none
  | .fixedSize => .fixedSize
  | .twap => .twap
  | .vwap => .vwap
  | .iceberg => .iceberg
  | .default => .none

/-- `split_strategy_to_passive_execution_algo`. -/
def SplitStrategy.toPassiveExecutionAlgo : SplitStrategy → PassiveExecutionAlgo
  | .fixedSize => .fixedSize
  | .twap => .twap
  | .vwap => .vwap
  | .iceberg => .iceberg
  | .none => .none

/-- `resolve_passive_split_strategy`, and `resolve_execution_strategy` of the engine: the algorithm
named by the order goes before the default of the service. -/
def resolveExecutionStrategy (request : OrderRequest) (c : SplitConfig) : SplitStrategy :=
  if request.passiveExecutionAlgo = .default then c.strategy
  else request.passiveExecutionAlgo.toSplitStrategy

/-- `is_managed_strategy`. -/
def SplitStrategy.isManaged : SplitStrategy → Bool
  | .fixedSize | .twap | .vwap | .iceberg => true
  | .none => false

/-- `is_supported_session_strategy`. -/
def SplitStrategy.isSupported : SplitStrategy → Bool
  | .fixedSize | .twap | .iceberg => true
  | .vwap | .none => false

/-- `is_failure_terminal_state`. -/
def OrderState.isFailureTerminal : OrderState → Bool
  | .traderRejected | .traderError | .brokerRejected | .marketRejected | .unknown => true
  | _ => false

/-! ## The ledger of a child -/

/-- `child_execution_ledger`. -/
structure ChildExecutionLedger where
  childOrderId : InternalOrderId := 0
  shmOrderIndex : OrderIndex := kInvalidOrderIndex
  entrustVolume : Volume := 0
  entrustPrice : DPrice := 0
  confirmedTradedVolume : Volume := 0
  confirmedTradedValue : DValue := 0
  confirmedFee : DValue := 0
  finalCancelledVolume : Volume := 0
  finalized : Bool := false
  cancelRequested : Bool := false
  orderState : OrderState := .notSet

namespace ChildExecutionLedger

/-- `unresolved_volume`. -/
def unresolvedVolume (l : ChildExecutionLedger) : Volume :=
  if l.finalized then 0
  else
    let known := l.confirmedTradedVolume + l.finalCancelledVolume
    -- More may be confirmed than was sent, and then nothing is open.
    if known ≥ l.entrustVolume then 0 else l.entrustVolume - known

/-- `average_traded_price`. -/
def averageTradedPrice (l : ChildExecutionLedger) : DPrice :=
  if l.confirmedTradedVolume = 0 then 0
  else if l.confirmedTradedValue = 0 then 0
  else l.confirmedTradedValue / l.confirmedTradedVolume

/-- The fill of a response. The sum of the volumes is not checked for overflow. -/
def addFill (l : ChildExecutionLedger) (r : TradeResponse) : ChildExecutionLedger :=
  if r.volumeTraded > 0 then
    { l with
      confirmedTradedVolume := min l.entrustVolume (l.confirmedTradedVolume + r.volumeTraded)
      confirmedTradedValue := saturatingAdd l.confirmedTradedValue r.dvalueTraded
      confirmedFee := saturatingAdd l.confirmedFee r.dfee }
  else l

/-- The ledger that `finalize_finished_child` leaves: a cancelled volume is clamped to what is not
confirmed, a missing one is taken to be what is open. -/
def finishWith (l : ChildExecutionLedger) (cancelledVolume : Volume) : ChildExecutionLedger :=
  let cancelled :=
    if cancelledVolume > 0 then
      let maxCancelled :=
        if l.confirmedTradedVolume ≥ l.entrustVolume then 0
        else l.entrustVolume - l.confirmedTradedVolume
      min cancelledVolume maxCancelled
    else if l.unresolvedVolume = 0 then 0
    else l.unresolvedVolume
  { l with finalCancelledVolume := cancelled, finalized := true }

/-- The ledger after a failure: all that is open counts as cancelled. -/
def failOpen (l : ChildExecutionLedger) : ChildExecutionLedger :=
  { l with finalCancelledVolume := l.unresolvedVolume, finalized := true }

end ChildExecutionLedger

/-- The members of a `TwapSession`. -/
structure TwapState where
  startTimeNs : TimestampNs
  intervalNs : TimestampNs
  nextDeadlineNs : TimestampNs
  sliceIndex : Nat := 0
  sliceConsumed : Bool := false
  sliceVolumes : List Volume

/-- The algorithm of a session. -/
inductive SessionPlan where
  | sequentialClip (clipVolume : Volume)
  | twap (state : TwapState)

/-- `ExecutionSession`. -/
structure Session where
  parentIndex : OrderIndex
  parentRequest : OrderRequest
  strategyId : StrategyId
  executionAlgo : PassiveExecutionAlgo
  childLedgers : Map InternalOrderId ChildExecutionLedger := ∅
  lastActivePublishSeqNo : UInt64 := 0
  cancelRequested : Bool := false
  failed : Bool := false
  terminal : Bool := false
  plan : SessionPlan

/-- The records of the child trace, as the recorder stores them. -/
inductive ChildTrace where
  | submitAttempt (parentId : InternalOrderId) (volume : Volume) (price : DPrice)
      (executionState : ExecutionState) (targetVolume workingVolume schedulableVolume : Volume)
      (activeClaimed : Bool)
  | submitResult (parentId childId : InternalOrderId) (index : OrderIndex) (price : DPrice)
      (success : Bool) (reason : String)
  | finalized (parentId childId : InternalOrderId) (index : OrderIndex) (state : OrderState)
      (entrustVolume : Volume) (entrustPrice : DPrice) (tradedVolume : Volume)
      (tradedPrice : DPrice) (tradedValue fee : DValue) (cancelledVolume : Volume)
      (cancelRequested : Bool)
      (executionState : ExecutionState) (targetVolume workingVolume schedulableVolume : Volume)
  deriving DecidableEq, Repr

namespace Session

/-! ## Sums over the ledgers -/

/-- The loop of the sums over `child_ledgers_`. -/
def sumLedgers (s : Session) (f : ChildExecutionLedger → UInt64) : UInt64 :=
  s.childLedgers.entries.foldl (fun total e => saturatingAdd total (f e.2)) 0

/-- `confirmed_traded_volume`. -/
def confirmedTradedVolume (s : Session) : Volume := s.sumLedgers (·.confirmedTradedVolume)

/-- `confirmed_traded_value`. -/
def confirmedTradedValue (s : Session) : DValue := s.sumLedgers (·.confirmedTradedValue)

/-- `confirmed_fee`. -/
def confirmedFee (s : Session) : DValue := s.sumLedgers (·.confirmedFee)

/-- `working_volume`. -/
def workingVolume (s : Session) : Volume := s.sumLedgers (·.unresolvedVolume)

/-- The target: the volume of the parent. -/
def targetVolume (s : Session) : Volume := s.parentRequest.volumeEntrust

/-- `remaining_target`. -/
def remainingTarget (s : Session) : Volume :=
  if s.confirmedTradedVolume ≥ s.targetVolume then 0 else s.targetVolume - s.confirmedTradedVolume

/-- `schedulable_volume`. -/
def schedulableVolume (s : Session) : Volume :=
  if s.workingVolume ≥ s.remainingTarget then 0 else s.remainingTarget - s.workingVolume

/-- `has_working_children`. -/
def hasWorkingChildren (s : Session) : Bool := decide (s.workingVolume > 0)

/-! ## What the parent mirrors -/

/-- `derive_parent_state`. -/
def deriveParentState (s : Session) : OrderState :=
  if s.failed then .traderError
  else if s.terminal then .finished
  else
    (s.childLedgers.entries.foldl
      (fun (best : OrderState × Int) e =>
        let rank := e.2.orderState.progressRank
        if rank > best.2 then (e.2.orderState, rank) else best)
      (.traderPending, OrderState.progressRank .traderPending)).1

/-- `derive_execution_state`. -/
def deriveExecutionState (s : Session) : ExecutionState :=
  if s.failed then .failed
  else if s.terminal then .finished
  else if s.cancelRequested then .cancelling
  else .running

/-- The view that `sync_parent_view` hands to the book. -/
def parentView (s : Session) : ManagedParentView where
  executionAlgo := s.executionAlgo
  executionState := s.deriveExecutionState
  targetVolume := s.targetVolume
  workingVolume := s.workingVolume
  schedulableVolume := s.schedulableVolume
  confirmedTradedVolume := s.confirmedTradedVolume
  confirmedTradedValue := s.confirmedTradedValue
  confirmedFee := s.confirmedFee

/-! ## Slices -/

/-- `advance_slice_if_ready`. -/
def advanceSliceIfReady (s : Session) : Session :=
  match s.plan with
  | .sequentialClip _ => s
  | .twap t =>
      if ¬ t.sliceConsumed ∨ s.hasWorkingChildren then s
      else
        let sliceIndex :=
          if t.sliceIndex < t.sliceVolumes.length then t.sliceIndex + 1 else t.sliceIndex
        { s with
          -- The next slice may act on a prediction that this one has acted on.
          lastActivePublishSeqNo := 0
          plan := .twap { t with
            sliceIndex := sliceIndex
            sliceConsumed := false
            nextDeadlineNs := t.startTimeNs + UInt64.ofNat sliceIndex * t.intervalNs } }

/-- `current_budget_volume` of a TWAP session and the clip of the others, limited by what is
schedulable. -/
def currentBudgetVolume (s : Session) : Volume :=
  match s.plan with
  | .sequentialClip clipVolume => min clipVolume s.schedulableVolume
  | .twap t =>
      match t.sliceVolumes[t.sliceIndex]? with
      | none => 0
      | some slice => min slice s.schedulableVolume

/-! ## Responses -/

/-- The record of `emit_child_finalized_trace`. -/
def finalizedTrace (s : Session) (l : ChildExecutionLedger) : ChildTrace :=
  .finalized s.parentRequest.internalOrderId l.childOrderId l.shmOrderIndex l.orderState
    l.entrustVolume l.entrustPrice l.confirmedTradedVolume l.averageTradedPrice
    l.confirmedTradedValue l.confirmedFee l.finalCancelledVolume s.cancelRequested
    s.deriveExecutionState s.targetVolume s.workingVolume s.schedulableVolume

def setLedger (s : Session) (id : InternalOrderId) (l : ChildExecutionLedger) : Session :=
  { s with childLedgers := s.childLedgers.insert id l }

/-- `finalize_finished_child` on the session: a cancelled session without working children forgets
the prediction it acted on. -/
def finalizeFinishedChild (s : Session) (id : InternalOrderId) (l : ChildExecutionLedger)
    (cancelledVolume : Volume) : Session × List ChildTrace :=
  let l' := l.finishWith cancelledVolume
  let s₁ := s.setLedger id l'
  let s₂ :=
    if s₁.cancelRequested ∧ ¬ s₁.hasWorkingChildren then
      { s₁ with lastActivePublishSeqNo := 0 } else s₁
  (s₂, [s₂.finalizedTrace l'])

/-- `on_trade_response`, with `on_child_finalized`. -/
def onTradeResponse (s : Session) (r : TradeResponse) : Session × List ChildTrace :=
  match s.childLedgers.lookup r.internalOrderId with
  | none => (s, [])
  | some ledger =>
      -- What comes after the end of a child is not counted.
      if ledger.finalized then (s, [])
      else
        let l := { ledger.addFill r with orderState := r.newState }
        if r.newState = .finished then
          let (s', records) := s.finalizeFinishedChild r.internalOrderId l r.cancelledVolume
          (s'.advanceSliceIfReady, records)
        else if r.newState.isFailureTerminal then
          -- The child is settled before the session fails, so no volume stays open.
          let l' := l.failOpen
          let s' := { s.setLedger r.internalOrderId l' with failed := true }
          (s'.advanceSliceIfReady, [s'.finalizedTrace l'])
        else (s.setLedger r.internalOrderId l, [])

/-! ## Creation -/

/-- The loop of `build_twap_slice_plan`: `count` slices of the base volume, the first `remainder` of
them one larger. -/
def sliceVolumes (base : Volume) : Nat → Volume → List Volume
  | 0, _ => []
  | count + 1, remainder =>
      let slice := if remainder > 0 then base + 1 else base
      let remainder' := if remainder > 0 then remainder - 1 else remainder
      (if slice > 0 then [slice] else []) ++ sliceVolumes base count remainder'

/-- `build_twap_slice_plan`. The rounding up of the quotient is not checked for overflow. -/
def buildTwapSlicePlan (volumeEntrust : Volume) (c : SplitConfig) : Option (List Volume) :=
  if volumeEntrust = 0 ∨ c.maxChildCount = 0 then none
  else
    let target := c.resolveClipVolume
    if target = 0 then none
    else
      let count := min (max ((volumeEntrust + target - 1) / target) 1)
        (UInt64.ofNat c.maxChildCount.toNat)
      if count = 0 then none
      else
        let slices := sliceVolumes (volumeEntrust / count) count.toNat (volumeEntrust % count)
        if slices.isEmpty then none else some slices

/-- The session that `create_execution_session` builds, when it is valid. -/
def create (c : SplitConfig) (parentIndex : OrderIndex) (parentRequest : OrderRequest)
    (strategyId : StrategyId) (startTimeNs : TimestampNs) : Option Session :=
  let strategy := resolveExecutionStrategy parentRequest c
  let base (plan : SessionPlan) : Session :=
    { parentIndex := parentIndex
      parentRequest := parentRequest
      strategyId := strategyId
      executionAlgo := strategy.toPassiveExecutionAlgo
      plan := plan }
  match strategy with
  | .fixedSize | .iceberg =>
      if c.resolveClipVolume = 0 then none else some (base (.sequentialClip c.resolveClipVolume))
  | .twap =>
      let intervalNs := UInt64.ofNat c.intervalMs.toNat * 1000000
      if intervalNs = 0 then none
      else
        (buildTwapSlicePlan parentRequest.volumeEntrust c).map fun slices =>
          base (.twap
            { startTimeNs := startTimeNs
              intervalNs := intervalNs
              nextDeadlineNs := startTimeNs
              sliceVolumes := slices })
  | .vwap | .none => none

/-- `make_child_request`. -/
def makeChildRequest (parentRequest : OrderRequest) (childOrderId : InternalOrderId)
    (volume : Volume) (price : DPrice) (activeStrategyClaimed : Bool) : OrderRequest :=
  { parentRequest with
    internalOrderId := childOrderId
    -- A child is executed as it is: it must not become a parent itself.
    passiveExecutionAlgo := .none
    activeStrategyClaimed := activeStrategyClaimed
    volumeEntrust := volume
    dpriceEntrust := price
    volumeRemain := volume
    volumeTraded := 0
    dvalueTraded := 0
    dpriceTraded := 0
    dfeeEstimate := 0
    dfeeExecuted := 0
    mdTimeTradedFirst := 0
    mdTimeTradedLatest := 0
    mdTimeBrokerResponse := 0
    mdTimeMarketResponse := 0
    brokerOrderId := 0
    origInternalOrderId := 0
    executionAlgo := .none
    executionState := .none
    targetVolume := 0
    workingVolume := 0
    schedulableVolume := 0 }

end Session

end AccountServices
