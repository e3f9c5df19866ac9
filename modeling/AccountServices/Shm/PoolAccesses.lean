import Mathlib.Logic.Equiv.Defs
import AccountServices.Foundation.SeqLock
import AccountServices.Foundation.SharedObject
import AccountServices.Shm.OrdersShm

/-!
# The order pool between processes

`shm/orders_shm.hpp`, one access to the shared memory at a time. Clients, the account service, the
gateway and the monitors use the pool at once. They take slots from a counter with a
compare-and-swap that may fail, write a slot word by word inside its sequence lock, and read it word
by word.

The pool is linearizable when no two writes of one slot overlap: the sequence lock keeps readers out
of a write, not writers out of each other.
-/

set_option autoImplicit false

namespace AccountServices

open Foundation

/-! ## The words of a slot -/

/-- The words of a slot: the request takes many, the other fields one each. -/
inductive SlotWord (κ : Type) where
  | request (i : κ)
  | stage
  | source
  | lastUpdateNs
  deriving DecidableEq

/-- What a word holds. -/
def SlotWord.Value {κ : Type} (β : κ → Type) : SlotWord κ → Type
  | .request i => β i
  | .stage => OrderSlotState
  | .source => OrderSlotSource
  | .lastUpdateNs => TimestampNs

/-- The mutations of `orders_shm.hpp`. -/
inductive SlotWrite where
  | writeOrder (request : OrderRequest) (stage : OrderSlotState) (source : OrderSlotSource)
      (updateNs : TimestampNs)
  | syncOrder (request : OrderRequest) (updateNs : TimestampNs)
  | updateStage (stage : OrderSlotState) (updateNs : TimestampNs)

/-- What a mutation makes of a slot. -/
def SlotWrite.apply : SlotWrite → OrderSlot → OrderSlot
  | .writeOrder request stage source updateNs, _ =>
      { request := request, stage := stage, source := source, lastUpdateNs := updateNs }
  | .syncOrder request updateNs, slot => { slot with request := request, lastUpdateNs := updateNs }
  | .updateStage stage updateNs, slot => { slot with stage := stage, lastUpdateNs := updateNs }

section Words

variable {κ : Type} {β : κ → Type} (layout : OrderRequest ≃ ∀ i, β i) (order : List κ)

/-- A slot as its words. `layout` says which words a request takes. -/
def OrderSlot.words (slot : OrderSlot) : ∀ w, SlotWord.Value β w
  | .request i => layout slot.request i
  | .stage => slot.stage
  | .source => slot.source
  | .lastUpdateNs => slot.lastUpdateNs

/-- The slot that has these words. -/
def OrderSlot.ofWords (words : ∀ w, SlotWord.Value β w) : OrderSlot where
  request := layout.symm fun i => words (.request i)
  stage := words .stage
  source := words .source
  lastUpdateNs := words .lastUpdateNs

@[simp] theorem OrderSlot.ofWords_words (slot : OrderSlot) :
    ofWords layout (slot.words layout) = slot := by
  simp only [ofWords, words, Equiv.symm_apply_apply]

@[simp] theorem OrderSlot.words_ofWords (words : ∀ w, SlotWord.Value β w) :
    (ofWords layout words).words layout = words := by
  funext w
  cases w with
  | request i => exact congrFun (layout.apply_symm_apply _) i
  | stage => rfl
  | source => rfl
  | lastUpdateNs => rfl

/-- The stores of a request, word by word. -/
def requestStores (request : OrderRequest) : List (Σ w : SlotWord κ, SlotWord.Value β w) :=
  order.map fun i => ⟨.request i, layout request i⟩

/-- The stores of a mutation. -/
def SlotWrite.stores : SlotWrite → List (Σ w : SlotWord κ, SlotWord.Value β w)
  | .writeOrder request stage source updateNs =>
      requestStores layout order request ++ [⟨.stage, stage⟩, ⟨.source, source⟩,
        ⟨.lastUpdateNs, updateNs⟩]
  | .syncOrder request updateNs => requestStores layout order request ++ [⟨.lastUpdateNs, updateNs⟩]
  | .updateStage stage updateNs => [⟨.stage, stage⟩, ⟨.lastUpdateNs, updateNs⟩]

variable {layout order} [DecidableEq κ]

/-- The stores of a request leave its words, and the other words of the slot as they were. -/
theorem putWords_requestStores (layout : OrderRequest ≃ ∀ i, β i) (order : List κ)
    (request : OrderRequest) (words : ∀ w, SlotWord.Value β w) :
    (∀ i, i ∈ order → SeqCell.putWords words (requestStores layout order request)
      (.request i) = layout request i) ∧ ∀ w, (∀ i, i ∈ order → w ≠ .request i) →
        SeqCell.putWords words (requestStores layout order request) w = words w := by
  induction order generalizing words with
  | nil => exact ⟨fun i hi => absurd hi List.not_mem_nil, fun w _ => rfl⟩
  | cons i rest ih =>
      obtain ⟨hrequest, hother⟩ := ih (SeqCell.putWord words ⟨.request i, layout request i⟩)
      refine ⟨fun j hj => ?_, fun w hw => ?_⟩
      · by_cases hrest : j ∈ rest
        · exact hrequest j hrest
        · obtain rfl : j = i := (List.mem_cons.1 hj).resolve_right hrest
          refine (hother (.request j) fun i' hi' heq => hrest ?_).trans (Function.update_self _ _ _)
          exact SlotWord.request.inj heq ▸ hi'
      · refine (hother w fun j hj => hw j (List.mem_cons_of_mem i hj)).trans ?_
        exact Function.update_of_ne (hw i List.mem_cons_self) _ _

/-- The stores of a mutation make of a slot what the mutation makes of it. -/
theorem SlotWrite.putWords_stores (horder : ∀ i, i ∈ order) (w : SlotWrite) (slot : OrderSlot) :
    SeqCell.putWords (slot.words layout) (w.stores layout order) = (w.apply slot).words layout := by
  cases w with
  | writeOrder request stage source updateNs =>
      obtain ⟨hrequest, -⟩ := putWords_requestStores layout order request (slot.words layout)
      funext word
      rw [stores, SeqCell.putWords, List.foldl_append]
      cases word with
      | request i => exact hrequest i (horder i)
      | stage => rfl
      | source => rfl
      | lastUpdateNs => rfl
  | syncOrder request updateNs =>
      obtain ⟨hrequest, hother⟩ := putWords_requestStores layout order request
        (slot.words layout)
      funext word
      rw [stores, SeqCell.putWords, List.foldl_append]
      cases word with
      | request i => exact hrequest i (horder i)
      | stage => exact hother .stage fun i _ h => absurd h (by simp)
      | source => exact hother .source fun i _ h => absurd h (by simp)
      | lastUpdateNs => rfl
  | updateStage stage updateNs =>
      funext word
      cases word with
      | request i => rfl
      | stage => rfl
      | source => rfl
      | lastUpdateNs => rfl

end Words

/-! ## The fields of a request -/

/-- The fields of `OrderRequest`. -/
inductive RequestField where
  | internalOrderId | passiveExecutionAlgo | orderType | tradeSide | market | volumeEntrust
  | dpriceEntrust | origInternalOrderId | internalSecurityId | securityId | activeStrategyClaimed
  | brokerOrderId | volumeTraded | volumeRemain | dvalueTraded | dpriceTraded | dfeeEstimate
  | dfeeExecuted | mdTimeDriven | mdTimeEntrust | mdTimeCancelSent | mdTimeCancelDone
  | mdTimeBrokerResponse | mdTimeMarketResponse | mdTimeTradedFirst | mdTimeTradedLatest
  | orderState | executionAlgo | executionState | targetVolume | workingVolume | schedulableVolume
  deriving DecidableEq

/-- What a field holds. -/
def RequestField.Value : RequestField → Type
  | .internalOrderId | .origInternalOrderId => InternalOrderId
  | .passiveExecutionAlgo | .executionAlgo => PassiveExecutionAlgo
  | .orderType => OrderType
  | .tradeSide => TradeSide
  | .market => Market
  | .volumeEntrust | .volumeTraded | .volumeRemain | .targetVolume | .workingVolume
  | .schedulableVolume => Volume
  | .dpriceEntrust | .dpriceTraded => DPrice
  | .internalSecurityId => InternalSecurityId
  | .securityId => SecurityId
  | .activeStrategyClaimed => Bool
  | .brokerOrderId => UInt64
  | .dvalueTraded | .dfeeEstimate | .dfeeExecuted => DValue
  | .mdTimeDriven | .mdTimeEntrust | .mdTimeCancelSent | .mdTimeCancelDone
  | .mdTimeBrokerResponse | .mdTimeMarketResponse | .mdTimeTradedFirst
  | .mdTimeTradedLatest => MdTime
  | .orderState => OrderState
  | .executionState => ExecutionState

/-- A field of a request. -/
def RequestField.get (request : OrderRequest) : ∀ field : RequestField, field.Value
  | .internalOrderId => request.internalOrderId
  | .passiveExecutionAlgo => request.passiveExecutionAlgo
  | .orderType => request.orderType
  | .tradeSide => request.tradeSide
  | .market => request.market
  | .volumeEntrust => request.volumeEntrust
  | .dpriceEntrust => request.dpriceEntrust
  | .origInternalOrderId => request.origInternalOrderId
  | .internalSecurityId => request.internalSecurityId
  | .securityId => request.securityId
  | .activeStrategyClaimed => request.activeStrategyClaimed
  | .brokerOrderId => request.brokerOrderId
  | .volumeTraded => request.volumeTraded
  | .volumeRemain => request.volumeRemain
  | .dvalueTraded => request.dvalueTraded
  | .dpriceTraded => request.dpriceTraded
  | .dfeeEstimate => request.dfeeEstimate
  | .dfeeExecuted => request.dfeeExecuted
  | .mdTimeDriven => request.mdTimeDriven
  | .mdTimeEntrust => request.mdTimeEntrust
  | .mdTimeCancelSent => request.mdTimeCancelSent
  | .mdTimeCancelDone => request.mdTimeCancelDone
  | .mdTimeBrokerResponse => request.mdTimeBrokerResponse
  | .mdTimeMarketResponse => request.mdTimeMarketResponse
  | .mdTimeTradedFirst => request.mdTimeTradedFirst
  | .mdTimeTradedLatest => request.mdTimeTradedLatest
  | .orderState => request.orderState
  | .executionAlgo => request.executionAlgo
  | .executionState => request.executionState
  | .targetVolume => request.targetVolume
  | .workingVolume => request.workingVolume
  | .schedulableVolume => request.schedulableVolume

/-- The request with these fields. -/
def RequestField.build (fields : ∀ field : RequestField, field.Value) : OrderRequest where
  internalOrderId := fields .internalOrderId
  passiveExecutionAlgo := fields .passiveExecutionAlgo
  orderType := fields .orderType
  tradeSide := fields .tradeSide
  market := fields .market
  volumeEntrust := fields .volumeEntrust
  dpriceEntrust := fields .dpriceEntrust
  origInternalOrderId := fields .origInternalOrderId
  internalSecurityId := fields .internalSecurityId
  securityId := fields .securityId
  activeStrategyClaimed := fields .activeStrategyClaimed
  brokerOrderId := fields .brokerOrderId
  volumeTraded := fields .volumeTraded
  volumeRemain := fields .volumeRemain
  dvalueTraded := fields .dvalueTraded
  dpriceTraded := fields .dpriceTraded
  dfeeEstimate := fields .dfeeEstimate
  dfeeExecuted := fields .dfeeExecuted
  mdTimeDriven := fields .mdTimeDriven
  mdTimeEntrust := fields .mdTimeEntrust
  mdTimeCancelSent := fields .mdTimeCancelSent
  mdTimeCancelDone := fields .mdTimeCancelDone
  mdTimeBrokerResponse := fields .mdTimeBrokerResponse
  mdTimeMarketResponse := fields .mdTimeMarketResponse
  mdTimeTradedFirst := fields .mdTimeTradedFirst
  mdTimeTradedLatest := fields .mdTimeTradedLatest
  orderState := fields .orderState
  executionAlgo := fields .executionAlgo
  executionState := fields .executionState
  targetVolume := fields .targetVolume
  workingVolume := fields .workingVolume
  schedulableVolume := fields .schedulableVolume

/-- A request is stored field by field. -/
def requestFields : OrderRequest ≃ ∀ field : RequestField, field.Value where
  toFun := RequestField.get
  invFun := RequestField.build
  left_inv _ := rfl
  right_inv fields := by
    funext field
    cases field <;> rfl

/-- The order in which the fields of a request are stored. -/
def RequestField.all : List RequestField :=
  [.internalOrderId, .passiveExecutionAlgo, .orderType, .tradeSide, .market, .volumeEntrust,
    .dpriceEntrust, .origInternalOrderId, .internalSecurityId, .securityId, .activeStrategyClaimed,
    .brokerOrderId, .volumeTraded, .volumeRemain, .dvalueTraded, .dpriceTraded, .dfeeEstimate,
    .dfeeExecuted, .mdTimeDriven, .mdTimeEntrust, .mdTimeCancelSent, .mdTimeCancelDone,
    .mdTimeBrokerResponse, .mdTimeMarketResponse, .mdTimeTradedFirst, .mdTimeTradedLatest,
    .orderState, .executionAlgo, .executionState, .targetVolume, .workingVolume, .schedulableVolume]

theorem RequestField.mem_all (field : RequestField) : field ∈ all := by
  cases field <;> decide

/-! ## The accesses -/

/-- The pool in shared memory. -/
structure PoolMemory {κ : Type} (β : κ → Type) where
  capacity : OrderIndex
  nextIndex : OrderIndex
  fullRejectCount : UInt64
  slots : OrderIndex → SeqCell (SlotWord.Value β)

/-- The calls on the pool. `orders_shm_write_order`, `orders_shm_sync_order` and
`orders_shm_update_stage` are `orders_shm_mutate_slot`. -/
inductive PoolCall where
  | tryAllocate
  | mutateSlot (index : OrderIndex) (w : SlotWrite)
  | readSnapshot (index : OrderIndex)

inductive PoolAnswer where
  | allocated (index : Option OrderIndex)
  | mutated (ok : Bool)
  | snapshot (slot : Option OrderSlot)

/-- Where a call is: in the loop of the allocator, at the check of the index, or at a slot. -/
inductive PoolPlace {κ : Type} (β : κ → Type) where
  | allocate
  | allocateFrom (current : OrderIndex)
  | checkWrite (index : OrderIndex) (stores : List (Σ w : SlotWord κ, SlotWord.Value β w))
  | checkRead (index : OrderIndex)
  | atSlot (index : OrderIndex) (l : SeqCell.Step (SlotWord.Value β))

namespace PoolMemory

variable {κ : Type} {β : κ → Type}

/-- `orders_shm_index_exists`. -/
def indexExists (m : PoolMemory β) (index : OrderIndex) : Bool :=
  decide (index ≠ kInvalidOrderIndex ∧ index < m.nextIndex ∧ index < m.capacity)

def setSlot (m : PoolMemory β) (index : OrderIndex) (cell : SeqCell (SlotWord.Value β)) :
    PoolMemory β :=
  { m with slots := Function.update m.slots index cell }

/-- How a call on a slot answers. -/
def answer (layout : OrderRequest ≃ ∀ i, β i) : SeqCell.Outcome (SlotWord.Value β) → PoolAnswer
  | .written => .mutated true
  | .read out => .snapshot (out.map (OrderSlot.ofWords layout))

variable [DecidableEq κ]

/-- One access of a call. A compare-and-swap that fails loads the counter again. -/
inductive Access (layout : OrderRequest ≃ ∀ i, β i) : PoolPlace β → PoolMemory β →
    PoolPlace β ⊕ PoolAnswer → PoolMemory β → Prop
  | loadsNext (m : PoolMemory β) : Access layout .allocate m (.inl (.allocateFrom m.nextIndex)) m
  | full {current : OrderIndex} {m : PoolMemory β} (hfull : m.capacity ≤ current) :
      Access layout (.allocateFrom current) m (.inr (.allocated none))
        { m with fullRejectCount := m.fullRejectCount + 1 }
  | takes {current : OrderIndex} {m : PoolMemory β} (hroom : current < m.capacity)
      (hsame : m.nextIndex = current) :
      Access layout (.allocateFrom current) m (.inr (.allocated (some current)))
        { m with nextIndex := current + 1 }
  | retries {current : OrderIndex} {m : PoolMemory β} (hroom : current < m.capacity) :
      Access layout (.allocateFrom current) m (.inl (.allocateFrom m.nextIndex)) m
  | refusesWrite {index : OrderIndex} {stores : List (Σ w : SlotWord κ, SlotWord.Value β w)}
      {m : PoolMemory β} (hmissing : m.indexExists index = false) :
      Access layout (.checkWrite index stores) m (.inr (.mutated false)) m
  | entersWrite {index : OrderIndex} {stores : List (Σ w : SlotWord κ, SlotWord.Value β w)}
      {m : PoolMemory β} (hexists : m.indexExists index = true) :
      Access layout (.checkWrite index stores) m (.inl (.atSlot index (.write stores))) m
  | refusesRead {index : OrderIndex} {m : PoolMemory β} (hmissing : m.indexExists index = false) :
      Access layout (.checkRead index) m (.inr (.snapshot none)) m
  | entersRead {index : OrderIndex} {m : PoolMemory β} (hexists : m.indexExists index = true) :
      Access layout (.checkRead index) m (.inl (.atSlot index (.reading 32))) m
  | moves {index : OrderIndex} {l l' : SeqCell.Step (SlotWord.Value β)} {m : PoolMemory β}
      {cell : SeqCell (SlotWord.Value β)}
        (hmoves : SeqCell.Access l (m.slots index) (.inl l') cell) :
      Access layout (.atSlot index l) m (.inl (.atSlot index l')) (m.setSlot index cell)
  | ends {index : OrderIndex} {l : SeqCell.Step (SlotWord.Value β)}
      {o : SeqCell.Outcome (SlotWord.Value β)}
      {m : PoolMemory β} {cell : SeqCell (SlotWord.Value β)}
      (hends : SeqCell.Access l (m.slots index) (.inr o) cell) :
      Access layout (.atSlot index l) m (.inr (answer layout o)) (m.setSlot index cell)

/-- The pool as the processes see it. `order` is the order in which a request is stored. -/
def machine (layout : OrderRequest ≃ ∀ i, β i) (order : List κ) :
    Machine (PoolMemory β) PoolCall PoolAnswer where
  Local := PoolPlace β
  enter
    | .tryAllocate => .allocate
    | .mutateSlot index w => .checkWrite index (w.stores layout order)
    | .readSnapshot index => .checkRead index
  Access := Access layout

end PoolMemory

/-! ## Who may call -/

section History

variable {ι : Type} [DecidableEq ι]

/-- The slot that each thread is writing. -/
def seeWriters (w : ι → Option OrderIndex) : Occurrence ι PoolCall PoolAnswer →
    ι → Option OrderIndex
  | .call i (.mutateSlot index _) => Function.update w i (some index)
  | .call _ _ => w
  | .answer i _ => Function.update w i none

def writersIn (h : List (Occurrence ι PoolCall PoolAnswer)) : ι → Option OrderIndex :=
  h.foldl seeWriters fun _ => none

/-- How many writes of a slot have been called. -/
def writesIn (h : List (Occurrence ι PoolCall PoolAnswer)) (index : OrderIndex) : Nat :=
  h.countP fun
    | .call _ (.mutateSlot index' _) => decide (index' = index)
    | _ => false

end History

/-- The calls that are allowed: a slot is written by one thread at a time, and fewer than `2 ^ 63`
times. -/
def mayCallPool (ι : Type) [DecidableEq ι] (h : List (Occurrence ι PoolCall PoolAnswer)) (_ : ι) :
    PoolCall → Prop
  | .mutateSlot index _ => (∀ j, writersIn h j ≠ some index) ∧ writesIn h index + 1 < 2 ^ 63
  | _ => True

/-- What the pool is for. A read may fail. -/
def poolSpec (shm : OrdersShm) (c : PoolCall) (a : PoolAnswer) (shm' : OrdersShm) : Prop :=
  match c, a with
  | .tryAllocate, .allocated out => shm.tryAllocate = (out, shm')
  | .mutateSlot index w, .mutated ok => shm.mutateSlot index w.apply = (ok, shm')
  | .readSnapshot index, .snapshot out => shm' = shm ∧ (out = none ∨ out = shm.readSnapshot index)
  | _, _ => False

end AccountServices
