import AccountServices.Order.RecoveredBook

/-!
# Recovery keeps the latest snapshots

The source iterates over a hash map of candidates, in an order that nothing fixes, and some slots of
the pool may not be readable. Whatever the order and whichever slots can be read, the recovered book
has one entry for every id with an eligible slot, and this entry carries the latest of these slots.
The order shows in one place only: when two recovered orders have the same broker id, the index of
broker ids keeps the one that came last.
-/

set_option autoImplicit false

namespace AccountServices

open Foundation

/-- `find_by_broker_id`. -/
def OrderBook.findByBrokerId (b : OrderBook) (brokerOrderId : UInt64) : Option OrderEntry :=
  match b.brokerIdMap.lookup brokerOrderId with
  | none => none
  | some orderId => b.findOrder orderId

namespace Recovery

/-! ## The scan of the slots that can be read -/

/-- One turn of the scan: a slot that none of the attempts could read is passed over. -/
def scanReadableSlot (shm : OrdersShm) (readable : OrderIndex → Bool)
    (candidates : Map InternalOrderId RecoveredOrderCandidate) (index : OrderIndex) :
    Map InternalOrderId RecoveredOrderCandidate :=
  if readable index then scanSlot shm candidates index else candidates

/-- The first phase. -/
def scanReadable (shm : OrdersShm) (readable : OrderIndex → Bool) :
    Map InternalOrderId RecoveredOrderCandidate :=
  ((List.range shm.nextIndex.toNat).map UInt32.ofNat).foldl (scanReadableSlot shm readable) ∅

/-- The candidates in the order in which the hash map gives them out. -/
def Iterates (shm : OrdersShm) (readable : OrderIndex → Bool)
    (items : List (InternalOrderId × RecoveredOrderCandidate)) : Prop :=
  items.Perm ((scanReadable shm readable).entries.map fun e => (e.1, e.2))

/-- The second phase in this order, and the seed of the id generator. -/
def recoverInOrder (items : List (InternalOrderId × RecoveredOrderCandidate))
    (upstreamNextOrderId : Option InternalOrderId) (now : TimestampNs) (b : OrderBook) :
    OrderBook :=
  let (b', maxRecovered) := items.foldl (restore now) (b, 0)
  let seed := nextOrderSeed upstreamNextOrderId maxRecovered
  if seed > 0 then b'.ensureNextOrderIdAtLeast seed else b'

/-- The recovery of the service is the one that can read every slot. -/
theorem recoverDownstreamActiveOrders_eq (shm : OrdersShm)
    (upstreamNextOrderId : Option InternalOrderId) (now : TimestampNs) (b : OrderBook) :
    recoverDownstreamActiveOrders shm upstreamNextOrderId now b =
      recoverInOrder ((scanReadable shm fun _ => true).entries.map fun e => (e.1, e.2))
        upstreamNextOrderId now b := rfl

/-- The slot is eligible for the order. -/
structure EligibleSlot (shm : OrdersShm) (readable : OrderIndex → Bool) (orderId : InternalOrderId)
    (index : OrderIndex) : Prop where
  allocated : index < shm.nextIndex
  readable : readable index = true
  stage : (shm.slots index).stage = .downstreamQueued ∨
    (shm.slots index).stage = .downstreamDequeued
  id : (shm.slots index).request.internalOrderId = orderId
  id_ne_zero : orderId ≠ 0
  state : (shm.slots index).request.orderState.isTerminal = false

/-- The slot is the eligible one that is maximal by time and index. -/
structure LatestSlot (shm : OrdersShm) (readable : OrderIndex → Bool) (orderId : InternalOrderId)
    (index : OrderIndex) : Prop where
  eligible : EligibleSlot shm readable orderId index
  latest : ∀ other, EligibleSlot shm readable orderId other →
    (shm.slots other).lastUpdateNs < (shm.slots index).lastUpdateNs ∨
      ((shm.slots other).lastUpdateNs = (shm.slots index).lastUpdateNs ∧ other ≤ index)

/-- The pool in which a slot that cannot be read looks like one that was never used. -/
def masked (shm : OrdersShm) (readable : OrderIndex → Bool) : OrdersShm :=
  { shm with slots := fun index => if readable index then shm.slots index else {} }

theorem indexExists_iff (shm : OrdersShm) (index : OrderIndex) :
    shm.indexExists index = true ↔ index < shm.nextIndex := by
  have hcapacity := shm.capacity_le
  have hnext := UInt32.le_iff_toNat_le.1 shm.nextIndex_le
  have hsmall : kMaxActiveOrders < kInvalidOrderIndex.toNat := by decide
  simp only [OrdersShm.indexExists, decide_eq_true_eq]
  constructor
  · exact fun h => h.2.1
  · intro hlt
    have hlt' := UInt32.lt_iff_toNat_lt.1 hlt
    refine ⟨?_, hlt, UInt32.lt_iff_toNat_lt.2 (by omega)⟩
    rintro rfl
    omega

/-- A slot that cannot be read is as good as an unused one. -/
theorem scanReadableSlot_eq (shm : OrdersShm) (readable : OrderIndex → Bool)
    (candidates : Map InternalOrderId RecoveredOrderCandidate) (index : OrderIndex) :
    scanReadableSlot shm readable candidates index = scanSlot
      (masked shm readable) candidates index := by
  have hexists : (masked shm readable).indexExists index = shm.indexExists index := rfl
  simp only [scanReadableSlot, scanSlot, OrdersShm.readSnapshot, hexists]
  cases hread : readable index with
  | true => simp [masked, hread]
  | false =>
      have hunused : eligible ({} : OrderSlot) = false := rfl
      cases shm.indexExists index with
      | false => rfl
      | true => simp [masked, hread, hunused]

theorem scanReadable_eq (shm : OrdersShm) (readable : OrderIndex → Bool) :
    scanReadable shm readable = scan (masked shm readable) := by
  have hstep : scanReadableSlot shm readable = scanSlot (masked shm readable) := by
    funext candidates index
    exact scanReadableSlot_eq shm readable candidates index
  simp only [scanReadable, scan, hstep]
  rfl

/-- The candidates of the scan are the eligible slots. -/
theorem candidate_masked_iff (shm : OrdersShm) (readable : OrderIndex → Bool)
    (orderId : InternalOrderId) (c : RecoveredOrderCandidate) :
    Candidate (masked shm readable) orderId c ↔
      EligibleSlot shm readable orderId c.index ∧ c.snapshot = shm.slots c.index := by
  have hexists := indexExists_iff (masked shm readable) c.index
  have hnext : (masked shm readable).nextIndex = shm.nextIndex := rfl
  rw [hnext] at hexists
  constructor
  · rintro ⟨hread, heligible, hid⟩
    rw [OrdersShm.readSnapshot] at hread
    split at hread
    next hin =>
      cases hmask : readable c.index with
      | false =>
          -- an unused slot is not eligible
          simp only [masked, hmask, Bool.false_eq_true, if_false, Option.some.injEq] at hread
          rw [← hread] at heligible
          exact absurd heligible (by decide)
      | true =>
          simp only [masked, hmask, if_true, Option.some.injEq] at hread
          simp only [eligible, Bool.and_eq_true, decide_eq_true_eq, Bool.not_eq_true'] at heligible
          rw [← hread] at heligible hid ⊢
          refine ⟨⟨hexists.1 hin, hmask, ?_, hid, hid ▸ heligible.1.2, heligible.2⟩, rfl⟩
          revert heligible
          cases (shm.slots c.index).stage <;> simp [OrderSlotState.isRecoverable]
    next => exact absurd hread (by simp)
  · rintro ⟨h, hsnapshot⟩
    have hslot : (masked shm readable).slots c.index = shm.slots c.index := by
      simp [masked, h.readable]
    refine ⟨?_, ?_, hsnapshot ▸ h.id⟩
    · rw [OrdersShm.readSnapshot, if_pos (hexists.2 h.allocated), hslot, hsnapshot]
    · rw [hsnapshot, eligible, h.state, h.id]
      rcases h.stage with hstage | hstage
      · rw [hstage]
        simp [OrderSlotState.isRecoverable, h.id_ne_zero]
      · rw [hstage]
        simp [OrderSlotState.isRecoverable, h.id_ne_zero]

/-- What the map of candidates holds: the latest slot of every id that has one. -/
theorem lookup_scanReadable_iff (shm : OrdersShm) (readable : OrderIndex → Bool)
    (orderId : InternalOrderId) (c : RecoveredOrderCandidate) :
    (scanReadable shm readable).lookup orderId = some c ↔
      LatestSlot shm readable orderId c.index ∧ c.snapshot = shm.slots c.index := by
  have hscan := scanned_scan (masked shm readable)
  rw [scanReadable_eq]
  -- The scan keeps a candidate that no other replaces: the later one, and of two the one with the
  -- higher index.
  constructor
  · intro hlookup
    obtain ⟨hc, -, hlatest⟩ := hscan.latest orderId c hlookup
    obtain ⟨heligible, hsnapshot⟩ := (candidate_masked_iff shm readable orderId c).1 hc
    refine ⟨⟨heligible, fun other hother => ?_⟩, hsnapshot⟩
    have hc' : Candidate (masked shm readable) orderId ⟨other, shm.slots other⟩ :=
      (candidate_masked_iff shm readable orderId ⟨other, shm.slots other⟩).2 ⟨hother, rfl⟩
    have hnot := hlatest _ hc' (mem_scanned hc'.1)
    rw [shouldReplace_iff, hsnapshot] at hnot
    simp only at hnot
    simp only [Word.lt_iff, Word.eq_iff, UInt32.le_iff_toNat_le]
    omega
  -- Conversely something is kept for the order, and it is the latest slot.
  · rintro ⟨⟨heligible, hlatest⟩, hsnapshot⟩
    have hc := (candidate_masked_iff shm readable orderId c).2 ⟨heligible, hsnapshot⟩
    cases hlookup : (scan (masked shm readable)).lookup orderId with
    | none => exact absurd hlookup (hscan.complete orderId c hc (mem_scanned hc.1))
    | some c' =>
        obtain ⟨hc', -, hbest⟩ := hscan.latest orderId c' hlookup
        obtain ⟨heligible', hsnapshot'⟩ := (candidate_masked_iff shm readable orderId c').1 hc'
        have hnot := hbest c hc (mem_scanned hc.1)
        have hle := hlatest c'.index heligible'
        have hindex : c'.index = c.index := by
          rw [shouldReplace_iff, hsnapshot, hsnapshot'] at hnot
          simp only [Word.lt_iff, Word.eq_iff, UInt32.le_iff_toNat_le] at hle
          apply UInt32.toNat_inj.1
          omega
        rw [candidate_unique hc' hc hindex]

/-! ## The recovered book -/

variable {shm : OrdersShm} {readable : OrderIndex → Bool}
  {items items' : List (InternalOrderId × RecoveredOrderCandidate)}

theorem Iterates.latest_iff (h : Iterates shm readable items) (orderId : InternalOrderId)
    (c : RecoveredOrderCandidate) :
    (orderId, c) ∈ items ↔ LatestSlot shm readable orderId c.index ∧
      c.snapshot = shm.slots c.index := by
  rw [List.Perm.mem_iff h, List.mem_map, ← lookup_scanReadable_iff, ← Map.mem_entries_iff]
  constructor
  · rintro ⟨⟨k, v⟩, hentry, heq⟩
    cases heq
    exact hentry
  · intro hentry
    exact ⟨⟨orderId, c⟩, hentry, rfl⟩

theorem Iterates.addable (h : Iterates shm readable items) : Addable OrderBook.empty items := by
  have hscan := scanned_scan (masked shm readable)
  refine ⟨?_, ?_, fun _ _ => rfl, ?_⟩
  · have hperm := h.map (·.1)
    rw [List.map_map] at hperm
    exact hperm.nodup_iff.2 (scanReadable shm readable).nodupKeys
  · rintro ⟨orderId, c⟩ hitem
    obtain ⟨hlatest, hsnapshot⟩ := (h.latest_iff orderId c).1 hitem
    exact ⟨hsnapshot ▸ hlatest.eligible.id, hlatest.eligible.id_ne_zero⟩
  · -- the pool has no more slots than the book
    have hcount := hscan.count
    rw [← scanReadable_eq, List.length_map, List.length_range] at hcount
    have hlength : items.length = Map.total (scanReadable shm readable) fun _ => 1 := by
      rw [h.length_eq, List.length_map, Map.total_one]
    have hcapacity := shm.capacity_le
    have hnext := UInt32.le_iff_toNat_le.1 shm.nextIndex_le
    have hempty : OrderBook.empty.totalTerms (fun _ => 1) = 0 := rfl
    have hsame : (masked shm readable).nextIndex = shm.nextIndex := rfl
    rw [hsame] at hcount
    omega

/-- The seed of the id generator covers the ids of the clients and the largest recovered one. -/
theorem nextOrderSeed_le_iff (upstreamNextOrderId : Option InternalOrderId)
    (m n : InternalOrderId) :
    nextOrderSeed upstreamNextOrderId m ≤ n ↔ upstreamNextOrderId.getD 1 ≤ n ∧
      saturatedNextOrderId m ≤ n := by
  simp only [nextOrderSeed, gt_iff_lt, UInt32.lt_iff_toNat_lt, UInt32.le_iff_toNat_le]
  split
  · omega
  · omega

theorem nextOrderId_seeded {b : OrderBook} (seed n : InternalOrderId) :
    (if seed > 0 then b.ensureNextOrderIdAtLeast seed else b).nextOrderId ≤ n ↔
      b.nextOrderId ≤ n ∧ seed ≤ n := by
  simp only [OrderBook.ensureNextOrderIdAtLeast, gt_iff_lt, UInt32.lt_iff_toNat_lt,
    UInt32.le_iff_toNat_le, UInt32.toNat_zero]
  split
  · split
    · simp only
      omega
    · omega
  · omega

/-- The id generator after the recovery: the seed of the clients counts, and every recovered id. -/
theorem nextOrderId_recoverInOrder (h : Iterates shm readable items)
    (upstreamNextOrderId : Option InternalOrderId) (now : TimestampNs) (n : InternalOrderId) :
    (recoverInOrder items upstreamNextOrderId now OrderBook.empty).nextOrderId ≤ n ↔
      1 ≤ n ∧ upstreamNextOrderId.getD 1 ≤ n ∧ ∀ item ∈ items, saturatedNextOrderId item.1 ≤ n := by
  have hadded := added_foldl now items OrderBook.empty 0 h.addable
  simp only [recoverInOrder]
  rw [nextOrderId_seeded, nextOrderSeed_le_iff, hadded.next]
  have hone : OrderBook.empty.nextOrderId = 1 := rfl
  rw [hone]
  constructor
  · rintro ⟨⟨hfirst, hitems⟩, hclients, -⟩
    exact ⟨hfirst, hclients, hitems⟩
  · rintro ⟨hfirst, hclients, hitems⟩
    refine ⟨⟨hfirst, hitems⟩, hclients, ?_⟩
    -- the largest id is 0, or one of the ids that have raised the generator already
    rcases hadded.largest with heq | ⟨item, hitem, heq⟩
    · rw [heq]
      exact hfirst
    · rw [heq]
      exact hitems item hitem

/-- The seed changes nothing but the id generator. -/
theorem recoverInOrder_eq (items : List (InternalOrderId × RecoveredOrderCandidate))
    (upstreamNextOrderId : Option InternalOrderId) (now : TimestampNs) (b : OrderBook) :
    ∃ next, recoverInOrder items upstreamNextOrderId now b =
      { (items.foldl (restore now) (b, 0)).1 with nextOrderId := next } :=
  seeded_eq _ _

/-- What the recovered book holds under an id. -/
theorem findOrder_recoverInOrder_iff (h : Iterates shm readable items)
    (upstreamNextOrderId : Option InternalOrderId) (now : TimestampNs) (orderId : InternalOrderId)
    (entry : OrderEntry) :
    (recoverInOrder items upstreamNextOrderId now OrderBook.empty).findOrder orderId = some entry ↔
      ∃ index, LatestSlot shm readable orderId index ∧
        entry = bookEntry ⟨index, shm.slots index⟩ now := by
  have hadded := added_foldl now items OrderBook.empty 0 h.addable
  obtain ⟨next, heq⟩ := recoverInOrder_eq items upstreamNextOrderId now OrderBook.empty
  have hfind : (recoverInOrder items upstreamNextOrderId now OrderBook.empty).findOrder orderId =
      (items.foldl (restore now) (OrderBook.empty, 0)).1.findOrder orderId := by
    rw [heq]
    rfl
  rw [hfind]
  constructor
  · intro hentry
    by_cases hany : ∃ item ∈ items, item.1 = orderId
    · obtain ⟨item, hitem, rfl⟩ := hany
      obtain ⟨hlatest, hsnapshot⟩ := (h.latest_iff item.1 item.2).1 hitem
      rw [hadded.found item hitem, Option.some.injEq] at hentry
      refine ⟨item.2.index, hlatest, ?_⟩
      rw [← hentry, ← hsnapshot]
    · rw [hadded.kept orderId fun item hitem hid => hany ⟨item, hitem, hid⟩] at hentry
      exact absurd hentry (by simp [OrderBook.findOrder, OrderBook.empty])
  · rintro ⟨index, hlatest, rfl⟩
    exact hadded.found (orderId, ⟨index, shm.slots index⟩) ((h.latest_iff _ _).2 ⟨hlatest, rfl⟩)

/-- As soon as one slot of an order is eligible, there is a latest one. -/
theorem EligibleSlot.exists_latest {orderId : InternalOrderId} {index : OrderIndex}
    (h : EligibleSlot shm readable orderId index) :
    ∃ latest, LatestSlot shm readable orderId latest := by
  have hscan := scanned_scan (masked shm readable)
  have hc := (candidate_masked_iff shm readable orderId ⟨index, shm.slots index⟩).2 ⟨h, rfl⟩
  cases hlookup : (scan (masked shm readable)).lookup orderId with
  | none => exact absurd hlookup (hscan.complete orderId _ hc (mem_scanned hc.1))
  | some c =>
      rw [← scanReadable_eq, lookup_scanReadable_iff] at hlookup
      exact ⟨c.index, hlookup.1⟩

/-- The orders of the recovered book are those with an eligible slot. -/
theorem isSome_findOrder_recoverInOrder_iff (h : Iterates shm readable items)
    (upstreamNextOrderId : Option InternalOrderId) (now : TimestampNs) (orderId : InternalOrderId) :
    ((recoverInOrder items upstreamNextOrderId now OrderBook.empty).findOrder orderId).isSome =
      true ↔ ∃ index, EligibleSlot shm readable orderId index := by
  rw [Option.isSome_iff_exists]
  constructor
  · rintro ⟨entry, hentry⟩
    obtain ⟨index, hlatest, -⟩ :=
      (findOrder_recoverInOrder_iff h upstreamNextOrderId now orderId entry).1 hentry
    exact ⟨index, hlatest.eligible⟩
  · rintro ⟨index, heligible⟩
    obtain ⟨latest, hlatest⟩ := heligible.exists_latest
    exact ⟨_, (findOrder_recoverInOrder_iff h upstreamNextOrderId now orderId _).2
      ⟨latest, hlatest, rfl⟩⟩

/-- What does not depend on the order of iteration. -/
structure SameRecovery (b b' : OrderBook) : Prop where
  entries : ∀ orderId, b'.findOrder orderId = b.findOrder orderId
  nextOrderId : b'.nextOrderId = b.nextOrderId
  activeCount : b'.activeCount = b.activeCount
  links : b'.links = b.links
  securities : ∀ key, (b'.ordersUnder key).Perm (b.ordersUnder key)
  brokers : ∀ broker, (∀ i j e e', b.findOrder i = some e → b.findOrder j = some e' →
      e.request.brokerOrderId = broker → e'.request.brokerOrderId = broker → i = j) →
    b'.findByBrokerId broker = b.findByBrokerId broker

/-- The indexes of the recovered book agree with its entries. -/
theorem indexed_recoverInOrder (items : List (InternalOrderId × RecoveredOrderCandidate))
    (upstreamNextOrderId : Option InternalOrderId) (now : TimestampNs) :
    (recoverInOrder items upstreamNextOrderId now OrderBook.empty).Indexed := by
  obtain ⟨next, heq⟩ := recoverInOrder_eq items upstreamNextOrderId now OrderBook.empty
  have hsame : OrderBook.SameLabels (items.foldl (restore now) (OrderBook.empty, 0)).1
      (recoverInOrder items upstreamNextOrderId now OrderBook.empty) := by
    rw [heq]
    exact ⟨fun _ => rfl, rfl, rfl, rfl⟩
  have hcount : (recoverInOrder items upstreamNextOrderId now OrderBook.empty).activeCount =
      (items.foldl (restore now) (OrderBook.empty, 0)).1.activeCount := by
    rw [heq]
  exact hsame.indexed hcount
    (preserved_foldl (fun _ _ hb => hb.addOrder _ _) _ _ OrderBook.indexed_empty)

/-- Every broker id of a recovered order is in the index. -/
theorem broker_indexed_recoverInOrder (h : Iterates shm readable items)
    (upstreamNextOrderId : Option InternalOrderId) (now : TimestampNs) (orderId : InternalOrderId)
    (entry : OrderEntry)
    (hentry : (recoverInOrder items upstreamNextOrderId now OrderBook.empty).findOrder
      orderId = some entry)
    (hbroker : entry.request.brokerOrderId ≠ 0) :
    ((recoverInOrder items upstreamNextOrderId now OrderBook.empty).brokerIdMap.lookup
      entry.request.brokerOrderId).isSome = true := by
  have hadded := added_foldl now items OrderBook.empty 0 h.addable
  obtain ⟨index, hlatest, rfl⟩ :=
    (findOrder_recoverInOrder_iff h upstreamNextOrderId now orderId entry).1 hentry
  have hsame : (bookEntry ⟨index, shm.slots index⟩ now).request.brokerOrderId =
      (shm.slots index).request.brokerOrderId :=
    congrArg OrderBook.Label.brokerOrderId (OrderBook.labelOf_storedEntry _ now)
  obtain ⟨next, heq⟩ := recoverInOrder_eq items upstreamNextOrderId now OrderBook.empty
  rw [heq]
  refine hadded.brokers _ (Or.inr ⟨hbroker, (orderId, ⟨index, shm.slots index⟩), ?_, hsame.symm⟩)
  exact (h.latest_iff _ _).2 ⟨hlatest, rfl⟩

theorem exists_of_broker {b : OrderBook} (hb : b.Indexed) {broker : UInt64}
    {orderId : InternalOrderId} (h : b.brokerIdMap.lookup broker = some orderId) :
    broker ≠ 0 ∧ ∃ e, b.findOrder orderId = some e ∧ e.request.brokerOrderId = broker :=
  ⟨(hb.broker broker orderId h).1, hb.wellFormed.broker_live broker orderId h⟩

/-- Two orders of iteration give the same book, but for the order in the security lists and for
broker ids that belong to more than one recovered order. -/
theorem sameRecovery_recoverInOrder (h : Iterates shm readable items)
    (h' : Iterates shm readable items')
    (upstreamNextOrderId : Option InternalOrderId) (now : TimestampNs) :
    SameRecovery (recoverInOrder items upstreamNextOrderId now OrderBook.empty)
      (recoverInOrder items' upstreamNextOrderId now OrderBook.empty) := by
  have hperm : items'.Perm items := List.Perm.trans h' (List.Perm.symm h)
  have hentries :
      ∀ orderId, (recoverInOrder items' upstreamNextOrderId now OrderBook.empty).findOrder orderId =
      (recoverInOrder items upstreamNextOrderId now OrderBook.empty).findOrder orderId := by
    intro orderId
    apply Option.ext
    intro entry
    rw [findOrder_recoverInOrder_iff h', findOrder_recoverInOrder_iff h]
  have hnext :
      ∀ n, (recoverInOrder items' upstreamNextOrderId now OrderBook.empty).nextOrderId ≤ n ↔
      (recoverInOrder items upstreamNextOrderId now OrderBook.empty).nextOrderId ≤ n := by
    intro n
    simp only [nextOrderId_recoverInOrder h', nextOrderId_recoverInOrder h, hperm.mem_iff]
  have hcount : (recoverInOrder items' upstreamNextOrderId now OrderBook.empty).activeCount =
      (recoverInOrder items upstreamNextOrderId now OrderBook.empty).activeCount := by
    obtain ⟨_, heq⟩ := recoverInOrder_eq items upstreamNextOrderId now OrderBook.empty
    obtain ⟨_, heq'⟩ := recoverInOrder_eq items' upstreamNextOrderId now OrderBook.empty
    rw [heq, heq']
    simp only [(added_foldl now items OrderBook.empty 0 h.addable).count,
      (added_foldl now items' OrderBook.empty 0 h'.addable).count, hperm.length_eq]
  have hlinks : (recoverInOrder items' upstreamNextOrderId now OrderBook.empty).links =
      (recoverInOrder items upstreamNextOrderId now OrderBook.empty).links := by
    obtain ⟨_, heq⟩ := recoverInOrder_eq items upstreamNextOrderId now OrderBook.empty
    obtain ⟨_, heq'⟩ := recoverInOrder_eq items' upstreamNextOrderId now OrderBook.empty
    rw [heq, heq']
    exact (added_foldl now items' OrderBook.empty 0 h'.addable).links.trans
      (added_foldl now items OrderBook.empty 0 h.addable).links.symm
  have hindexed := indexed_recoverInOrder items upstreamNextOrderId now
  have hindexed' := indexed_recoverInOrder items' upstreamNextOrderId now
  have hlive := broker_indexed_recoverInOrder h upstreamNextOrderId now
  have hlive' := broker_indexed_recoverInOrder h' upstreamNextOrderId now
  generalize recoverInOrder items upstreamNextOrderId now OrderBook.empty = b at *
  generalize recoverInOrder items' upstreamNextOrderId now OrderBook.empty = b' at *
  have hlabel : ∀ k, b'.label k = b.label k := by
    intro k
    rw [OrderBook.label, OrderBook.label, hentries]
  refine ⟨hentries, ?_, hcount, hlinks, ?_, ?_⟩
  · have hle := (hnext b.nextOrderId).2 (UInt32.le_refl _)
    have hge := (hnext b'.nextOrderId).1 (UInt32.le_refl _)
    exact UInt32.le_antisymm hle hge
  · intro key
    rw [List.perm_ext_iff_of_nodup (hindexed'.nodup key) (hindexed.nodup key)]
    intro k
    rw [hindexed'.mem, hindexed.mem, hlabel]
  · intro broker hunique
    -- the index knows a broker id if and only if a recovered order has it
    simp only [OrderBook.findByBrokerId]
    cases hlookup : b.brokerIdMap.lookup broker with
    | none =>
        cases hlookup' : b'.brokerIdMap.lookup broker with
        | none => rfl
        | some k =>
            obtain ⟨hzero, e, he, rfl⟩ := exists_of_broker hindexed' hlookup'
            have hsome := hlive k e (hentries k ▸ he) hzero
            rw [hlookup] at hsome
            exact Bool.noConfusion hsome
    | some k =>
        obtain ⟨hzero, e, he, rfl⟩ := exists_of_broker hindexed hlookup
        obtain ⟨k', hlookup'⟩ :=
          Option.isSome_iff_exists.1 (hlive' k e ((hentries k).trans he) hzero)
        obtain ⟨-, e', he', hbroker'⟩ := exists_of_broker hindexed' hlookup'
        obtain rfl := hunique k k' e e' he (hentries k' ▸ he') rfl hbroker'
        rw [hlookup']
        exact hentries k

end Recovery

open Recovery

/-- Recovery keeps exactly the latest live snapshot of each order, whichever slots can be read and
in whatever order the candidates are taken: one entry for every id with an eligible slot, with the
request and the index of the latest one; the same book for every order of iteration, up to the order
of the security lists and to broker ids that two recovered orders share; and an id generator behind
all recovered ids. -/
theorem recovery_keeps_latest (shm : OrdersShm) (readable : OrderIndex → Bool)
    (upstreamNextOrderId : Option InternalOrderId) (now : TimestampNs)
    {items : List (InternalOrderId × RecoveredOrderCandidate)}
    (hitems : Iterates shm readable items) :
    (∀ orderId, ((recoverInOrder items upstreamNextOrderId now OrderBook.empty).findOrder
        orderId).isSome = true ↔ ∃ index, EligibleSlot shm readable orderId index) ∧
      (∀ orderId entry,
        (recoverInOrder items upstreamNextOrderId now OrderBook.empty).findOrder
          orderId = some entry →
        LatestSlot shm readable orderId entry.shmOrderIndex ∧
          (entry.request = (shm.slots entry.shmOrderIndex).request ∨
            ((shm.slots entry.shmOrderIndex).request.volumeRemain = 0 ∧
              entry.request = { (shm.slots entry.shmOrderIndex).request with
                volumeRemain := (shm.slots entry.shmOrderIndex).request.volumeEntrust -
                  (shm.slots entry.shmOrderIndex).request.volumeTraded }))) ∧
      (∀ items', Iterates shm readable items' →
        SameRecovery (recoverInOrder items upstreamNextOrderId now OrderBook.empty)
          (recoverInOrder items' upstreamNextOrderId now OrderBook.empty)) ∧
      ∀ orderId, ((recoverInOrder items upstreamNextOrderId now OrderBook.empty).findOrder
        orderId).isSome = true → orderId ≠ 0xFFFFFFFF →
        orderId < (recoverInOrder items upstreamNextOrderId now OrderBook.empty).nextOrderId := by
  have hfind := findOrder_recoverInOrder_iff hitems upstreamNextOrderId now
  refine ⟨isSome_findOrder_recoverInOrder_iff hitems upstreamNextOrderId now, ?_,
    fun items' hitems' => sameRecovery_recoverInOrder hitems hitems' upstreamNextOrderId now, ?_⟩
  -- The stored request is that of the slot, except for a remaining volume of zero, which
  -- registration fills in.
  · intro orderId entry hentry
    obtain ⟨index, hlatest, rfl⟩ := (hfind orderId entry).1 hentry
    refine ⟨hlatest, ?_⟩
    simp only [bookEntry, OrderBook.storedEntry, restoredEntry]
    split
    next hempty => exact Or.inr ⟨hempty.2.1, rfl⟩
    next => exact Or.inl rfl
  -- The counter saturates, so only the largest id is not below it.
  · intro orderId hsome hmax
    obtain ⟨entry, hentry⟩ := Option.isSome_iff_exists.1 hsome
    obtain ⟨index, hlatest, -⟩ := (hfind orderId entry).1 hentry
    have hnext := (nextOrderId_recoverInOrder hitems upstreamNextOrderId now _).1 (UInt32.le_refl _)
    have hitem := hnext.2.2 (orderId, ⟨index, shm.slots index⟩)
      ((hitems.latest_iff _ _).2 ⟨hlatest, rfl⟩)
    have hmax' : orderId.toNat ≠ 2 ^ 32 - 1 := fun heq => hmax (UInt32.toNat_inj.1 heq)
    have hlt := orderId.toNat_lt
    rw [saturatedNextOrderId, if_neg hmax, UInt32.le_iff_toNat_le, UInt32.toNat_add,
      Nat.mod_eq_of_lt (by simp only [UInt32.reduceToNat]; omega)] at hitem
    simp only [UInt32.reduceToNat] at hitem
    exact UInt32.lt_iff_toNat_lt.2 (by omega)

/-- A pool with two working orders that have the same broker id. -/
def twinPool : OrdersShm where
  capacity := 2
  nextIndex := 2
  slots := fun index =>
    { lastUpdateNs := 5
      stage := .downstreamQueued
      request := { OrderRequest.ofClient (index + 1) .buy 100 10 with
        orderState := .traderSubmitted, brokerOrderId := 77 } }
  capacity_le := by decide
  nextIndex_le := by decide

def twinItem (index : OrderIndex) : InternalOrderId × RecoveredOrderCandidate :=
  (index + 1, ⟨index, twinPool.slots index⟩)

/-- The order of iteration decides which of two orders with the same broker id is found under it. -/
theorem recovery_depends_on_iteration :
    Iterates twinPool (fun _ => true) [twinItem 0, twinItem 1] ∧
      Iterates twinPool (fun _ => true) [twinItem 1, twinItem 0] ∧
      (recoverInOrder [twinItem 0, twinItem 1] none 0 OrderBook.empty).findByBrokerId 77 ≠
        (recoverInOrder [twinItem 1, twinItem 0] none 0 OrderBook.empty).findByBrokerId 77 := by
  have hentries : (scanReadable twinPool fun _ => true).entries.map (fun e => (e.1, e.2)) =
      [twinItem 1, twinItem 0] := by rfl
  have hfirst :
      ((recoverInOrder [twinItem 0, twinItem 1] none 0 OrderBook.empty).findByBrokerId 77).map
      (fun e => e.request.internalOrderId) = some 2 := by decide
  have hsecond :
      ((recoverInOrder [twinItem 1, twinItem 0] none 0 OrderBook.empty).findByBrokerId 77).map
      (fun e => e.request.internalOrderId) = some 1 := by decide
  refine ⟨?_, ?_, fun heq => ?_⟩
  · rw [Iterates, hentries]
    exact List.Perm.swap _ _ _
  · rw [Iterates, hentries]
  · rw [heq, hsecond] at hfirst
    exact absurd hfirst (by decide)

/-- A pool in which two orders have two slots each; a third order is terminal. -/
def scatteredPool : OrdersShm where
  capacity := 5
  nextIndex := 5
  slots := fun index =>
    { lastUpdateNs := if index = 0 then 4 else 5
      stage := if index = 4 then .terminal else .downstreamQueued
      request := { OrderRequest.ofClient (if index = 4 then 3 else index % 2 + 1) .buy 100 10 with
        orderState := .traderSubmitted } }
  capacity_le := by decide
  nextIndex_le := by decide

/-- The last slot of the second order cannot be read. -/
def torn (index : OrderIndex) : Bool := index ≠ 3

def scatteredItem (index : OrderIndex) : InternalOrderId × RecoveredOrderCandidate :=
  (index % 2 + 1, ⟨index, scatteredPool.slots index⟩)

def scatteredBook :
    OrderBook := recoverInOrder [scatteredItem 2, scatteredItem 1] none 0 OrderBook.empty

/-- The latest slot that can be read is taken of each of the two orders, whichever comes first. -/
theorem recovery_keeps_latest_scattered :
    Iterates scatteredPool torn [scatteredItem 2, scatteredItem 1] ∧
      (scatteredBook.findOrder 3).isSome = false ∧
      (∃ entry, scatteredBook.findOrder 1 = some entry ∧
        LatestSlot scatteredPool torn 1 entry.shmOrderIndex ∧ entry.shmOrderIndex = 2) ∧
      (∃ entry, scatteredBook.findOrder 2 = some entry ∧
        LatestSlot scatteredPool torn 2 entry.shmOrderIndex ∧ entry.shmOrderIndex = 1) ∧
      SameRecovery scatteredBook
        (recoverInOrder [scatteredItem 1, scatteredItem 2] none 0 OrderBook.empty) ∧
      2 < scatteredBook.nextOrderId := by
  have hentries : (scanReadable scatteredPool torn).entries.map (fun e => (e.1, e.2)) =
      [scatteredItem 2, scatteredItem 1] := by rfl
  have hiterates : Iterates scatteredPool torn [scatteredItem 2, scatteredItem 1] := by
    rw [Iterates, hentries]
  have hswapped : Iterates scatteredPool torn [scatteredItem 1, scatteredItem 2] := by
    rw [Iterates, hentries]
    exact List.Perm.swap _ _ _
  obtain ⟨-, hlatest, hsame, hnext⟩ := recovery_keeps_latest scatteredPool torn none 0 hiterates
  have hslot : ∀ orderId index, (scatteredBook.findOrder orderId).map
      (·.shmOrderIndex) = some index → ∃ entry, scatteredBook.findOrder orderId = some entry ∧
        LatestSlot scatteredPool torn orderId entry.shmOrderIndex ∧
          entry.shmOrderIndex = index := by
    intro orderId index hindex
    obtain ⟨entry, hentry, heq⟩ := Option.map_eq_some_iff.1 hindex
    exact ⟨entry, hentry, (hlatest orderId entry hentry).1, heq⟩
  exact ⟨hiterates, by decide, hslot 1 2 (by decide), hslot 2 1 (by decide), hsame _ hswapped,
    hnext 2 (by decide) (by decide)⟩

end AccountServices
