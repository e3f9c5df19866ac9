import AccountServices.Order.BookInvariant
import AccountServices.Order.BookStates
import AccountServices.Order.Recovery

/-!
# The book that recovery builds

For every order id the scan keeps the latest slot that qualifies, and the book is filled with what
was kept: the pool has no more slots than the book, so that no order is refused. An id is in the
recovered book exactly when one of its slots qualifies, and no recovered order holds a reservation.
-/

set_option autoImplicit false

namespace AccountServices

open Foundation

namespace Recovery

/-! ## The scan -/

/-- The slot under this index qualifies, and holds the id. -/
def Candidate (shm : OrdersShm) (orderId : InternalOrderId) (c : RecoveredOrderCandidate) : Prop :=
  shm.readSnapshot c.index = some c.snapshot ∧ eligible c.snapshot = true ∧
    c.snapshot.request.internalOrderId = orderId

/-- The latest of the candidates among these indices. -/
structure LatestIn (shm : OrdersShm) (indices : List OrderIndex) (orderId : InternalOrderId)
    (c : RecoveredOrderCandidate) : Prop where
  candidate : Candidate shm orderId c
  mem : c.index ∈ indices
  latest : ∀ c', Candidate shm orderId c' → c'.index ∈ indices → ¬ shouldReplace c c' = true

/-- The order of the candidates: by time, and by index at the same time. -/
theorem shouldReplace_iff (c c' : RecoveredOrderCandidate) : shouldReplace c c' = true ↔
    c.snapshot.lastUpdateNs.toNat < c'.snapshot.lastUpdateNs.toNat ∨
      (c'.snapshot.lastUpdateNs.toNat = c.snapshot.lastUpdateNs.toNat ∧
        c.index.toNat < c'.index.toNat) := by
  simp only [shouldReplace, Bool.or_eq_true, Bool.and_eq_true, decide_eq_true_eq,
    gt_iff_lt, Word.lt_iff, Word.eq_iff, UInt32.lt_iff_toNat_lt]

/-- Of two candidates none of which replaces the other, there is only one. -/
theorem index_eq_of_not_replace {c c' : RecoveredOrderCandidate} (h : ¬ shouldReplace c c' = true)
    (h' : ¬ shouldReplace c' c = true) : c.index = c'.index := by
  rw [shouldReplace_iff] at h h'
  apply UInt32.toNat_inj.1
  omega

theorem candidate_unique {shm : OrdersShm} {orderId : InternalOrderId}
    {c c' : RecoveredOrderCandidate}
    (h : Candidate shm orderId c) (h' : Candidate shm orderId c') (hindex : c.index = c'.index) :
    c = c' := by
  have hsnapshot := h.1.symm.trans (hindex ▸ h'.1)
  cases c
  cases c'
  simp only [Option.some.injEq] at hindex hsnapshot
  rw [hindex, hsnapshot]

/-- A candidate is a copy of its slot. -/
theorem Candidate.eq_slot {shm : OrdersShm} {orderId : InternalOrderId}
    {c : RecoveredOrderCandidate}
    (h : Candidate shm orderId c) : c = ⟨c.index, shm.slots c.index⟩ := by
  have hread := h.1
  rw [OrdersShm.readSnapshot] at hread
  split at hread
  · rw [Option.some.inj hread]
  · exact absurd hread (by simp)

/-- What the scan keeps is the latest candidate of every id. -/
structure Scanned (shm : OrdersShm) (indices : List OrderIndex)
    (kept : Map InternalOrderId RecoveredOrderCandidate) : Prop where
  latest : ∀ orderId c, kept.lookup orderId = some c → LatestIn shm indices orderId c
  complete : ∀ orderId c, Candidate shm orderId c → c.index ∈ indices → kept.lookup orderId ≠ none
  count : Map.total kept (fun _ => 1) ≤ indices.length

theorem LatestIn.append {shm : OrdersShm} {indices : List OrderIndex} {orderId : InternalOrderId}
    {c : RecoveredOrderCandidate} {index : OrderIndex} (h : LatestIn shm indices orderId c)
    (hnew : ∀ c', Candidate shm orderId c' → c'.index = index → ¬ shouldReplace c c' = true) :
    LatestIn shm (indices ++ [index]) orderId c := by
  refine ⟨h.candidate, List.mem_append_left _ h.mem, ?_⟩
  intro c' hc' hmem
  rcases List.mem_append.1 hmem with hold | hlast
  · exact h.latest c' hc' hold
  · exact hnew c' hc' (List.mem_singleton.1 hlast)

/-- A slot changes nothing when it does not qualify, or when what was kept for its id is as new. -/
theorem Scanned.keep {shm : OrdersShm} {indices : List OrderIndex}
    {kept : Map InternalOrderId RecoveredOrderCandidate} (h : Scanned shm indices kept)
    {index : OrderIndex}
    (hold : ∀ orderId c, Candidate shm orderId c → c.index = index →
      ∃ old, kept.lookup orderId = some old ∧ ¬ shouldReplace old c = true) :
    Scanned shm (indices ++ [index]) kept where
  latest orderId c hc := by
    apply (h.latest orderId c hc).append
    intro c' hc' heq
    obtain ⟨old, hlookup, hkeep⟩ := hold orderId c' hc' heq
    rw [hc, Option.some.injEq] at hlookup
    exact hlookup ▸ hkeep
  complete orderId c hc hmem := by
    rcases List.mem_append.1 hmem with hearlier | hlast
    · exact h.complete orderId c hc hearlier
    · obtain ⟨old, hlookup, -⟩ := hold orderId c hc (List.mem_singleton.1 hlast)
      simp [hlookup]
  count := by
    have := h.count
    rw [List.length_append]
    omega

/-- A candidate that is newer than what was kept for its id, if anything was, takes its place. -/
theorem Scanned.insert {shm : OrdersShm} {indices : List OrderIndex}
    {kept : Map InternalOrderId RecoveredOrderCandidate} (h : Scanned shm indices kept)
    {orderId : InternalOrderId} {c : RecoveredOrderCandidate} (hc : Candidate shm orderId c)
    (hnewer : ∀ old, kept.lookup orderId = some old → shouldReplace old c = true) :
    Scanned shm (indices ++ [c.index]) (kept.insert orderId c) where
  latest id k hk := by
    rw [Map.lookup_insert_eq] at hk
    split at hk
    next heq =>
      cases hk
      subst heq
      refine ⟨hc, List.mem_append_right _ (List.mem_singleton.2 rfl), ?_⟩
      intro c' hc' hmem
      rcases List.mem_append.1 hmem with hold | hlast
      · -- The candidate is newer than the kept one, which is as new as every earlier one.
        cases hkept : kept.lookup id with
        | none => exact absurd hkept (h.complete id c' hc' hold)
        | some old =>
            have hreplace := (shouldReplace_iff old c).1 (hnewer old hkept)
            have hlatest := (h.latest id old hkept).latest c' hc' hold
            rw [shouldReplace_iff] at hlatest ⊢
            omega
      · rw [shouldReplace_iff, candidate_unique hc' hc (List.mem_singleton.1 hlast)]
        omega
    next hne =>
      refine (h.latest id k hk).append fun c' hc' heq => absurd ?_ hne
      have hsame := hc'.1.symm.trans (heq ▸ hc.1)
      rw [← hc'.2.2, Option.some.inj hsame, hc.2.2]
  complete id c' hc' hmem := by
    rw [Map.lookup_insert_eq]
    split
    · exact Option.some_ne_none _
    next hne =>
      rcases List.mem_append.1 hmem with hold | hlast
      · exact h.complete id c' hc' hold
      · have hsame := hc'.1.symm.trans ((List.mem_singleton.1 hlast) ▸ hc.1)
        exact absurd (by rw [← hc'.2.2, Option.some.inj hsame, hc.2.2]) hne
  count := by
    have hcount := h.count
    rw [List.length_append, List.length_singleton]
    cases hkept : kept.lookup orderId with
    | none =>
        rw [Map.total_insert_of_lookup_none hkept]
        omega
    | some old =>
        have := Map.total_insert_of_lookup_some (f := fun _ => 1) hkept c
        omega

/-- One turn of the scan. -/
theorem Scanned.scanSlot {shm : OrdersShm} {indices : List OrderIndex}
    {kept : Map InternalOrderId RecoveredOrderCandidate} (h : Scanned shm indices kept)
    (index : OrderIndex) : Scanned shm (indices ++ [index]) (scanSlot shm kept index) := by
  rw [Recovery.scanSlot]
  -- A slot that cannot be read, or is not eligible, keeps what was found so far.
  cases hread : shm.readSnapshot index with
  | none =>
      apply h.keep
      rintro orderId c ⟨hc, -⟩ rfl
      rw [hread] at hc
      exact absurd hc (by simp)
  | some slot =>
      simp only
      split
      next hskip =>
        apply h.keep
        rintro orderId c ⟨hc, heligible, -⟩ rfl
        rw [hread, Option.some.injEq] at hc
        exact absurd (hc ▸ heligible) hskip
      next htake =>
        have hc : Candidate shm slot.request.internalOrderId ⟨index, slot⟩ :=
          ⟨hread, not_not.1 htake, rfl⟩
        -- A second slot of an order replaces the first one only if it is the later one.
        cases hkept : kept.lookup slot.request.internalOrderId with
        | none => exact h.insert hc fun old hold => absurd (hkept.symm.trans hold) (by simp)
        | some existing =>
            simp only
            split
            next hreplace =>
              apply h.insert hc
              intro old hold
              rw [hkept, Option.some.injEq] at hold
              exact hold ▸ hreplace
            -- The later one was there already.
            next hkeep =>
              apply h.keep
              rintro orderId c hc' rfl
              have hsame := Option.some.inj (hc'.1.symm.trans hread)
              have hid : orderId = slot.request.internalOrderId := by rw [← hc'.2.2, hsame]
              subst hid
              exact ⟨existing, hkept, candidate_unique hc' hc rfl ▸ hkeep⟩

/-- The scan of the whole pool. -/
theorem scanned_scan (shm : OrdersShm) :
    Scanned shm ((List.range shm.nextIndex.toNat).map UInt32.ofNat) (scan shm) := by
  have hfold : ∀ (rest done : List OrderIndex) (kept : Map InternalOrderId RecoveredOrderCandidate),
      Scanned shm done kept →
        Scanned shm (done ++ rest) (rest.foldl (Recovery.scanSlot shm) kept) := by
    intro rest
    induction rest with
    | nil =>
        intro done kept h
        rw [List.append_nil]
        exact h
    | cons index rest ih =>
        intro done kept h
        have hnext := ih (done ++ [index]) _ (h.scanSlot index)
        rw [List.append_assoc] at hnext
        exact hnext
  refine hfold _ [] ∅ ⟨?_, ?_, ?_⟩
  · intro orderId c hc
    exact absurd hc (by simp)
  · intro orderId c _ hmem
    exact absurd hmem (by simp)
  · simp

/-- Every slot that can be read is scanned. -/
theorem mem_scanned {shm : OrdersShm} {index : OrderIndex} {slot : OrderSlot}
    (h : shm.readSnapshot index = some slot) :
    index ∈ (List.range shm.nextIndex.toNat).map UInt32.ofNat := by
  have hexists : shm.indexExists index = true := by
    by_contra hnot
    rw [OrdersShm.readSnapshot, if_neg hnot] at h
    exact absurd h (by simp)
  have hlt := (of_decide_eq_true hexists).2.1
  exact List.mem_map.2 ⟨index.toNat, List.mem_range.2 (UInt32.lt_iff_toNat_lt.1 hlt), by simp⟩

/-! ## The restoration -/

/-- What every order that enters the book preserves, the restoration preserves. -/
theorem preserved_foldl {P : OrderBook → Prop} {now : TimestampNs}
    (hadd : ∀ b entry, P b → P (b.addOrder entry now).book) :
    ∀ (items : List (InternalOrderId × RecoveredOrderCandidate))
      (acc : OrderBook × InternalOrderId),
      P acc.1 → P (items.foldl (restore now) acc).1 := by
  intro items
  induction items with
  | nil => exact fun acc h => h
  | cons item rest ih =>
      intro acc h
      refine ih _ ?_
      simp only [restore]
      split
      · exact hadd _ _ h
      · exact hadd _ _ h

/-- The seed changes nothing but the id generator. -/
theorem seeded_eq (b : OrderBook) (seed : InternalOrderId) :
    ∃ next, (if seed > 0 then b.ensureNextOrderIdAtLeast seed else b) =
      { b with nextOrderId := next } := by
  simp only [OrderBook.ensureNextOrderIdAtLeast]
  split
  · split
    · exact ⟨_, rfl⟩
    · exact ⟨_, rfl⟩
  · exact ⟨_, rfl⟩

/-- What every order that enters the book preserves, and the id generator has no part in, the
recovered book has. -/
theorem preserved_recover {P : OrderBook → Prop} {now : TimestampNs}
    (hadd : ∀ b entry, P b → P (b.addOrder entry now).book)
    (hnext : ∀ b next, P b → P { b with nextOrderId := next }) (shm : OrdersShm)
    (upstreamNextOrderId : Option InternalOrderId) {b : OrderBook} (h : P b) :
    P (recoverDownstreamActiveOrders shm upstreamNextOrderId now b) := by
  simp only [recoverDownstreamActiveOrders]
  obtain ⟨next, heq⟩ := seeded_eq (restoreAll now b (scan shm)).1
    (nextOrderSeed upstreamNextOrderId (restoreAll now b (scan shm)).2)
  rw [heq]
  exact hnext _ _ (preserved_foldl hadd _ _ h)

/-- The entry of the book that a candidate becomes. -/
def bookEntry (c : RecoveredOrderCandidate) (now : TimestampNs) : OrderEntry :=
  OrderBook.storedEntry (restoredEntry c now) now

/-- The candidates can all be added: they have different ids, each its own, and fit into the
book. -/
structure Addable (b : OrderBook) (items : List (InternalOrderId × RecoveredOrderCandidate)) :
    Prop where
  nodup : (items.map (·.1)).Nodup
  own : ∀ item ∈ items, item.2.snapshot.request.internalOrderId = item.1 ∧ item.1 ≠ 0
  absent : ∀ item ∈ items, b.findOrder item.1 = none
  room : b.totalTerms (fun _ => 1) + items.length ≤ kMaxActiveOrders

/-- The book after the candidates were added, and the largest of their ids. -/
structure Added (b : OrderBook) (items : List (InternalOrderId × RecoveredOrderCandidate))
    (now : TimestampNs) (m : InternalOrderId) (out : OrderBook × InternalOrderId) : Prop where
  found : ∀ item ∈ items, out.1.findOrder item.1 = some (bookEntry item.2 now)
  kept : ∀ id, (∀ item ∈ items, item.1 ≠ id) → out.1.findOrder id = b.findOrder id
  count : out.1.activeCount = b.activeCount + items.length
  links : out.1.links = b.links
  next : ∀ n, out.1.nextOrderId ≤ n ↔
    b.nextOrderId ≤ n ∧ ∀ item ∈ items, saturatedNextOrderId item.1 ≤ n
  largest : out.2 = m ∨ ∃ item ∈ items, out.2 = item.1
  brokers : ∀ broker, (b.brokerIdMap.lookup broker).isSome = true ∨
      (broker ≠ 0 ∧ ∃ item ∈ items, item.2.snapshot.request.brokerOrderId = broker) →
    (out.1.brokerIdMap.lookup broker).isSome = true

/-- The id generator is raised to the id behind the new one, if it is not there yet. -/
theorem nextOrderId_addOrder {b : OrderBook} {entry : OrderEntry} {now : TimestampNs}
    (hok : (b.addOrder entry now).ok = true)
    (horphan : ¬ (entry.isSplitChild = true ∧ entry.parentOrderId ≠ 0)) (n : InternalOrderId) :
    (b.addOrder entry now).book.nextOrderId ≤ n ↔
      b.nextOrderId ≤ n ∧ saturatedNextOrderId entry.request.internalOrderId ≤ n := by
  obtain ⟨h₁, h₂, h₃⟩ := (OrderBook.addOrder_ok_iff b entry now).1 hok
  have hstored : ¬ ((OrderBook.storedEntry entry now).isSplitChild = true ∧
      (OrderBook.storedEntry entry now).parentOrderId ≠ 0) := horphan
  have hnext : (b.addOrder entry now).book.nextOrderId =
      if b.nextOrderId < saturatedNextOrderId entry.request.internalOrderId then
        saturatedNextOrderId entry.request.internalOrderId
      else b.nextOrderId := by
    simp only [OrderBook.addOrder]
    rw [if_neg h₁, if_neg (by simp [h₂]), if_neg (by simpa using h₃), if_neg hstored]
    simp only [OrderBook.registerOrder, OrderBook.ensureNextOrderIdAtLeast]
    split <;> split <;> split <;> rfl
  rw [hnext]
  simp only [UInt32.lt_iff_toNat_lt, UInt32.le_iff_toNat_le]
  split
  · omega
  · omega

theorem isSome_brokerIdMap_addOrder {b : OrderBook} {entry : OrderEntry} {now : TimestampNs}
    (hok : (b.addOrder entry now).ok = true) {broker : UInt64}
    (h : (b.brokerIdMap.lookup broker).isSome = true ∨
      (broker ≠ 0 ∧ entry.request.brokerOrderId = broker)) :
    ((b.addOrder entry now).book.brokerIdMap.lookup broker).isSome = true := by
  have hbroker : (OrderBook.storedEntry entry now).request.brokerOrderId =
      entry.request.brokerOrderId :=
    congrArg OrderBook.Label.brokerOrderId (OrderBook.labelOf_storedEntry entry now)
  rw [(OrderBook.sameLabels_addOrder hok).1.brokerIdMap, OrderBook.stored,
    OrderBook.lookup_brokerIdMap_registerOrder, hbroker]
  rcases h with hold | ⟨hne, rfl⟩
  · split
    · rfl
    · exact hold
  · rw [if_pos ⟨hne, rfl⟩]
    rfl

/-- Candidates that can be added are added, whatever their order. -/
theorem added_foldl (now : TimestampNs) :
    ∀ (items : List (InternalOrderId × RecoveredOrderCandidate)) (b : OrderBook)
      (m : InternalOrderId),
      Addable b items → Added b items now m (items.foldl (restore now) (b, m)) := by
  intro items
  induction items with
  | nil =>
      intro b m _
      refine ⟨?_, fun _ _ => rfl, rfl, rfl, fun n => by simp, Or.inl rfl, ?_⟩
      · exact fun item hitem => absurd hitem List.not_mem_nil
      · rintro broker (hold | ⟨-, item, hitem, -⟩)
        · exact hold
        · exact absurd hitem List.not_mem_nil
  | cons item items ih =>
      intro b m h
      obtain ⟨hid, hne⟩ := h.own item List.mem_cons_self
      obtain ⟨hfresh, hnodup⟩ := List.nodup_cons.1 h.nodup
      have hroom := h.room
      rw [List.length_cons] at hroom
      have hid' : (restoredEntry item.2 now).request.internalOrderId = item.1 := hid
      have horphan : ¬ ((restoredEntry item.2 now).isSplitChild = true ∧
          (restoredEntry item.2 now).parentOrderId ≠ 0) := fun hchild => Bool.noConfusion hchild.1
      -- the id is not zero and not taken, and the book has a slot left
      have hok : (b.addOrder (restoredEntry item.2 now) now).ok = true := by
        apply (OrderBook.addOrder_ok_iff b _ now).2
        rw [hid']
        refine ⟨hne, h.absent item List.mem_cons_self, SlotTable.free_ne_nil ?_⟩
        have hcount : b.totalTerms (fun _ => 1) = b.table.total fun _ => 1 := rfl
        omega
      have hfind := OrderBook.findOrder_addOrder_orphan hok horphan
      have hnext := nextOrderId_addOrder hok horphan
      have hlinks := OrderBook.links_addOrder_orphan b now horphan
      have hbroker : ∀ broker, (b.brokerIdMap.lookup broker).isSome = true ∨
          (broker ≠ 0 ∧ item.2.snapshot.request.brokerOrderId = broker) →
          ((b.addOrder (restoredEntry item.2 now) now).book.brokerIdMap.lookup broker).isSome =
            true :=
        fun broker => isSome_brokerIdMap_addOrder hok
      have htotal := OrderBook.totalTerms_addOrder hok fun _ => 1
      have hcount := (OrderBook.sameLabels_addOrder hok).2
      have hstep : restore now (b, m) item = ((b.addOrder (restoredEntry item.2 now) now).book,
          if item.1 > m then item.1 else m) := by
        simp only [restore]
        rw [if_pos hok]
      rw [hid'] at hfind hnext
      generalize (b.addOrder (restoredEntry item.2 now) now).book = b₁ at *
      have hrest := ih b₁ (if item.1 > m then item.1 else m) ⟨hnodup,
        fun i hi => h.own i (List.mem_cons_of_mem item hi), fun i hi => ?_, ?_⟩
      · rw [List.foldl_cons, hstep]
        refine ⟨?_, ?_, ?_, hrest.links.trans hlinks, ?_, ?_, ?_⟩
        · intro i hi
          rcases List.mem_cons.1 hi with rfl | hi
          · rw [hrest.kept i.1 fun j hj heq => hfresh (List.mem_map.2 ⟨j, hj, heq⟩),
              hfind, if_pos rfl]
            rfl
          · exact hrest.found i hi
        · intro id hid
          rw [hrest.kept id fun j hj => hid j (List.mem_cons_of_mem item hj), hfind,
            if_neg fun heq => hid item List.mem_cons_self heq.symm]
        · have hlength := hrest.count
          rw [List.length_cons]
          omega
        · intro n
          rw [hrest.next n, hnext n, List.forall_mem_cons, and_assoc]
        · have hlarger : (if item.1 > m then item.1 else m) = item.1 ∨
              (if item.1 > m then item.1 else m) = m := by
            split
            · exact Or.inl rfl
            · exact Or.inr rfl
          rcases hrest.largest with heq | ⟨i, hi, heq⟩
          · rcases hlarger with hitem | hold
            · exact Or.inr ⟨item, List.mem_cons_self, heq.trans hitem⟩
            · exact Or.inl (heq.trans hold)
          · exact Or.inr ⟨i, List.mem_cons_of_mem item hi, heq⟩
        · rintro broker (hold | ⟨hzero, i, hi, heq⟩)
          · exact hrest.brokers broker (Or.inl (hbroker broker (Or.inl hold)))
          · rcases List.mem_cons.1 hi with rfl | hi
            · exact hrest.brokers broker (Or.inl (hbroker broker (Or.inr ⟨hzero, heq⟩)))
            · exact hrest.brokers broker (Or.inr ⟨hzero, i, hi, heq⟩)
      · rw [hfind, if_neg fun heq => hfresh (List.mem_map.2 ⟨i, hi, heq⟩)]
        exact h.absent i (List.mem_cons_of_mem item hi)
      · rw [htotal]
        omega

end Recovery

open Recovery

/-- The slot that recovery takes for an order id: one that qualifies, and the latest of these. -/
def OrdersShm.RecoversFrom (shm : OrdersShm) (orderId : InternalOrderId) (index : OrderIndex) :
    Prop :=
  Candidate shm orderId ⟨index, shm.slots index⟩ ∧
    ∀ c, Candidate shm orderId c → ¬ shouldReplace ⟨index, shm.slots index⟩ c = true

/-- The recovered book: every id with a slot that qualifies, as the latest of these slots has it. -/
structure RecoveredFrom (b : OrderBook) (shm : OrdersShm) (now : TimestampNs) : Prop where
  found : ∀ orderId index, shm.RecoversFrom orderId index →
    b.terms orderId = some (restoredEntry ⟨index, shm.slots index⟩ now).terms
  sound : ∀ orderId t, b.terms orderId = some t → ∃ index, shm.RecoversFrom orderId index ∧
    t = (restoredEntry ⟨index, shm.slots index⟩ now).terms
  complete : ∀ orderId c, Candidate shm orderId c → ∃ index, shm.RecoversFrom orderId index
  unlinked : b.Unlinked

theorem recoveredFrom_recover (shm : OrdersShm) (upstreamNextOrderId : Option InternalOrderId)
    (now : TimestampNs) :
    RecoveredFrom (recoverDownstreamActiveOrders shm upstreamNextOrderId now OrderBook.empty)
      shm now := by
  have hscan := scanned_scan shm
  set items := (scan shm).entries.map fun e => (e.1, e.2) with hitems
  have hmem : ∀ orderId c, (orderId, c) ∈ items ↔ (scan shm).lookup orderId = some c := by
    intro orderId c
    rw [← Map.mem_entries_iff, hitems, List.mem_map]
    constructor
    · rintro ⟨⟨k, v⟩, hentry, heq⟩
      cases heq
      exact hentry
    · intro hentry
      exact ⟨⟨orderId, c⟩, hentry, rfl⟩
  have haddable : Addable OrderBook.empty items := by
    refine ⟨?_, ?_, fun _ _ => rfl, ?_⟩
    · rw [hitems, List.map_map]
      exact (scan shm).nodupKeys
    · rintro ⟨orderId, c⟩ hitem
      obtain ⟨-, heligible, hid⟩ := (hscan.latest orderId c ((hmem orderId c).1 hitem)).candidate
      simp only [eligible, Bool.and_eq_true, decide_eq_true_eq] at heligible
      exact ⟨hid, hid ▸ heligible.1.2⟩
    · have hcount := hscan.count
      have hlength : items.length = Map.total (scan shm) fun _ => 1 := by
        rw [hitems, List.length_map, Map.total_one]
      have hcapacity := shm.capacity_le
      have hnext := UInt32.le_iff_toNat_le.1 shm.nextIndex_le
      have hempty : OrderBook.empty.totalTerms (fun _ => 1) = 0 := rfl
      rw [List.length_map, List.length_range] at hcount
      omega
  have hadded := added_foldl now items OrderBook.empty 0 haddable
  have hrestored : ∀ item ∈ items, (items.foldl (restore now) (OrderBook.empty, 0)).1.terms item.1 =
      some (restoredEntry item.2 now).terms := by
    intro item hitem
    rw [OrderBook.terms, hadded.found item hitem, Option.map_some, bookEntry,
      OrderBook.terms_storedEntry]
  -- The seed of the id generator is not a term of any order.
  have hseed : ∃ next, recoverDownstreamActiveOrders shm upstreamNextOrderId now OrderBook.empty =
      { (items.foldl (restore now) (OrderBook.empty, 0)).1 with nextOrderId := next } := by
    simp only [recoverDownstreamActiveOrders, restoreAll, ← hitems]
    exact seeded_eq _ _
  obtain ⟨next, hnext⟩ := hseed
  rw [hnext]
  have hkept : ∀ orderId index, shm.RecoversFrom orderId index →
      (scan shm).lookup orderId = some ⟨index, shm.slots index⟩ := by
    rintro orderId index ⟨hc, hlatest⟩
    cases hlookup : (scan shm).lookup orderId with
    | none => exact absurd hlookup (hscan.complete orderId _ hc (mem_scanned hc.1))
    | some c =>
        have hbest := hscan.latest orderId c hlookup
        have hindex := index_eq_of_not_replace (hlatest c hbest.candidate)
          (hbest.latest _ hc (mem_scanned hc.1))
        rw [candidate_unique hc hbest.candidate hindex]
  have hfrom : ∀ orderId c, (scan shm).lookup orderId = some c → shm.RecoversFrom orderId c.index ∧
      c = ⟨c.index, shm.slots c.index⟩ := by
    intro orderId c hlookup
    have hbest := hscan.latest orderId c hlookup
    have hslot := hbest.candidate.eq_slot
    rw [hslot] at hbest
    exact ⟨⟨hbest.candidate, fun c' hc' => hbest.latest c' hc' (mem_scanned hc'.1)⟩, hslot⟩
  refine ⟨?_, ?_, ?_, hadded.links⟩
  · intro orderId index hindex
    exact hrestored (orderId, _) ((hmem _ _).2 (hkept orderId index hindex))
  · intro orderId t ht
    cases hlookup : (scan shm).lookup orderId with
    | none =>
        have hkeep := hadded.kept orderId fun item hitem heq => by
          have hfound := (hmem item.1 item.2).1 hitem
          rw [heq, hlookup] at hfound
          exact absurd hfound (by simp)
        exact absurd ((congrArg (Option.map OrderEntry.terms) hkeep).symm.trans ht)
          (by simp [OrderBook.findOrder, OrderBook.empty])
    | some c =>
        obtain ⟨hc, hslot⟩ := hfrom orderId c hlookup
        have hterms := hrestored (orderId, c) ((hmem _ _).2 hlookup)
        refine ⟨c.index, hc, ?_⟩
        rw [← hslot]
        exact Option.some.inj (ht.symm.trans hterms)
  · intro orderId c hc
    cases hlookup : (scan shm).lookup orderId with
    | none => exact absurd hlookup (hscan.complete orderId c hc (mem_scanned hc.1))
    | some c' => exact ⟨c'.index, (hfrom orderId c' hlookup).1⟩

end AccountServices
