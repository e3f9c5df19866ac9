import AccountServices.Order.BookTerms

/-!
# The representation invariant of the order book

The slot array, the map from ids to slots and the stack of free slots are one `SlotTable` and carry
their part of the invariant as fields. The rest relates the table to the containers that are kept by
hand beside it: the counter of live orders, the security index and the map of broker ids. Fills,
state changes and mirrors do not touch what these containers know of an order, so that the invariant
has to be proved for `add_order` and `archive_order` only.
-/

set_option autoImplicit false

namespace AccountServices

open Foundation

namespace OrderBook

variable {b b' : OrderBook} {orderId : InternalOrderId}

/-- The order under `orderId` is live and its security key normalizes to `key`. -/
def KeyedBy (b : OrderBook) (orderId : InternalOrderId) (key : InternalSecurityId) : Prop :=
  ∃ e, b.findOrder orderId = some e ∧
    normalizeSecurityKey e.request.internalSecurityId.view = some key

/-- The list of the security index under a key. -/
def ordersUnder (b : OrderBook) (key : InternalSecurityId) : List InternalOrderId :=
  (b.securityOrders.lookup key).getD []

/-- The representation invariant. -/
structure WellFormed (b : OrderBook) : Prop where
  index_injective : ∀ k k' i, b.table.index.lookup k = some i →
    b.table.index.lookup k' = some i → k = k'
  free_nodup : b.table.free.Nodup
  used_not_free : ∀ k i, b.table.index.lookup k = some i → i ∉ b.table.free
  slots_covered : ∀ i, (i ∈ b.table.free ∨ ∃ k, b.table.index.lookup k = some i) ↔
    i < kMaxActiveOrders
  active_count : b.activeCount = b.table.index.entries.length
  entry_id : ∀ k i, b.table.index.lookup k = some i → (b.table.slots i).request.internalOrderId = k
  security_ne_nil : ∀ key ids, b.securityOrders.lookup key = some ids → ids ≠ []
  security_nodup : ∀ key, (b.ordersUnder key).Nodup
  security_mem : ∀ key k, k ∈ b.ordersUnder key ↔ b.KeyedBy k key
  broker_live : ∀ broker k, b.brokerIdMap.lookup broker = some k →
    ∃ e, b.findOrder k = some e ∧ e.request.brokerOrderId = broker

/-! ## What the containers beside the table know -/

/-- What is known of an order outside the table. -/
structure Label where
  internalOrderId : InternalOrderId
  brokerOrderId : UInt64
  securityKey : Option InternalSecurityId

/-- The label of an entry. -/
def labelOf (e : OrderEntry) : Label where
  internalOrderId := e.request.internalOrderId
  brokerOrderId := e.request.brokerOrderId
  securityKey := normalizeSecurityKey e.request.internalSecurityId.view

/-- The label of the order under an id, if it is live. -/
def label (b : OrderBook) (orderId : InternalOrderId) : Option Label :=
  (b.findOrder orderId).map labelOf

/-- The part of the invariant that the table does not carry, over labels. -/
structure Indexed (b : OrderBook) : Prop where
  count : b.activeCount = b.totalTerms fun _ => 1
  id : ∀ k l, b.label k = some l → l.internalOrderId = k
  ne_nil : ∀ key ids, b.securityOrders.lookup key = some ids → ids ≠ []
  nodup : ∀ key, (b.ordersUnder key).Nodup
  mem : ∀ key k, k ∈ b.ordersUnder key ↔ ∃ l, b.label k = some l ∧ l.securityKey = some key
  broker : ∀ broker k, b.brokerIdMap.lookup broker = some k →
    broker ≠ 0 ∧ ∃ l, b.label k = some l ∧ l.brokerOrderId = broker

theorem label_eq_some_iff {l : Label} :
    b.label orderId = some l ↔ ∃ e, b.findOrder orderId = some e ∧ labelOf e = l :=
  Option.map_eq_some_iff

theorem label_of_lookup {k : InternalOrderId} {i : Nat} (h : b.table.index.lookup k = some i) :
    b.label k = some (labelOf (b.table.slots i)) := by
  simp only [label, findOrder, SlotTable.find?, h, Option.map_some]

theorem Indexed.wellFormed (h : b.Indexed) : b.WellFormed where
  index_injective _ _ _ := b.table.index_inj
  free_nodup := b.table.free_nodup
  used_not_free _ _ := b.table.free_unused
  slots_covered i := (b.table.covers i).symm
  active_count := by
    rw [h.count]
    exact SlotTable.total_one b.table
  entry_id k i hk := h.id k _ (label_of_lookup hk)
  security_ne_nil := h.ne_nil
  security_nodup := h.nodup
  security_mem key k := by
    rw [h.mem key k]
    constructor
    · rintro ⟨l, hl, hkey⟩
      obtain ⟨e, he, rfl⟩ := label_eq_some_iff.1 hl
      exact ⟨e, he, hkey⟩
    · rintro ⟨e, he, hkey⟩
      exact ⟨labelOf e, label_eq_some_iff.2 ⟨e, he, rfl⟩, hkey⟩
  broker_live broker k hbroker := by
    obtain ⟨-, l, hl, rfl⟩ := h.broker broker k hbroker
    obtain ⟨e, he, rfl⟩ := label_eq_some_iff.1 hl
    exact ⟨e, he, rfl⟩

theorem indexed_empty : empty.Indexed where
  count := rfl
  id k l h := by simp [label, findOrder, empty] at h
  ne_nil key ids h := by simp [empty] at h
  nodup key := by simp [ordersUnder, empty]
  mem key k := by simp [ordersUnder, label, findOrder, empty]
  broker broker k h := by simp [empty] at h

/-- The two books agree on all that is kept beside the table. -/
structure SameLabels (b b' : OrderBook) : Prop where
  label : ∀ k, b'.label k = b.label k
  total : b'.totalTerms (fun _ => 1) = b.totalTerms fun _ => 1
  brokerIdMap : b'.brokerIdMap = b.brokerIdMap
  securityOrders : b'.securityOrders = b.securityOrders

theorem SameLabels.indexed (h : SameLabels b b') (hcount : b'.activeCount = b.activeCount)
    (hb : b.Indexed) : b'.Indexed where
  count := by rw [hcount, hb.count, h.total]
  id k l hl := hb.id k l (h.label k ▸ hl)
  ne_nil := by
    rw [h.securityOrders]
    exact hb.ne_nil
  nodup := by
    simp only [ordersUnder, h.securityOrders]
    exact hb.nodup
  mem key k := by
    rw [h.label k, ← hb.mem key k, ordersUnder, ordersUnder, h.securityOrders]
  broker broker k hbroker := by
    rw [h.brokerIdMap] at hbroker
    rw [h.label k]
    exact hb.broker broker k hbroker

theorem Edit.label (h : Edit b b') (k : InternalOrderId) : b'.label k = b.label k := by
  cases h with
  | @entry id e e' he hterms hbroker =>
      have hlabel : labelOf e' = labelOf e := by
        have hid : e'.request.internalOrderId = e.request.internalOrderId :=
          congrArg OrderTerms.internalOrderId hterms
        have hkey : e'.request.internalSecurityId = e.request.internalSecurityId :=
          congrArg OrderTerms.internalSecurityId hterms
        simp only [labelOf, hid, hkey, hbroker]
      simp only [OrderBook.label]
      rw [findOrder_modifyOrder]
      split
      next heq =>
        subst heq
        rw [he, Option.map_some, Option.map_some, Option.map_some, hlabel]
      next => rfl
  | marks => rfl

theorem SameLabels.refl (b : OrderBook) : SameLabels b b := ⟨fun _ => rfl, rfl, rfl, rfl⟩

theorem SameLabels.trans {b'' : OrderBook} (h : SameLabels b b') (h' : SameLabels b' b'') :
    SameLabels b b'' where
  label k := (h'.label k).trans (h.label k)
  total := h'.total.trans h.total
  brokerIdMap := h'.brokerIdMap.trans h.brokerIdMap
  securityOrders := h'.securityOrders.trans h.securityOrders

theorem Edits.sameLabels (h : Edits b b') : SameLabels b b' := by
  induction h with
  | refl => exact SameLabels.refl b
  | tail _ hedit ih =>
      refine ih.trans ⟨hedit.label, hedit.edits.sameTerms.total _, ?_, ?_⟩
      · cases hedit <;> rfl
      · cases hedit <;> rfl

theorem Edits.activeCount (h : Edits b b') : b'.activeCount = b.activeCount := by
  induction h with
  | refl => rfl
  | tail _ hedit ih =>
      refine Eq.trans ?_ ih
      cases hedit <;> rfl

theorem Edits.indexed (h : Edits b b') (hb : b.Indexed) : b'.Indexed :=
  h.sameLabels.indexed h.activeCount hb

/-! ## `add_order` -/

theorem labelOf_storedEntry (entry : OrderEntry) (now : TimestampNs) :
    labelOf (storedEntry entry now) = labelOf entry := by
  rw [storedEntry]
  simp only
  split <;> rfl

theorem activeCount_registerOrder (b : OrderBook) (orderId : InternalOrderId)
    (stored : OrderEntry) : (b.registerOrder orderId stored).activeCount = b.activeCount := by
  unfold registerOrder ensureNextOrderIdAtLeast
  simp only
  split <;> split <;> split <;> rfl

theorem lookup_brokerIdMap_registerOrder (b : OrderBook) (orderId : InternalOrderId)
    (stored : OrderEntry) (broker : UInt64) :
    (b.registerOrder orderId stored).brokerIdMap.lookup broker =
      if stored.request.brokerOrderId ≠ 0 ∧ broker = stored.request.brokerOrderId then some orderId
      else b.brokerIdMap.lookup broker := by
  have hmap : (b.registerOrder orderId stored).brokerIdMap =
      if stored.request.brokerOrderId ≠ 0 then
        b.brokerIdMap.insert stored.request.brokerOrderId orderId
      else b.brokerIdMap := by
    unfold registerOrder ensureNextOrderIdAtLeast
    simp only
    split <;> split <;> split <;> rfl
  rw [hmap]
  by_cases hzero : stored.request.brokerOrderId ≠ 0
  · rw [if_pos hzero, Map.lookup_insert_eq]
    simp only [hzero, ne_eq, not_false_eq_true, true_and]
  · rw [if_neg hzero, if_neg fun h => hzero h.1]

theorem lookup_securityOrders_registerOrder (b : OrderBook) (orderId : InternalOrderId)
    (stored : OrderEntry) (key : InternalSecurityId) :
    (b.registerOrder orderId stored).securityOrders.lookup key =
      if (labelOf stored).securityKey = some key then some (b.ordersUnder key ++ [orderId])
      else b.securityOrders.lookup key := by
  rcases Option.eq_none_or_eq_some (labelOf stored).securityKey with hkey | ⟨key', hkey⟩
  · have hmap : (b.registerOrder orderId stored).securityOrders = b.securityOrders := by
      simp only [registerOrder, ensureNextOrderIdAtLeast,
        show normalizeSecurityKey _ = none from hkey]
      split <;> split <;> rfl
    rw [hmap, hkey, if_neg (by simp)]
  · have hmap : (b.registerOrder orderId stored).securityOrders =
        b.securityOrders.insert key' (b.ordersUnder key' ++ [orderId]) := by
      simp only [registerOrder, ensureNextOrderIdAtLeast, ordersUnder,
        show normalizeSecurityKey _ = some key' from hkey]
      split <;> split <;> rfl
    rw [hmap, Map.lookup_insert_eq, hkey]
    by_cases heq : key = key'
    · subst heq
      rw [if_pos rfl, if_pos rfl]
    · rw [if_neg heq, if_neg fun h => heq (Option.some.inj h).symm]

section Stored

variable {entry : OrderEntry} {now : TimestampNs}

theorem label_stored (hok : (b.addOrder entry now).ok = true) (k : InternalOrderId) :
    (b.stored entry now).label k =
      if k = entry.request.internalOrderId then some (labelOf entry) else b.label k := by
  obtain ⟨-, hnone, hfree⟩ := (addOrder_ok_iff b entry now).1 hok
  rw [label, findOrder, stored]
  rw [table_registerOrder, SlotTable.find?_insert hnone hfree]
  split
  · rw [Option.map_some, labelOf_storedEntry]
  · rfl

theorem ordersUnder_stored (key : InternalSecurityId) :
    (b.stored entry now).ordersUnder key =
      if (labelOf entry).securityKey = some key then
        b.ordersUnder key ++ [entry.request.internalOrderId]
      else b.ordersUnder key := by
  rw [ordersUnder, stored]
  rw [lookup_securityOrders_registerOrder, labelOf_storedEntry]
  split <;> rfl

/-- What the security index and the broker map say after an order was stored. -/
theorem Indexed.stored_mem (hb : b.Indexed) (hok : (b.addOrder entry now).ok = true)
    (key : InternalSecurityId) (k : InternalOrderId) :
    k ∈ (b.stored entry now).ordersUnder key ↔
      ∃ l, (b.stored entry now).label k = some l ∧ l.securityKey = some key := by
  have hnone : b.label entry.request.internalOrderId = none := by
    rw [label, ((addOrder_ok_iff b entry now).1 hok).2.1, Option.map_none]
  have hmem := hb.mem key k
  rw [label_stored hok, ordersUnder_stored]
  by_cases hk : k = entry.request.internalOrderId
  · subst hk
    -- the id is new: it is in no list of the index yet
    have hnot : entry.request.internalOrderId ∉ b.ordersUnder key := by
      simp [hmem, hnone]
    by_cases hkey : (labelOf entry).securityKey = some key
    · simp [hkey]
    · simp [hkey, hnot]
  · rw [if_neg hk, ← hmem]
    split
    · simp [hk]
    · rfl

theorem Indexed.stored_nodup (hb : b.Indexed) (hok : (b.addOrder entry now).ok = true)
    (key : InternalSecurityId) : ((b.stored entry now).ordersUnder key).Nodup := by
  have hnone : b.label entry.request.internalOrderId = none := by
    rw [label, ((addOrder_ok_iff b entry now).1 hok).2.1, Option.map_none]
  have hnot : entry.request.internalOrderId ∉ b.ordersUnder key := by
    simp [hb.mem key, hnone]
  rw [ordersUnder_stored]
  split
  · exact List.nodup_append.2 ⟨hb.nodup key, List.nodup_singleton _, by
      intro a ha c hc
      rw [List.mem_singleton.1 hc]
      exact fun heq => hnot (heq ▸ ha)⟩
  · exact hb.nodup key

theorem Indexed.stored_broker (hb : b.Indexed) (hok : (b.addOrder entry now).ok = true)
    {broker : UInt64} {k : InternalOrderId}
    (h : (b.stored entry now).brokerIdMap.lookup broker = some k) :
    broker ≠ 0 ∧ ∃ l, (b.stored entry now).label k = some l ∧ l.brokerOrderId = broker := by
  have hlabel : (storedEntry entry now).request.brokerOrderId = entry.request.brokerOrderId :=
    congrArg Label.brokerOrderId (labelOf_storedEntry entry now)
  rw [stored] at h
  rw [lookup_brokerIdMap_registerOrder, hlabel] at h
  rw [label_stored hok]
  split at h
  next hnew =>
    obtain rfl := Option.some.inj h
    obtain ⟨hzero, rfl⟩ := hnew
    exact ⟨hzero, labelOf entry, if_pos rfl, rfl⟩
  next =>
    obtain ⟨hzero, l, hl, hbroker⟩ := hb.broker broker k h
    have hk : k ≠ entry.request.internalOrderId := by
      rintro rfl
      rw [label, ((addOrder_ok_iff b entry now).1 hok).2.1, Option.map_none] at hl
      exact absurd hl (by simp)
    exact ⟨hzero, l, by rw [if_neg hk, hl], hbroker⟩

/-- What follows the storing counts the order and changes no label. -/
theorem sameLabels_addOrder (hok : (b.addOrder entry now).ok = true) :
    SameLabels (b.stored entry now) (b.addOrder entry now).book ∧
      (b.addOrder entry now).book.activeCount = b.activeCount + 1 := by
  obtain ⟨h₁, h₂, h₃⟩ := (addOrder_ok_iff b entry now).1 hok
  have hcount : (b.stored entry now).activeCount = b.activeCount := activeCount_registerOrder _ _ _
  rw [addOrder]
  simp only
  rw [if_neg h₁, if_neg (by simp [h₂]), if_neg (by simpa using h₃)]
  simp only
  split
  next =>
    split
    · exact ⟨⟨fun _ => rfl, rfl, rfl, rfl⟩, congrArg (· + 1) hcount⟩
    · have hedits := edits_refreshParentFromChildren ((b.stored entry now).linkChild
        entry.request.internalOrderId (storedEntry entry now).parentOrderId)
        (storedEntry entry now).parentOrderId
      have hlabels := hedits.sameLabels
      refine ⟨⟨hlabels.label, hlabels.total, hlabels.brokerIdMap, hlabels.securityOrders⟩, ?_⟩
      exact congrArg (· + 1) (hedits.activeCount.trans hcount)
  next => exact ⟨⟨fun _ => rfl, rfl, rfl, rfl⟩, congrArg (· + 1) hcount⟩

theorem Indexed.addOrder (hb : b.Indexed) (entry : OrderEntry) (now : TimestampNs) :
    (b.addOrder entry now).book.Indexed := by
  cases hok : (b.addOrder entry now).ok with
  | false => rwa [addOrder_of_not_ok hok]
  -- Registration adds the order to the list of its security and to the broker map; the refresh
  -- behind it changes neither.
  | true =>
      obtain ⟨hsame, hcount⟩ := sameLabels_addOrder hok
      have hunder : ∀ key, (b.addOrder entry now).book.ordersUnder key =
          (b.stored entry now).ordersUnder key := by
        intro key
        rw [ordersUnder, ordersUnder, hsame.securityOrders]
      refine { count := ?_, id := ?_, ne_nil := ?_, nodup := ?_, mem := ?_, broker := ?_ }
      · rw [hcount, hb.count, totalTerms_addOrder hok]
      · intro k l hl
        rw [hsame.label, label_stored hok] at hl
        split at hl
        next heq =>
          obtain rfl := Option.some.inj hl
          exact heq.symm
        next => exact hb.id k l hl
      · intro key ids hids
        rw [hsame.securityOrders, OrderBook.stored, lookup_securityOrders_registerOrder] at hids
        split at hids
        · obtain rfl := Option.some.inj hids
          exact List.append_ne_nil_of_right_ne_nil _ (List.cons_ne_nil _ _)
        · exact hb.ne_nil key ids hids
      · intro key
        rw [hunder]
        exact hb.stored_nodup hok key
      · intro key k
        rw [hunder, hsame.label]
        exact hb.stored_mem hok key k
      · intro broker k hbroker
        rw [hsame.brokerIdMap] at hbroker
        rw [hsame.label]
        exact hb.stored_broker hok hbroker

end Stored

/-! ## `archive_order` -/

theorem label_archiveOrder (b : OrderBook) (orderId k : InternalOrderId) :
    (b.archiveOrder orderId).book.label k = if k = orderId then none else b.label k := by
  rw [label]
  rw [findOrder_archiveOrder]
  split <;> rfl

/-- The security index after `archive_order`: the order leaves the list of its key. -/
theorem lookup_unindexSecurity (b : OrderBook) (orderId : InternalOrderId) (request : OrderRequest)
    (key : InternalSecurityId) :
    (b.unindexSecurity orderId request).lookup key =
      if normalizeSecurityKey request.internalSecurityId.view = some key then
        if ((b.ordersUnder key).filter (· ≠ orderId)).isEmpty then none
        else some ((b.ordersUnder key).filter (· ≠ orderId))
      else b.securityOrders.lookup key := by
  rw [unindexSecurity]
  cases normalizeSecurityKey request.internalSecurityId.view with
  | none => rfl
  -- The list under the key of the request loses the order, and goes with its last one; the other
  -- lists stay.
  | some key' =>
      simp only [Option.some.injEq]
      by_cases heq : key' = key
      · subst heq
        rw [if_pos rfl]
        cases hlookup : b.securityOrders.lookup key' with
        | none =>
            have hunder : b.ordersUnder key' = [] := by rw [ordersUnder, hlookup, Option.getD_none]
            rw [hunder]
            exact hlookup
        | some orders =>
            have hunder :
                b.ordersUnder key' = orders := by rw [ordersUnder, hlookup, Option.getD_some]
            rw [hunder]
            simp only
            split
            · exact AList.lookup_erase _ _
            · exact AList.lookup_insert _
      · rw [if_neg heq]
        split
        · rfl
        · split
          · exact AList.lookup_erase_ne (Ne.symm heq)
          · exact AList.lookup_insert_ne (Ne.symm heq)

theorem Indexed.archiveOrder (hb : b.Indexed) (orderId : InternalOrderId) :
    (b.archiveOrder orderId).book.Indexed := by
  rcases Option.eq_none_or_eq_some (b.findOrder orderId) with hnone | ⟨e, he⟩
  · rwa [archiveOrder_of_none hnone]
  have hlabel : b.label orderId = some (labelOf e) := by rw [label, he, Option.map_some]
  have hsecurity : (b.archiveOrder orderId).book.securityOrders = b.unindexSecurity
      orderId e.request := by
    rw [OrderBook.archiveOrder]
    rw [he]
  have hbroker : (b.archiveOrder orderId).book.brokerIdMap =
      if e.request.brokerOrderId ≠ 0 ∧
        b.brokerIdMap.lookup e.request.brokerOrderId = some orderId then
        b.brokerIdMap.erase e.request.brokerOrderId
      else b.brokerIdMap := by
    rw [OrderBook.archiveOrder]
    rw [he]
  have hcount : (b.archiveOrder orderId).book.activeCount = b.activeCount - 1 := by
    rw [OrderBook.archiveOrder]
    rw [he]
  -- whatever the key, the list is the old one without the order
  have hunder : ∀ key, (b.archiveOrder orderId).book.ordersUnder key =
      (b.ordersUnder key).filter (· ≠ orderId) := by
    intro key
    rw [ordersUnder, hsecurity, lookup_unindexSecurity]
    split
    next =>
      split
      next hempty => exact (List.isEmpty_iff.1 hempty).symm
      next => rfl
    next hkey =>
      refine (List.filter_eq_self.2 fun k hk => ?_).symm
      simp only [ne_eq, decide_eq_true_eq]
      rintro rfl
      obtain ⟨l, hl, hlkey⟩ := (hb.mem key k).1 hk
      rw [hlabel] at hl
      obtain rfl := Option.some.inj hl
      exact hkey hlkey
  refine { count := ?_, id := ?_, ne_nil := ?_, nodup := ?_, mem := ?_, broker := ?_ }
  · have htotal := totalTerms_archiveOrder he fun _ => 1
    have := hb.count
    omega
  · intro k l hl
    rw [label_archiveOrder] at hl
    split at hl
    · exact absurd hl (by simp)
    · exact hb.id k l hl
  · intro key ids hids
    rw [hsecurity, lookup_unindexSecurity] at hids
    split at hids
    · split at hids
      · exact absurd hids (by simp)
      next hne =>
        obtain rfl := Option.some.inj hids
        exact fun hnil => hne (List.isEmpty_iff.2 hnil)
    · exact hb.ne_nil key ids hids
  · intro key
    rw [hunder]
    exact (hb.nodup key).filter _
  · intro key k
    rw [hunder, List.mem_filter, label_archiveOrder, hb.mem key k]
    by_cases hk : k = orderId
    · simp [hk]
    · simp [hk]
  · intro broker k hlookup
    -- an entry that points to the order has the order's own broker id, and is the one erased
    have hmine : b.brokerIdMap.lookup broker = some orderId → broker ≠ 0 ∧
        e.request.brokerOrderId = broker := by
      intro hpoints
      obtain ⟨hzero, l, hl, hlbroker⟩ := hb.broker broker orderId hpoints
      rw [hlabel] at hl
      obtain rfl := Option.some.inj hl
      exact ⟨hzero, hlbroker⟩
    have hold : b.brokerIdMap.lookup broker = some k ∧ k ≠ orderId := by
      rw [hbroker] at hlookup
      split at hlookup
      next =>
        rw [Map.lookup_erase_eq] at hlookup
        split at hlookup
        · exact absurd hlookup (by simp)
        next hne =>
          refine ⟨hlookup, ?_⟩
          rintro rfl
          exact hne (hmine hlookup).2.symm
      next hkept =>
        refine ⟨hlookup, ?_⟩
        rintro rfl
        obtain ⟨hzero, rfl⟩ := hmine hlookup
        exact hkept ⟨hzero, hlookup⟩
    obtain ⟨hzero, l, hl, hlbroker⟩ := hb.broker broker k hold.1
    exact ⟨hzero, l, by rw [label_archiveOrder, if_neg hold.2, hl], hlbroker⟩

/-! ## Runs -/

/-- A call of one of the operations that change the book, with the time at which it is made. -/
inductive Call where
  | addOrder (entry : OrderEntry) (now : TimestampNs)
  | updateState (orderId : InternalOrderId) (state : OrderState) (now : TimestampNs)
  | updateTrade (orderId : InternalOrderId) (vol : Volume) (px : DPrice) (val fee : DValue)
      (now : TimestampNs)
  | markManagedParent (parentId : InternalOrderId)
  | syncManagedParentView (parentId : InternalOrderId) (view : ManagedParentView)
      (state : OrderState) (now : TimestampNs)
  | archiveOrder (orderId : InternalOrderId)
  | clear

/-- The book after a call. -/
def after (b : OrderBook) : Call → OrderBook
  | .addOrder entry now => (b.addOrder entry now).book
  | .updateState orderId state now => (b.updateState orderId state now).book
  | .updateTrade orderId vol px val fee now => (b.updateTrade orderId vol px val fee now).book
  | .markManagedParent parentId => (b.markManagedParent parentId).book
  | .syncManagedParentView parentId view state now =>
      (b.syncManagedParentView parentId view state now).book
  | .archiveOrder orderId => (b.archiveOrder orderId).book
  | .clear => b.clear

theorem Indexed.after (hb : b.Indexed) (call : Call) : (b.after call).Indexed := by
  cases call with
  | addOrder entry now => exact hb.addOrder entry now
  | updateState orderId state now => exact (edits_updateState b orderId state now).indexed hb
  | updateTrade orderId vol px val fee now =>
      exact (edits_updateTrade b orderId vol px val fee now).indexed hb
  | markManagedParent parentId => exact (edits_markManagedParent b parentId).indexed hb
  | syncManagedParentView parentId view state now =>
      exact (edits_syncManagedParentView b parentId view state now).indexed hb
  | archiveOrder orderId => exact hb.archiveOrder orderId
  | clear =>
      -- the generator of ids is all that `clear` keeps
      have hsame : SameLabels empty b.clear := ⟨fun _ => rfl, rfl, rfl, rfl⟩
      exact hsame.indexed rfl indexed_empty

/-- The book after any sequence of calls on a fresh one. -/
def afterCalls (calls : List Call) : OrderBook := calls.foldl after empty

theorem indexed_afterCalls (calls : List Call) : (afterCalls calls).Indexed := by
  have hrun : ∀ b : OrderBook, b.Indexed → (calls.foldl after b).Indexed := by
    induction calls with
    | nil => exact fun _ hb => hb
    | cons call rest ih => exact fun b hb => ih (b.after call) (hb.after call)
  exact hrun empty indexed_empty

end OrderBook

/-- After any calls on a fresh book its containers agree with each other, and an order that is
refused leaves the book as it was. -/
theorem book_wellFormed (calls : List OrderBook.Call) :
    (OrderBook.afterCalls calls).WellFormed ∧
      ∀ entry now, ((OrderBook.afterCalls calls).addOrder entry now).ok = false →
        ((OrderBook.afterCalls calls).addOrder entry now).book = OrderBook.afterCalls calls :=
  ⟨(OrderBook.indexed_afterCalls calls).wellFormed, fun _ _ => OrderBook.addOrder_of_not_ok⟩

end AccountServices
