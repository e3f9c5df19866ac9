import AccountServices.Core.Atomicity
import AccountServices.Execution.KeyForms

/-!
# Runs that differ in the form of keys

A run of the event loop beside its twin, in which every key in the older form gives way to its
canonical form. The handlers of requests compare keys in their normal form, so the twins stay alike.
The handler of trade responses compares a key as it came in one place: a fill that adds a row to the
position table compares the key of the fill with the canonical key of the new row, and names the row
after the key of the order. The twins agree as long as no fill gets different answers there.
-/

set_option autoImplicit false

namespace AccountServices

open Foundation Program

/-! ## Lookups in normal form -/

namespace PositionManager

variable {key key' : InternalSecurityId}

theorem findRow_sameKey (m : PositionManager) (h : SameKey key key') :
    m.findRow key' = m.findRow key := by
  simp only [findRow, h.normalizeSecurityKey]

theorem getPosition_sameKey (m : PositionManager) (h : SameKey key key') :
    m.getPosition key' = m.getPosition key := by
  simp only [getPosition, m.findRow_sameKey h]

theorem onPosition_sameKey (m : PositionManager) (h : SameKey key key')
    (op : Position → Bool × Position) : m.onPosition key' op = m.onPosition key op := by
  simp only [onPosition, m.findRow_sameKey h]

end PositionManager

namespace RiskManager

variable {request : OrderRequest} {key : InternalSecurityId}

theorem check_withKey (h : SameKey request.internalSecurityId key) (rule : RiskRule)
    (positions : PositionManager) (now : TimestampNs) :
    rule.check (request.withKey key) positions now = rule.check request positions now := by
  have hsellable : RiskRule.checkPosition (request.withKey key) positions =
      RiskRule.checkPosition request positions := by
    simp only [RiskRule.checkPosition, PositionManager.getSellableVolume, OrderRequest.withKey,
      positions.getPosition_sameKey h]
    rfl
  have hlimit : ∀ limits, RiskRule.checkPriceLimit limits (request.withKey key) =
      RiskRule.checkPriceLimit limits request := by
    intro limits
    simp only [RiskRule.checkPriceLimit, OrderRequest.withKey, h.normalize]
    rfl
  simp only [RiskRule.check]
  rw [show (request.withKey key).orderType = request.orderType from rfl]
  split
  · rfl
  cases rule.kind with
  | positionCheck => simp only [hsellable]
  | priceLimit limits => simp only [hlimit]
  | _ => rfl

/-- The rules look at the normal form of the key. -/
theorem checkOrder_withKey (h : SameKey request.internalSecurityId key) (m : RiskManager)
    (positions : PositionManager) (now : TimestampNs) :
    m.checkOrder (request.withKey key) positions now = m.checkOrder request positions now := by
  have hrules : ∀ (rules : List RiskRule) result,
      checkRules (request.withKey key) positions now result rules =
        checkRules request positions now result rules := by
    intro rules
    induction rules with
    | nil => exact fun _ => rfl
    | cons rule rest ih =>
        intro result
        simp only [checkRules, check_withKey h, ih]
  simp only [checkOrder, hrules]

end RiskManager

/-! ## Steps of the event loop -/

namespace Service

theorem inStep_modifyOrder (orderId : InternalOrderId) {f g : OrderEntry → OrderEntry}
    (hfg : ∀ e e', e.Alike e' → (f e).Alike (g e')) :
    InStep Eq (modifyOrder orderId f) (modifyOrder orderId g) := by
  refine Lockstep.modify ?_
  rintro w _ ⟨book, sessions, shm, rfl, hbook, hsessions, hpool⟩
  exact ⟨_, sessions, shm, rfl, hbook.modifyOrder orderId fun e e' _ h =>
    hfg e e' h, hsessions, hpool⟩

theorem inStep_onFund (op : FundInfo → Option FundInfo) : InStep Eq (onFund op) (onFund op) := by
  refine Lockstep.atomic ?_
  rintro w _ ⟨book, sessions, shm, rfl, hbook, hsessions, hpool⟩
  exact ⟨rfl, book, sessions, shm, rfl, hbook, hsessions, hpool⟩

theorem inStep_onPositions {α : Type} {op op' : PositionManager → α × PositionManager}
    (h : ∀ m, op' m = op m) : InStep Eq (onPositions op) (onPositions op') := by
  refine Lockstep.atomic ?_
  rintro w _ ⟨book, sessions, shm, rfl, hbook, hsessions, hpool⟩
  simp only [h]
  exact ⟨trivial, book, sessions, shm, rfl, hbook, hsessions, hpool⟩

/-- An answer that is not yes is recorded as an error. -/
theorem inStep_check (ok : Bool) (error : ErrorStatus) :
    InStep Eq (if ok = true then (pure () : Service Unit) else recordError error)
      (if ok = true then (pure () : Service Unit) else recordError error) :=
  Lockstep.ite Iff.rfl (fun _ => inStep_pure ()) fun _ => inStep_recordError _

/-! ### Reservations -/

theorem inStep_reserveOrderResources {entry entry' : OrderEntry} (h : entry.Alike entry') :
    InStep Eq (reserveOrderResources entry) (reserveOrderResources entry') := by
  obtain ⟨key, -, rfl⟩ := h
  refine Lockstep.ite Iff.rfl (fun _ => inStep_pure _) fun _ => ?_
  rw [show reservationTotal (entry.withKey key).request = reservationTotal entry.request from rfl]
  split
  · exact inStep_pure _
  next total _ =>
    refine Lockstep.bind (inStep_onFund _) ?_
    rintro frozen _ rfl
    refine Lockstep.ite Iff.rfl (fun _ => ?_) fun _ => inStep_pure _
    refine Lockstep.bind (inStep_modifyOrder _ ?_) fun _ _ _ => inStep_pure _
    rintro e _ ⟨key', hkey', rfl⟩
    exact ⟨key', hkey', rfl⟩

theorem inStep_releaseOrderResources (orderId : InternalOrderId) :
    InStep Eq (releaseOrderResources orderId) (releaseOrderResources orderId) := by
  refine Lockstep.bind (inStep_findOrder orderId) ?_
  rintro _ _ (⟨rfl, rfl⟩ | ⟨entry, key, -, rfl, rfl⟩)
  · exact inStep_pure _
  refine Lockstep.ite Iff.rfl (fun _ => inStep_pure _) fun _ => Lockstep.bind (inStep_onFund _) ?_
  rintro released _ rfl
  refine Lockstep.ite Iff.rfl (fun _ => inStep_modifyOrder _ ?_) fun _ => inStep_pure _
  rintro e _ ⟨key', hkey', rfl⟩
  exact ⟨key', hkey', rfl⟩

theorem inStep_settleBuyTradeFund (orderId : InternalOrderId) (amount fee : DValue) :
    InStep Eq (settleBuyTradeFund orderId amount fee) (settleBuyTradeFund orderId amount fee) := by
  refine Lockstep.bind (inStep_findOrder orderId) ?_
  rintro _ _ (⟨rfl, rfl⟩ | ⟨entry, key, -, rfl, rfl⟩)
  · exact inStep_pure _
  refine Lockstep.ite Iff.rfl (fun _ => inStep_onFund _) fun _ => ?_
  cases tryTotalWithFee amount fee with
  | none => exact inStep_pure _
  | some total =>
      refine Lockstep.bind (inStep_onFund _) ?_
      rintro deducted _ rfl
      refine Lockstep.ite Iff.rfl (fun _ => ?_) fun _ => inStep_pure _
      refine Lockstep.bind (inStep_modifyOrder _ ?_) fun _ _ _ => inStep_pure _
      rintro e _ ⟨key', hkey', rfl⟩
      exact ⟨key', hkey', rfl⟩

/-! ### Order requests -/

theorem inStep_assignOrderId (env : Env) (index : OrderIndex) {request request' : OrderRequest}
    (h : request.Alike request') :
    InStep OrderRequest.Alike (assignOrderId env index request)
      (assignOrderId env index request') := by
  have hrequest := h
  obtain ⟨key, hkey, rfl⟩ := h
  refine Lockstep.ite Iff.rfl (fun _ => ?_) fun _ => Lockstep.pure hrequest
  refine Lockstep.bind inStep_allocateInternalOrderId ?_
  rintro orderId _ rfl
  exact Lockstep.bind (inStep_syncOrder _ _ _ _) fun _ _ _ => Lockstep.pure ⟨key, hkey, rfl⟩

theorem inStep_passesRisk (env : Env) {request request' : OrderRequest}
    (h : request.Alike request') :
    InStep Eq (passesRisk env request) (passesRisk env request') := by
  obtain ⟨key, hkey, rfl⟩ := h
  refine Lockstep.ite Iff.rfl (fun _ => ?_) fun _ => inStep_pure _
  refine Lockstep.bind (S := World.Alike) (V := Eq) (Lockstep.atomic ?_) ?_
  · rintro w _ ⟨book, sessions, shm, rfl, hbook, hsessions, hpool⟩
    simp only [RiskManager.checkOrder_withKey hkey]
    exact ⟨trivial, book, sessions, shm, rfl, hbook, hsessions, hpool⟩
  · rintro result _ rfl
    refine Lockstep.bind (inStep_modifyOrder _ ?_) fun _ _ _ => inStep_pure _
    rintro e _ ⟨key', hkey', rfl⟩
    exact ⟨key', hkey', rfl⟩

variable {env : Env} (henv : env.IgnoresKeyForm)

section

include henv

theorem inStep_manageOrder (cfg : Config) (index : OrderIndex) (orderId : InternalOrderId) :
    InStep Eq (manageOrder cfg env index orderId) (manageOrder cfg env index orderId) := by
  refine Lockstep.bind (inStep_modifyOrder _ ?_) fun _ _ _ => ?_
  · rintro e _ ⟨key', hkey', rfl⟩
    exact ⟨key', hkey', rfl⟩
  refine Lockstep.bind (inStep_updateState _ _ _) fun _ _ _ => ?_
  refine Lockstep.bind (inStep_findOrder orderId) ?_
  rintro _ _ (⟨rfl, rfl⟩ | ⟨active, key, hkey, rfl, rfl⟩)
  · exact inStep_pure _
  refine Lockstep.bind (inStep_startSession henv cfg index ⟨key, hkey, rfl⟩ _ _) ?_
  rintro result _ rfl
  refine Lockstep.ite Iff.rfl (fun _ => inStep_pure _) fun _ => ?_
  exact Lockstep.bind (inStep_updateState _ _ _) fun _ _ _ =>
    Lockstep.bind (inStep_updateStage _ _ _) fun _ _ _ => inStep_recordError _

omit henv in
theorem inStep_routeNewOrder (env : Env) (index : OrderIndex) {active active' : OrderEntry}
    (h : active.Alike active') :
    InStep Eq (routeNewOrder env index active) (routeNewOrder env index active') := by
  have hactive := h
  obtain ⟨key, -, rfl⟩ := h
  refine Lockstep.bind (inStep_reserveOrderResources hactive) ?_
  rintro reserved _ rfl
  refine Lockstep.ite Iff.rfl (fun _ => ?_) fun _ => ?_
  · refine Lockstep.bind (inStep_routeOrder _ hactive) ?_
    rintro routed _ rfl
    refine Lockstep.ite Iff.rfl (fun _ => inStep_pure _) fun _ => ?_
    exact Lockstep.bind (inStep_releaseOrderResources _) fun _ _ _ =>
      Lockstep.bind (inStep_updateState _ _ _) fun _ _ _ =>
        Lockstep.bind (inStep_updateStage _ _ _) fun _ _ _ => inStep_recordError _
  · exact Lockstep.bind (inStep_updateState _ _ _) fun _ _ _ => inStep_updateStage _ _ _

theorem inStep_dispatchOrder (cfg : Config) (index : OrderIndex) (orderId : InternalOrderId) :
    InStep Eq (dispatchOrder cfg env index orderId) (dispatchOrder cfg env index orderId) := by
  refine Lockstep.bind (inStep_findOrder orderId) ?_
  rintro _ _ (⟨rfl, rfl⟩ | ⟨active, key, hkey, rfl, rfl⟩)
  · exact inStep_pure _
  exact Lockstep.ite Iff.rfl (fun _ => inStep_manageOrder henv cfg index orderId) fun _ =>
    inStep_routeNewOrder env index ⟨key, hkey, rfl⟩

omit henv in
theorem prepareOrderEstimate_withKey (cfg : Config) (request : OrderRequest)
    (key : InternalSecurityId) :
    prepareOrderEstimate cfg
      (request.withKey key) = (prepareOrderEstimate cfg request).withKey key ∧
      (prepareOrderEstimate cfg request).internalSecurityId = request.internalSecurityId := by
  have hfields : (request.withKey key).orderType = request.orderType ∧
      (request.withKey key).dfeeEstimate = request.dfeeEstimate ∧
      (request.withKey key).volumeEntrust = request.volumeEntrust ∧
      (request.withKey key).dpriceEntrust = request.dpriceEntrust := ⟨rfl, rfl, rfl, rfl⟩
  simp only [prepareOrderEstimate, hfields.1, hfields.2.1, hfields.2.2.1, hfields.2.2.2]
  split
  · exact ⟨rfl, rfl⟩
  split
  · exact ⟨rfl, rfl⟩
  split
  · exact ⟨rfl, rfl⟩
  · exact ⟨rfl, rfl⟩

theorem inStep_admitOrder (cfg : Config) (index : OrderIndex) {request request' : OrderRequest}
    (h : request.Alike request') :
    InStep Eq (admitOrder cfg env index request) (admitOrder cfg env index request') := by
  refine Lockstep.bind (inStep_assignOrderId env index h) ?_
  rintro assigned _ ⟨key, hkey, rfl⟩
  obtain ⟨hestimate, hkept⟩ := prepareOrderEstimate_withKey cfg assigned key
  simp only [hestimate]
  have hprepared : (prepareOrderEstimate cfg assigned).Alike
      ((prepareOrderEstimate cfg assigned).withKey key) := ⟨key, hkept.symm ▸ hkey, rfl⟩
  have hentry : (requestEntry env index (prepareOrderEstimate cfg assigned)).Alike
      (requestEntry env index ((prepareOrderEstimate cfg assigned).withKey key)) :=
    ⟨key, hkept.symm ▸ hkey, rfl⟩
  refine Lockstep.bind (inStep_addOrder _ hentry) ?_
  rintro added _ rfl
  refine Lockstep.ite Iff.rfl (fun _ => ?_) fun _ => ?_
  · refine Lockstep.bind (inStep_updateState _ _ _) fun _ _ _ => ?_
    refine Lockstep.bind (inStep_passesRisk env hprepared) ?_
    rintro passed _ rfl
    refine Lockstep.ite Iff.rfl (fun _ => ?_) fun _ => ?_
    · exact Lockstep.bind (inStep_updateState _ _ _) fun _ _ _ =>
        inStep_dispatchOrder henv cfg index _
    · exact Lockstep.bind (inStep_updateState _ _ _) fun _ _ _ => inStep_updateStage _ _ _
  · exact Lockstep.bind (inStep_updateStage _ _ _) fun _ _ _ => inStep_recordError _

theorem inStep_handleOrderRequest (cfg : Config) (index : OrderIndex)
    {request request' : OrderRequest} (h : request.Alike request') :
    InStep Eq (handleOrderRequest cfg env index request)
      (handleOrderRequest cfg env index request') := by
  have hrequest := h
  obtain ⟨key, hkey, rfl⟩ := h
  have hlacks : (request.withKey key).lacksKey = request.lacksKey := by
    have hempty : key.isEmpty = request.internalSecurityId.isEmpty := hkey.isEmpty.symm
    simp only [OrderRequest.lacksKey, OrderRequest.withKey, hempty]
    rfl
  refine Lockstep.ite (by rw [hlacks]) (fun _ => ?_) fun _ =>
    inStep_admitOrder henv cfg index hrequest
  rw [show buildInternalSecurityId (request.withKey key).market
    (request.withKey key).securityId.view =
    buildInternalSecurityId request.market request.securityId.view from rfl]
  split
  · exact Lockstep.bind (inStep_syncOrder _ _ _ _) fun _ _ _ =>
      Lockstep.bind (inStep_updateStage _ _ _) fun _ _ _ => inStep_recordError _
  next built _ =>
    -- A key that is built is the same in both.
    exact inStep_admitOrder henv cfg index ⟨built, SameKey.refl _, rfl⟩

end

/-! ### Trade responses -/

theorem inStep_settleFund (r : TradeResponse) : InStep Eq (settleFund r) (settleFund r) := by
  simp only [settleFund]
  split
  · refine Lockstep.bind (inStep_settleBuyTradeFund _ _ _) ?_
    rintro settled _ rfl
    exact inStep_check _ _
  · refine Lockstep.bind (inStep_onFund _) ?_
    rintro settled _ rfl
    exact inStep_check _ _
  · exact inStep_pure _

theorem inStep_updatePosition (r : TradeResponse) {securityId securityId' : InternalSecurityId}
    (h : SameKey securityId securityId') :
    InStep Eq (updatePosition r securityId) (updatePosition r securityId') := by
  simp only [updatePosition]
  split
  · refine Lockstep.bind (inStep_onPositions fun m => m.onPosition_sameKey h _) ?_
    rintro ok _ rfl
    exact inStep_check _ _
  · refine Lockstep.bind (inStep_onPositions fun m => m.onPosition_sameKey h _) ?_
    rintro ok _ rfl
    exact inStep_check _ _
  · exact inStep_pure _

theorem inStep_releaseAfterResponse (orderId : InternalOrderId) :
    InStep Eq (releaseAfterResponse orderId) (releaseAfterResponse orderId) := by
  refine Lockstep.bind (inStep_findOrder orderId) ?_
  rintro _ _ (⟨rfl, rfl⟩ | ⟨order, key, -, rfl, rfl⟩)
  · exact inStep_pure _
  refine Lockstep.ite Iff.rfl (fun _ => ?_) fun _ => inStep_pure _
  refine Lockstep.bind (inStep_releaseOrderResources _) fun _ _ _ => ?_
  exact Lockstep.ite Iff.rfl (fun _ => inStep_releaseOrderResources _) fun _ => inStep_pure _

theorem inStep_archiveOrder (now : TimestampNs) (orderId : InternalOrderId) :
    InStep Eq (archiveOrder now orderId) (archiveOrder now orderId) :=
  inStep_onBook now fun hbook => hbook.archiveOrder orderId

theorem inStep_clearArchiveDeadline (orderId : InternalOrderId) :
    InStep Eq (clearArchiveDeadline orderId) (clearArchiveDeadline orderId) :=
  inStep_modify fun _ _ _ _ => ⟨rfl, rfl, rfl, rfl⟩

theorem inStep_setArchiveDeadline (orderId : InternalOrderId) (deadline : TimestampNs) :
    InStep Eq (setArchiveDeadline orderId deadline) (setArchiveDeadline orderId deadline) :=
  inStep_modify fun _ _ _ _ => ⟨rfl, rfl, rfl, rfl⟩

theorem inStep_archiveAfterResponse (cfg : Config) (env : Env) (r : TradeResponse) :
    InStep Eq (archiveAfterResponse cfg env r) (archiveAfterResponse cfg env r) := by
  refine Lockstep.ite Iff.rfl (fun _ => inStep_clearArchiveDeadline _) fun _ => ?_
  refine Lockstep.ite Iff.rfl (fun _ => ?_) fun _ => inStep_setArchiveDeadline _ _
  exact Lockstep.bind (inStep_archiveOrder _ _) fun _ _ _ => inStep_clearArchiveDeadline _

theorem inStep_processPendingArchives (env : Env) (nowNs : TimestampNs) :
    InStep Eq (processPendingArchives env nowNs) (processPendingArchives env nowNs) := by
  refine Lockstep.bind (V := Eq) (Lockstep.read ?_) ?_
  · rintro w _ ⟨book, sessions, shm, rfl, -, -, -⟩
    rfl
  rintro due _ rfl
  refine Lockstep.forEach (fun orderId => ?_) due
  refine Lockstep.bind (inStep_findOrder orderId) ?_
  rintro _ _ (⟨rfl, rfl⟩ | ⟨entry, key, -, rfl, rfl⟩)
  · exact inStep_clearArchiveDeadline _
  refine Lockstep.ite Iff.rfl (fun _ => ?_) fun _ => inStep_clearArchiveDeadline _
  exact Lockstep.bind (inStep_archiveOrder _ _) fun _ _ _ => inStep_clearArchiveDeadline _

end Service

/-! ## The row of a new security -/

/-- The fill of a response adds a row to the position table: the order is new, the security of the
fill has no row, and neither has the key that is built for the order. -/
structure World.AddsRow (w : World) (r : TradeResponse) (order : OrderEntry)
    (key : InternalSecurityId) : Prop where
  found : w.book.findOrder r.internalOrderId = some order
  isNew : order.request.orderType = .new
  filled : r.volumeTraded > 0
  named : (Service.fillSecurity r order).isEmpty = false
  missing : w.positions.getPosition (Service.fillSecurity r order) = none
  coded : order.request.securityId.isEmpty = false
  built : buildInternalSecurityId order.request.market order.request.securityId.view = some key
  absent : w.positions.securityToRow.lookup key = none
  room : clampSecurityCount w.positions.positionCount < kMaxSecurityPositions

/-- A row that both responses add gets the same name, and its key is the key of both fills or of
neither. -/
def RowsAgree (w v : World) (r r' : TradeResponse) : Prop :=
  ∀ order order' key, w.AddsRow r order key → v.book.findOrder r.internalOrderId = some order' →
    PositionManager.rowName order (Service.fillSecurity r order) =
        PositionManager.rowName order' (Service.fillSecurity r' order') ∧
      (Service.fillSecurity r order = key ↔ Service.fillSecurity r' order' = key)

/-- The agreement is about the terms of the order and about the table. -/
theorem RowsAgree.later {w v w' v' : World} {r r' : TradeResponse} (h : RowsAgree w v r r')
    (hpositions : w'.positions = w.positions) (hw : OrderBook.SameTerms w.book w'.book)
    (hv : OrderBook.SameTerms v.book v'.book) : RowsAgree w' v' r r' := by
  -- The entry of an order now, and the one it had before.
  have hbefore : ∀ {b b' : OrderBook} {e' : OrderEntry}, OrderBook.SameTerms b b' →
      b'.findOrder r.internalOrderId = some e' →
        ∃ e, b.findOrder r.internalOrderId = some e ∧ e'.terms = e.terms := by
    intro b b' e' hterms he'
    have hsame := hterms.terms r.internalOrderId
    rw [OrderBook.terms, OrderBook.terms, he', Option.map_some] at hsame
    obtain ⟨e, he, heq⟩ := Option.map_eq_some_iff.1 hsame.symm
    exact ⟨e, he, heq.symm⟩
  intro order₁ order₁' key hadds hfound'
  obtain ⟨order, hfound, hterms⟩ := hbefore hw hadds.found
  obtain ⟨order', hfound'', hterms'⟩ := hbefore hv hfound'
  have hkey : order₁.request.internalSecurityId = order.request.internalSecurityId :=
    congrArg OrderTerms.internalSecurityId hterms
  have hkey' : order₁'.request.internalSecurityId = order'.request.internalSecurityId :=
    congrArg OrderTerms.internalSecurityId hterms'
  have hcode : order₁.request.securityId = order.request.securityId :=
    congrArg OrderTerms.securityId hterms
  have hmarket : order₁.request.market = order.request.market := congrArg OrderTerms.market hterms
  have htype : order₁.request.orderType = order.request.orderType :=
    congrArg OrderTerms.orderType hterms
  have hsecurity : Service.fillSecurity r order₁ = Service.fillSecurity r order := by
    simp only [Service.fillSecurity, hkey]
  have hsecurity' : Service.fillSecurity r' order₁' = Service.fillSecurity r' order' := by
    simp only [Service.fillSecurity, hkey']
  have hname : ∀ id, PositionManager.rowName order₁ id = PositionManager.rowName order id := by
    intro id
    simp only [PositionManager.rowName, hkey]
  have hname' : ∀ id, PositionManager.rowName order₁' id = PositionManager.rowName order' id := by
    intro id
    simp only [PositionManager.rowName, hkey']
  have haddsBefore : w.AddsRow r order key :=
    { found := hfound
      isNew := htype ▸ hadds.isNew
      filled := hadds.filled
      named := hsecurity ▸ hadds.named
      missing := by
        rw [← hsecurity, ← hpositions]
        exact hadds.missing
      coded := hcode ▸ hadds.coded
      built := by
        rw [← hmarket, ← hcode]
        exact hadds.built
      absent := hpositions ▸ hadds.absent
      room := hpositions ▸ hadds.room }
  rw [hsecurity, hsecurity', hname, hname']
  exact h order order' key haddsBefore hfound''

namespace PositionManager

variable {m : PositionManager}

/-- In a well-indexed table a key that is built and mapped has its row. -/
theorem getPosition_built (h : m.WellIndexed) {market : Market} {code : SecurityId}
    {key : InternalSecurityId} (hbuild : buildInternalSecurityId market code.view = some key)
    (hmapped : (m.securityToRow.lookup key).isSome = true) : (m.getPosition key).isSome = true := by
  have hnormal := normalize_buildInternalSecurityId code.clean hbuild
  have hkey : normalizeSecurityKey key.view = some key := by
    have hne : key.view.isEmpty = false := by
      cases hview : key.view with
      | nil =>
          rw [hview, show normalizeInternalSecurityId [] = none by decide] at hnormal
          exact absurd hnormal (by simp)
      | cons b bs => rfl
    simp only [normalizeSecurityKey, hne, Bool.false_eq_true, if_false, hnormal]
  simp only [getPosition, h.findRow, hkey, Option.bind_some, Option.isSome_map]
  exact hmapped

/-- Two names make the same of a security that gets no row, or the same row when they are equal. -/
theorem addSecurity_name (m : PositionManager) (code name name' : Bytes) (market : Market)
    (h : ∀ key, code.isEmpty = false → buildInternalSecurityId market code = some key →
      m.securityToRow.lookup key = none →
        clampSecurityCount m.positionCount < kMaxSecurityPositions →
        name' = name) :
    m.addSecurity code name' market = m.addSecurity code name market := by
  simp only [addSecurity]
  split
  · rfl
  next hcode =>
    split
    · rfl
    next key hkey =>
      split
      · rfl
      next hrow =>
        split
        · rfl
        next hroom =>
          rw [h key (Bool.eq_false_iff.2 hcode) hkey (by simpa using hrow) (by omega)]

/-- The key that `add_security` returns is the one that is built, and it has a row or gets one. -/
theorem addSecurity_some (m : PositionManager) {code name : Bytes} {market : Market}
    {key : InternalSecurityId} (h : (m.addSecurity code name market).1 = some key) :
    buildInternalSecurityId market code = some key ∧ ((m.securityToRow.lookup key).isSome = true ∨
      m.securityToRow.lookup key = none ∧
        clampSecurityCount m.positionCount < kMaxSecurityPositions) := by
  simp only [addSecurity] at h
  split at h
  · exact absurd h (by simp)
  split at h
  · exact absurd h (by simp)
  next built hbuilt =>
    split at h
    next hmapped =>
      cases Option.some.inj h
      exact ⟨hbuilt, Or.inl hmapped⟩
    next habsent =>
      split at h
      · exact absurd h (by simp)
      next hroom =>
        cases Option.some.inj h
        exact ⟨hbuilt, Or.inr ⟨by simpa using habsent, by omega⟩⟩

end PositionManager

namespace Service

/-- The step that compares a key as it came. -/
theorem inStep_ensurePositionRow {m : PositionManager} (hrows : m.WellIndexed) {order : OrderEntry}
    {key securityId securityId' : InternalSecurityId} (hsame : SameKey securityId securityId')
    (hagree : ∀ built, m.getPosition securityId = none → order.request.securityId.isEmpty = false →
      buildInternalSecurityId order.request.market order.request.securityId.view = some built →
      m.securityToRow.lookup built = none →
      clampSecurityCount m.positionCount < kMaxSecurityPositions →
        PositionManager.rowName order securityId = PositionManager.rowName
          (order.withKey key) securityId' ∧ (securityId = built ↔ securityId' = built)) :
    Lockstep (fun w v => w.Alike v ∧ w.positions = m) World.Alike Eq
      (ensurePositionRow order securityId) (ensurePositionRow (order.withKey key) securityId') := by
  have hposition := m.getPosition_sameKey hsame
  refine Lockstep.bind (V := fun known known' => known' = known ∧
    known = (m.getPosition securityId).isSome) (Lockstep.read ?_) ?_
  · rintro w _ ⟨⟨book, sessions, shm, rfl, -, -, -⟩, rfl⟩
    exact ⟨congrArg Option.isSome hposition, rfl⟩
  rintro _ known ⟨rfl, hknown⟩
  refine Lockstep.ite Iff.rfl (fun _ => Lockstep.weaken (inStep_pure ()) fun _ _ h => h.1)
    fun hnew => ?_
  rw [not_or, Bool.not_eq_true, Bool.not_eq_true, hknown, Option.isSome_eq_false_iff,
    Option.isNone_iff_eq_none] at hnew
  obtain ⟨hmissing, hcoded⟩ := hnew
  have hname := m.addSecurity_name order.request.securityId.view
    (PositionManager.rowName order securityId)
      (PositionManager.rowName (order.withKey key) securityId')
    order.request.market fun built hcode hbuilt habsent hroom =>
      (hagree built hmissing hcoded hbuilt habsent hroom).1.symm
  -- The key that comes back is compared alike.
  have hcompare : ∀ built, (m.addSecurity order.request.securityId.view
      (PositionManager.rowName order securityId) order.request.market).1 = some built →
        (built = securityId ↔ built = securityId') := by
    intro built hadded
    obtain ⟨hbuilt, hcase⟩ := m.addSecurity_some hadded
    rcases hcase with hmapped | ⟨habsent, hroom⟩
    · -- A key that has a row already is the key of neither fill.
      have hhas := PositionManager.getPosition_built hrows hbuilt hmapped
      constructor
      · rintro rfl
        rw [hmissing] at hhas
        exact absurd hhas (by simp)
      · rintro rfl
        rw [hposition, hmissing] at hhas
        exact absurd hhas (by simp)
    · have hiff := (hagree built hmissing hcoded hbuilt habsent hroom).2
      exact ⟨fun heq => (hiff.1 heq.symm).symm, fun heq => (hiff.2 heq.symm).symm⟩
  refine Lockstep.bind (S := World.Alike) (V := fun added added' => added' = added ∧
    added = (m.addSecurity order.request.securityId.view (PositionManager.rowName order securityId)
      order.request.market).1) (Lockstep.atomic ?_) ?_
  · rintro w _ ⟨⟨book, sessions, shm, rfl, hbook, hsessions, hpool⟩, rfl⟩
    have hkey := congrArg Prod.fst hname
    exact ⟨⟨hkey, rfl⟩, book, sessions, shm,
      congrArg (fun out : Option InternalSecurityId × PositionManager => ({ w with
        positions := out.2, book := book, sessions := sessions, ordersShm := shm } : World)) hname,
      hbook, hsessions, hpool⟩
  · rintro _ added ⟨rfl, hadded⟩
    cases added with
    | none => exact inStep_recordError _
    | some built =>
        exact Lockstep.ite (hcompare built hadded.symm) (fun _ => inStep_pure ()) fun _ =>
          inStep_recordError _

/-- The settlement of the funds leaves the rows of the securities as they are. -/
theorem lockstep_settleFund (r : TradeResponse) (m : PositionManager) :
    Lockstep (fun w v => w.Alike v ∧ w.positions = m ∧
      (w.book.findOrder r.internalOrderId).isSome = true)
      (fun w v => w.Alike v ∧ ∃ fund, w.positions = { m with fund := fund }) Eq (settleFund r)
      (settleFund r) := by
  rintro w v ⟨h, rfl, hfound⟩
  obtain ⟨e, he⟩ := Option.isSome_iff_exists.1 hfound
  obtain ⟨errors, hrun⟩ := run_settleFund r he
  obtain ⟨hvalue, hstate⟩ := inStep_settleFund r w v h
  refine ⟨hvalue, hstate, (fillEffect w.positions.fund e.fundFrozen r).1, ?_⟩
  rw [hrun]
  rfl

end Service

/-- A response with another key. -/
def TradeResponse.withKey (r : TradeResponse) (key : InternalSecurityId) : TradeResponse :=
  { r with internalSecurityId := key }

namespace Service

variable {r : TradeResponse} {rkey : InternalSecurityId}

theorem sameKey_fillSecurity (hr : SameKey r.internalSecurityId rkey) {order : OrderEntry}
    {key : InternalSecurityId} (hkey : SameKey order.request.internalSecurityId key) :
    SameKey (fillSecurity r order) (fillSecurity (r.withKey rkey) (order.withKey key)) := by
  have hempty : rkey.isEmpty = r.internalSecurityId.isEmpty := hr.isEmpty.symm
  simp only [fillSecurity, TradeResponse.withKey, hempty]
  split
  · exact hkey
  · exact hr

theorem lockstep_settleTrade {m : PositionManager} (hrows : m.WellIndexed)
    (hr : SameKey r.internalSecurityId rkey) {order : OrderEntry} {key : InternalSecurityId}
    (hkey : SameKey order.request.internalSecurityId key)
    (hagree : ∀ built, (fillSecurity r order).isEmpty = false →
      m.getPosition (fillSecurity r order) = none → order.request.securityId.isEmpty = false →
      buildInternalSecurityId order.request.market order.request.securityId.view = some built →
      m.securityToRow.lookup built = none →
        clampSecurityCount m.positionCount < kMaxSecurityPositions →
        PositionManager.rowName order (fillSecurity r order) =
            PositionManager.rowName (order.withKey key)
              (fillSecurity (r.withKey rkey) (order.withKey key)) ∧
          (fillSecurity r order = built ↔
            fillSecurity (r.withKey rkey) (order.withKey key) = built)) :
    Lockstep (fun w v => w.Alike v ∧ w.positions = m ∧
      (w.book.findOrder r.internalOrderId).isSome = true)
      World.Alike Eq (settleTrade r order) (settleTrade (r.withKey rkey) (order.withKey key)) := by
  have hsame := sameKey_fillSecurity hr hkey
  -- The fund is settled without a look at the key.
  refine Lockstep.bind (lockstep_settleFund r m) fun _ _ _ => ?_
  rintro w v ⟨h, fund, hpositions⟩
  have hrows' : ({ m with fund := fund } : PositionManager).WellIndexed :=
    ⟨hrows.count_le, hrows.row_le⟩
  have hrest :
      Lockstep (fun w v => w.Alike v ∧ w.positions = { m with fund := fund }) World.Alike Eq
      (if (fillSecurity r order).isEmpty = true then (pure () : Service Unit) else do
        ensurePositionRow order (fillSecurity r order)
        updatePosition r (fillSecurity r order))
      (if (fillSecurity (r.withKey rkey) (order.withKey key)).isEmpty = true then
        (pure () : Service Unit) else do
        ensurePositionRow (order.withKey key) (fillSecurity (r.withKey rkey) (order.withKey key))
        updatePosition (r.withKey rkey) (fillSecurity (r.withKey rkey) (order.withKey key))) := by
    -- Without a key of its own or of the order, the fill finds no row on either side.
    refine Lockstep.ite (by rw [hsame.isEmpty])
      (fun _ => Lockstep.weaken (inStep_pure ()) fun _ _ h => h.1)
      fun hnamed => ?_
    refine Lockstep.bind (inStep_ensurePositionRow hrows' hsame ?_) fun _ _ _ =>
      inStep_updatePosition r hsame
    exact fun built => hagree built (Bool.eq_false_iff.2 hnamed)
  exact hrest w v ⟨h, hpositions⟩

/-- The fill of a response, on alike services. -/
theorem alike_applyFill (env : Env) {w v : World} (h : w.Alike v) (hrows : w.positions.WellIndexed)
    (hr : SameKey r.internalSecurityId rkey) (hagree : RowsAgree w v r (r.withKey rkey))
    (hvol : r.volumeTraded > 0) :
    ((applyFill env r).run w).2.Alike ((applyFill env (r.withKey rkey)).run v).2 := by
  have htrade : InStep Eq
      (updateTrade env.nowNs r.internalOrderId r.volumeTraded r.dpriceTraded r.dvalueTraded r.dfee)
      (updateTrade env.nowNs r.internalOrderId r.volumeTraded r.dpriceTraded
        r.dvalueTraded r.dfee) :=
    inStep_onBook _ fun hbook => hbook.updateTrade _ _ _ _ _ _
  have halike := (htrade w v h).2
  have hpositions :
      ((updateTrade env.nowNs r.internalOrderId r.volumeTraded r.dpriceTraded r.dvalueTraded
      r.dfee).run w).2.positions = w.positions := by
    rw [updateTrade, run_onBook]
    exact w.positions_applyBook _ _
  have hterms : ∀ u : World, OrderBook.SameTerms u.book ((updateTrade env.nowNs r.internalOrderId
      r.volumeTraded r.dpriceTraded r.dvalueTraded r.dfee).run u).2.book := by
    intro u
    rw [updateTrade, run_onBook, World.book_applyBook]
    exact OrderBook.sameTerms_updateTrade _ _ _ _ _ _ _
  -- The write of the fill leaves rows and terms alone, so the condition on the rows still holds
  -- behind it.
  have hagree' := hagree.later hpositions (hterms w) (hterms v)
  rw [← hpositions] at hrows
  simp only [applyFill, run_bind, run_findOrder]
  rw [show updateTrade env.nowNs (r.withKey rkey).internalOrderId (r.withKey rkey).volumeTraded
      (r.withKey rkey).dpriceTraded (r.withKey rkey).dvalueTraded (r.withKey rkey).dfee =
    updateTrade env.nowNs r.internalOrderId r.volumeTraded r.dpriceTraded
      r.dvalueTraded r.dfee from rfl,
    show (r.withKey rkey).internalOrderId = r.internalOrderId from rfl]
  generalize
    ((updateTrade env.nowNs r.internalOrderId r.volumeTraded r.dpriceTraded r.dvalueTraded
      r.dfee).run w).2 = w₁ at *
  generalize
    ((updateTrade env.nowNs r.internalOrderId r.volumeTraded r.dpriceTraded r.dvalueTraded
      r.dfee).run v).2 = v₁ at *
  -- Both books know the order, in the two forms of its key, or neither does.
  rcases halike.findOrder r.internalOrderId with ⟨hnone, hnone'⟩ | ⟨order, key, hkey, he, he'⟩
  · rw [hnone, hnone']
    exact halike
  rw [he, he']
  by_cases hnew : order.request.orderType = .new
  · simp only
    rw [if_pos hnew, if_pos (c := (order.withKey key).request.orderType = .new) hnew]
    refine (lockstep_settleTrade hrows hr hkey ?_ w₁ v₁ ⟨halike, rfl, by rw [he]; rfl⟩).2
    intro built hnamed hmissing hcoded hbuilt habsent hroom
    exact hagree' order (order.withKey key) built
      ⟨he, hnew, hvol, hnamed, hmissing, hcoded, hbuilt, habsent, hroom⟩ he'
  · simp only
    rw [if_neg hnew, if_neg (c := (order.withKey key).request.orderType = .new) hnew]
    exact halike

/-- A response with another form of the key, on alike services. -/
theorem alike_handleTradeResponse (cfg : Config) (env : Env) {w v : World} (h : w.Alike v)
    (hrows : w.positions.WellIndexed) (hr : SameKey r.internalSecurityId rkey)
    (hagree : RowsAgree w v r (r.withKey rkey)) :
    ((handleTradeResponse cfg env r).run w).2.Alike
      ((handleTradeResponse cfg env (r.withKey rkey)).run v).2 := by
  -- Up to the fill the two services get the same calls.
  have hengine : InStep Eq
      (if cfg.hasExecutionEngine = true then engineOnTradeResponse r else pure () : Service Unit)
      (if cfg.hasExecutionEngine = true then engineOnTradeResponse r else pure () : Service Unit) :=
    Lockstep.ite Iff.rfl (fun _ => inStep_engineOnTradeResponse r) fun _ => inStep_pure ()
  have hfront := (hengine w v h).2
  by_cases hid : r.internalOrderId = 0
  · have hzero : ∀ {r' : TradeResponse} (u : World), r'.internalOrderId = 0 →
        ((handleTradeResponse cfg env r').run u).2 =
          ((if cfg.hasExecutionEngine = true then engineOnTradeResponse r' else
            pure () : Service Unit).run u).2 := by
      intro r' u hr'
      simp only [handleTradeResponse, if_pos hr', run_bind, run_pure]
    rw [hzero w hid, hzero v (show (r.withKey rkey).internalOrderId = 0 from hid)]
    exact hfront
  rw [run_handleTradeResponse cfg env hid, run_handleTradeResponse cfg env
    (r := r.withKey rkey) hid]
  have hrespond : ((respond cfg env r).run w).2.Alike
      ((respond cfg env (r.withKey rkey)).run v).2 := by
    have hstate := (inStep_updateState env.nowNs r.internalOrderId r.newState _ _ hfront).2
    simp only [respond, run_bind]
    by_cases hvol : r.volumeTraded > 0
    · rw [if_pos hvol, if_pos (c := (r.withKey rkey).volumeTraded > 0) hvol]
      have hkept : ∀ u : World,
          ((updateState env.nowNs r.internalOrderId r.newState).run
            ((if cfg.hasExecutionEngine = true then
            engineOnTradeResponse r else pure () : Service Unit).run u).2).2.positions =
              u.positions ∧
          OrderBook.SameTerms u.book ((updateState env.nowNs r.internalOrderId r.newState).run
            ((if cfg.hasExecutionEngine = true then engineOnTradeResponse r
              else pure () : Service Unit).run u).2).2.book := by
        intro u
        obtain ⟨hbook, hpositions⟩ := run_engineOnTradeResponse cfg r u
        rw [updateState, run_onBook, World.positions_applyBook,
          World.book_applyBook, hpositions, hbook]
        exact ⟨rfl, OrderBook.sameTerms_updateState _ _ _ _⟩
      refine alike_applyFill env hstate ?_ hr ?_ hvol
      · rw [(hkept w).1]
        exact hrows
      · exact hagree.later (hkept w).1 (hkept w).2 (hkept v).2
    · rw [if_neg hvol, if_neg (c := (r.withKey rkey).volumeTraded > 0) hvol]
      exact hstate
  have hrelease := (inStep_releaseAfterResponse r.internalOrderId _ _ hrespond).2
  rw [run_releaseAfterResponse, run_releaseAfterResponse] at hrelease
  exact (inStep_archiveAfterResponse cfg env r _ _ hrelease).2

end Service

/-! ## Runs beside their twins -/

/-- A request whose key gives way to its canonical form. -/
def OrderRequest.canonical (request : OrderRequest) : OrderRequest :=
  request.withKey (canonicalKey request.internalSecurityId)

/-- A response whose key gives way to its canonical form. -/
def TradeResponse.canonical (r : TradeResponse) : TradeResponse :=
  r.withKey (canonicalKey r.internalSecurityId)

/-- The call that the twin takes. -/
def Event.canonical : Event → Event
  | .orderRequest index request => .orderRequest index request.canonical
  | .tradeResponse response => .tradeResponse response.canonical
  | .engineTick nowNs => .engineTick nowNs
  | .pendingArchives nowNs => .pendingArchives nowNs
  | .routeCancel origId cancelId time => .routeCancel origId cancelId time

/-- A step of a run and of its twin. -/
def World.twinStep (cfg : Config) (twins : World × World) (call : Env × Event) : World × World :=
  (twins.1.step cfg call, twins.2.step cfg (call.1, call.2.canonical))

/-- A response of the call that adds a row adds the same row for the twin, and compares its key
alike. -/
def TwinRowsAgree (twins : World × World) (call : Env × Event) : Prop :=
  match call.2 with
  | .tradeResponse r => RowsAgree twins.1 twins.2 r r.canonical
  | _ => True

/-- What the twins have in common: the FUND row and the rows of the securities, every order up to
the form of its key, and the errors by their codes, the fatal ones among them. -/
structure SameOutcome (w v : World) : Prop where
  fund : v.positions.fund = w.positions.fund
  rows : v.positions.rows = w.positions.rows ∧ v.positions.positionCount = w.positions.positionCount
  orders : ∀ orderId, (v.book.findOrder orderId).map (OrderEntry.withKey · FixedString.clear) =
    (w.book.findOrder orderId).map (OrderEntry.withKey · FixedString.clear)
  errors : v.errors.map ErrorStatus.code = w.errors.map ErrorStatus.code
  fatal : v.errors.filter ErrorStatus.isFatal = w.errors.filter ErrorStatus.isFatal

theorem World.Alike.sameOutcome {w v : World} (h : w.Alike v) : SameOutcome w v := by
  have hfound := h.findOrder
  obtain ⟨book, sessions, shm, rfl, -, -, -⟩ := h
  refine ⟨rfl, ⟨rfl, rfl⟩, fun orderId => ?_, rfl, rfl⟩
  rcases hfound orderId with ⟨hnone, hnone'⟩ | ⟨order, key, -, he, he'⟩
  · rw [hnone, hnone']
  · rw [he, he']
    rfl

/-- A step that agrees on the rows keeps the twins alike. -/
theorem World.Alike.twinStep {cfg : Config} {twins : World × World} (h : twins.1.Alike twins.2)
    (hrows : twins.1.positions.WellIndexed) {call : Env × Event} (henv : call.1.IgnoresKeyForm)
    (hagree : TwinRowsAgree twins call) :
    (World.twinStep cfg twins call).1.Alike (World.twinStep cfg twins call).2 := by
  obtain ⟨env, event⟩ := call
  cases event with
  | orderRequest index request =>
      refine (Service.inStep_handleOrderRequest henv cfg index ?_ _ _ h).2
      exact ⟨canonicalKey request.internalSecurityId, sameKey_canonicalKey _, rfl⟩
  | tradeResponse r =>
      exact Service.alike_handleTradeResponse cfg env h hrows (sameKey_canonicalKey _) hagree
  | engineTick nowNs => exact (Service.inStep_tickEngine henv cfg nowNs _ _ h).2
  | pendingArchives nowNs => exact (Service.inStep_processPendingArchives env nowNs _ _ h).2
  | routeCancel origId cancelId time =>
      have hboth : InStep Eq (Event.program cfg env (.routeCancel origId cancelId time))
          (Event.program cfg env (.routeCancel origId cancelId time)) :=
        Lockstep.bind (Service.inStep_routeCancel _ _ _ _) fun _ _ _ => Service.inStep_pure ()
      exact (hboth _ _ h).2

/-- As long as no fill adds a row on which they differ, a run and its twin have the same outcome in
every state. -/
theorem twins_same_outcome {cfg : Config} {w : World} (hreach : w.Reachable cfg)
    {calls : List (Env × Event)} (henv : ∀ call ∈ calls, call.1.IgnoresKeyForm)
    (hmeet : StepsMeet (World.twinStep cfg) TwinRowsAgree (w, w) calls) :
    ∀ twins ∈ trace (World.twinStep cfg) (w, w) calls, SameOutcome twins.1 twins.2 := by
  have hinv : ∀ twins ∈ trace (World.twinStep cfg) (w, w) calls,
      twins.1.Alike twins.2 ∧ twins.1.Reachable cfg := by
    refine trace_invariant (fun twins => twins.1.Alike twins.2 ∧ twins.1.Reachable cfg) ?_
      ⟨World.Alike.refl w, hreach⟩ (hmeet.and_mem henv)
    rintro twins call ⟨halike, htwin⟩ ⟨hcall, hagree⟩
    exact ⟨halike.twinStep htwin.indexed.rows hcall hagree, htwin.step call⟩
  exact fun twins hmem => (hinv twins hmem).1.sameOutcome

/-- A buy order whose key has the older form. -/
def legacyBuy : OrderRequest :=
  { OrderRequest.ofClient 7 .buy 100 10 with
    internalSecurityId :=
      FixedString.assign (asciiBytes ['S', 'H', '.', '6', '0', '0', '0', '0', '0']) }

/-- A service whose table has no row yet. -/
def legacyStart : World :=
  World.start { totalAsset := 10000, available := 10000 } {} (OrdersShm.ofClients [legacyBuy])

theorem ignoresKeyForm_default : ({} : Env).IgnoresKeyForm where
  readMarketData id := by
    cases normalizeInternalSecurityId id with
    | none => rfl
    | some key => rfl
  evaluate _ _ _ _ := rfl

/-- An order without a key, and its fill, which adds the row; then an order for the same security
with a key in the older form, and its fill. -/
def legacyBuyFilled : List (Env × Event) :=
  [({}, .orderRequest 1 (.ofClient 8 .buy 100 10)),
    ({}, .tradeResponse { fillOfBuy 0 with internalOrderId := 8 }),
    ({}, .orderRequest 0 legacyBuy), ({}, .tradeResponse (fillOfBuy 0))]

/-- The service and its twin after so many calls. -/
def legacyTwins (n : Nat) : World × World :=
  (legacyBuyFilled.take n).foldl (World.twinStep {}) (legacyStart, legacyStart)

/-- The legacy order is settled on the row that is there, by the service and by its twin alike. -/
theorem twins_same_outcome_filled :
    (∀ twins ∈ trace (World.twinStep {}) (legacyStart, legacyStart) legacyBuyFilled,
        SameOutcome twins.1 twins.2) ∧
      ((legacyTwins 4).1.positions.rows 1).volumeBuy = 200 ∧
      ((legacyTwins 4).2.positions.rows 1).volumeBuy = 200 := by
  refine ⟨twins_same_outcome (World.reachable_start _ _ _ _) ?_ ⟨trivial, ?_, trivial, ?_, trivial⟩,
    by decide, by decide⟩
  · intro call hcall
    simp only [legacyBuyFilled, List.mem_cons, List.not_mem_nil, or_false] at hcall
    rcases hcall with rfl | rfl | rfl | rfl
    all_goals exact ignoresKeyForm_default
  · -- The key of the first order was built by both services.
    intro order order' key hadds hfound'
    have hfound : (legacyTwins 1).1.book.findOrder 8 = some order := hadds.found
    have hkeys : ((legacyTwins 1).1.book.findOrder 8).map (·.request.internalSecurityId) =
        ((legacyTwins 1).2.book.findOrder 8).map (·.request.internalSecurityId) := by decide
    have hsame : order.request.internalSecurityId = order'.request.internalSecurityId := by
      rw [hfound, show (legacyTwins 1).2.book.findOrder 8 = some order' from hfound'] at hkeys
      exact Option.some.inj hkeys
    have hfill : Service.fillSecurity { fillOfBuy 0 with internalOrderId := 8 } order =
        Service.fillSecurity (TradeResponse.canonical { fillOfBuy 0 with internalOrderId := 8 })
          order' := by
      rw [Service.fillSecurity, Service.fillSecurity, if_pos (by decide), if_pos (by decide), hsame]
    rw [← hfill, PositionManager.rowName, PositionManager.rowName, hsame]
    exact ⟨rfl, Iff.rfl⟩
  · -- The second fill finds the row.
    intro order order' key hadds hfound'
    have hrow : ((legacyTwins 3).1.book.findOrder 7).any (fun order =>
        ((legacyTwins 3).1.positions.getPosition
          (Service.fillSecurity (fillOfBuy 0) order)).isSome) = true := by
      decide
    rw [show (legacyTwins 3).1.book.findOrder 7 = some order from hadds.found,
      Option.any_some] at hrow
    have hmissing : (legacyTwins 3).1.positions.getPosition
        (Service.fillSecurity (fillOfBuy 0) order) = none :=
      hadds.missing
    rw [hmissing] at hrow
    exact absurd hrow Bool.false_ne_true

/-- The first fill of such an order finds no row: the key that comes back is not the key as it
came. -/
theorem legacy_fill_breaks_invariant :
    legacyStart.Reachable {} ∧ ({} : Env).IgnoresKeyForm ∧
      (legacyStart.run {}
        [({}, .orderRequest 0 legacyBuy), ({}, .tradeResponse (fillOfBuy 0))]).errors =
        [⟨.portfolio, .orderInvariantBroken, "EventLoop",
          "security id mismatch while creating position row"⟩] ∧
      ¬ ∀ twins ∈ trace (World.twinStep {}) (legacyStart, legacyStart)
          [({}, .orderRequest 0 legacyBuy), ({}, .tradeResponse (fillOfBuy 0))],
        SameOutcome twins.1 twins.2 := by
  have herrors : (legacyStart.run {} [({}, .orderRequest 0 legacyBuy),
      ({}, .tradeResponse (fillOfBuy 0))]).errors =
        [⟨.portfolio, .orderInvariantBroken, "EventLoop",
        "security id mismatch while creating position row"⟩] := by decide
  have htwin : (legacyStart.run {} [({}, .orderRequest 0 legacyBuy.canonical),
      ({}, .tradeResponse (fillOfBuy 0).canonical)]).errors = [] := by decide
  refine ⟨World.reachable_start _ _ _ _, ignoresKeyForm_default, herrors, fun hall => ?_⟩
  have hlast := (hall _ (foldl_mem_trace _ _ _)).errors
  simp only [List.foldl_cons, List.foldl_nil, World.twinStep, Event.canonical] at hlast
  simp only [World.run, List.foldl_cons, List.foldl_nil] at herrors htwin
  rw [htwin, herrors] at hlast
  exact absurd hlast (by decide)

end AccountServices
