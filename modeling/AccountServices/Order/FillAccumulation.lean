import Mathlib.Algebra.BigOperators.Ring.List
import Mathlib.Algebra.Order.BigOperators.Group.List
import Mathlib.Algebra.Order.Ring.Nat
import Mathlib.Data.List.Induction
import AccountServices.Order.BookStates

/-!
# The fills of an order

`update_trade` keeps four numbers of an order that depend on each other: the traded and the
remaining volume, the traded value and the average price. Each is capped by itself. A record of the
fills that an order was given says what the numbers are: the traded volume is the sum of the volumes
up to the volume entrusted, the traded value the sum of the values up to the largest word, and the
price their quotient.

An order that is registered as its own split parent is aggregated too whenever it changes; this
leaves its numbers alone only while it is its only registered child.
-/

set_option autoImplicit false

namespace AccountServices

open Foundation

/-- The arguments of `update_trade` beside the id. -/
structure Fill where
  vol : Volume
  px : DPrice
  val : DValue
  fee : DValue

namespace Fill

/-- The volume of the fills, as a number. -/
def volume (fills : List Fill) : Nat := (fills.map fun f => f.vol.toNat).sum

/-- The value of the fills, as a number. -/
def value (fills : List Fill) : Nat := (fills.map fun f => f.val.toNat).sum

/-- The value of the fill is its volume at its price. -/
def Exact (f : Fill) : Prop := 0 < f.vol ∧ f.val.toNat = f.vol.toNat * f.px.toNat

variable {fills : List Fill}

/-- The value of fills that are all above a price. -/
theorem mul_volume_le {q : Nat} (hexact : ∀ f ∈ fills, f.Exact) (hq : ∀ f ∈ fills, q ≤ f.px.toNat) :
    q * volume fills ≤ value fills := by
  rw [volume, value, ← List.sum_map_mul_left]
  refine List.sum_le_sum fun f hf => ?_
  rw [(hexact f hf).2, Nat.mul_comm]
  exact Nat.mul_le_mul_left _ (hq f hf)

theorem value_le_mul {q : Nat} (hexact : ∀ f ∈ fills, f.Exact) (hq : ∀ f ∈ fills, f.px.toNat ≤ q) :
    value fills ≤ q * volume fills := by
  rw [volume, value, ← List.sum_map_mul_left]
  refine List.sum_le_sum fun f hf => ?_
  rw [(hexact f hf).2, Nat.mul_comm]
  exact Nat.mul_le_mul_right _ (hq f hf)

theorem volume_pos (hne : fills ≠ []) (hexact : ∀ f ∈ fills, f.Exact) : 0 < volume fills := by
  cases fills with
  | nil => exact absurd rfl hne
  | cons f fills =>
      have hpos := (Word.lt_iff _ _).1 (hexact f List.mem_cons_self).1
      simp only [volume, List.map_cons, List.sum_cons]
      rw [UInt64.toNat_zero] at hpos
      omega

/-- The average price, rounded down, lies between two of the prices. -/
theorem mean_between (hne : fills ≠ []) (hexact : ∀ f ∈ fills, f.Exact) :
    (∃ f ∈ fills, f.px.toNat ≤ value fills / volume fills) ∧
      ∃ f ∈ fills, value fills / volume fills ≤ f.px.toNat := by
  have hpos := volume_pos hne hexact
  constructor
  · by_contra hnone
    have habove : ∀ f ∈ fills, value fills / volume fills + 1 ≤ f.px.toNat :=
      fun f hf => Nat.lt_of_not_le fun hle => hnone ⟨f, hf, hle⟩
    have hle := mul_volume_le hexact habove
    have hlt := Nat.lt_mul_of_div_lt (Nat.lt_succ_self (value fills / volume fills)) hpos
    exact absurd (Nat.lt_of_lt_of_le hlt hle) (Nat.lt_irrefl _)
  · by_contra hnone
    have hbelow : ∀ f ∈ fills, f.px.toNat < value fills / volume fills :=
      fun f hf => Nat.lt_of_not_le fun hle => hnone ⟨f, hf, hle⟩
    obtain ⟨f, hf⟩ := List.exists_mem_of_ne_nil fills hne
    have hone : 1 ≤ value fills / volume fills := Nat.lt_of_le_of_lt (Nat.zero_le _) (hbelow f hf)
    have hle := value_le_mul hexact fun f hf => Nat.le_sub_one_of_lt (hbelow f hf)
    have hdiv := Nat.div_mul_le_self (value fills) (volume fills)
    have hlt : (value fills / volume fills - 1) * volume fills < value fills / volume
        fills * volume fills :=
      Nat.mul_lt_mul_of_pos_right (Nat.sub_lt hone Nat.zero_lt_one) hpos
    omega

end Fill

/-! ## The numbers of an order -/

/-- The numbers of an order with these fills. -/
structure OrderRequest.Accounts (request : OrderRequest) (entrust : Volume) (fills : List Fill) :
    Prop where
  orderType : request.orderType = .new
  entrusted : request.volumeEntrust = entrust
  traded : request.volumeTraded.toNat = min entrust.toNat (Fill.volume fills)
  remain : request.volumeTraded.toNat + request.volumeRemain.toNat = entrust.toNat
  value : request.dvalueTraded.toNat = min (2 ^ 64 - 1) (Fill.value fills)
  price : 0 < request.volumeTraded → 0 < request.dvalueTraded →
    request.dpriceTraded = request.dvalueTraded / request.volumeTraded
  worthless : 0 < request.volumeTraded → request.dvalueTraded = 0 →
    request.dpriceTraded = 0 ∨ ∃ f ∈ fills, request.dpriceTraded = f.px

/-- An order before and after the aggregation of its children, itself the only one of them. -/
structure OrderRequest.Refreshed (request request' : OrderRequest) : Prop where
  orderType : request'.orderType = request.orderType
  entrusted : request'.volumeEntrust = request.volumeEntrust
  traded : request'.volumeTraded = request.volumeTraded
  remain : request'.volumeRemain = request.volumeRemain
  value : request'.dvalueTraded = request.dvalueTraded
  price : request'.dpriceTraded = request.dpriceTraded ∨
    request'.dpriceTraded = request.dvalueTraded / request.volumeTraded

namespace OrderRequest.Accounts

variable {request request' : OrderRequest} {entrust : Volume} {fills : List Fill}

theorem refreshed (h : request.Accounts entrust fills) (hsame : request.Refreshed request') :
    request'.Accounts entrust fills where
  orderType := hsame.orderType.trans h.orderType
  entrusted := hsame.entrusted.trans h.entrusted
  traded := hsame.traded ▸ h.traded
  remain := by
    rw [hsame.traded, hsame.remain]
    exact h.remain
  value := hsame.value ▸ h.value
  price htraded hvalue := by
    rw [hsame.traded] at htraded ⊢
    rw [hsame.value] at hvalue ⊢
    rcases hsame.price with heq | heq
    · rw [heq]
      exact h.price htraded hvalue
    · exact heq
  worthless htraded hvalue := by
    rw [hsame.traded] at htraded
    rw [hsame.value] at hvalue
    rcases hsame.price with heq | heq
    · rw [heq]
      exact h.worthless htraded hvalue
    · refine Or.inl ?_
      rw [heq, hvalue, Word.eq_iff, UInt64.toNat_div, UInt64.toNat_zero, Nat.zero_div]

/-- One more fill. -/
theorem tradedRequest (h : request.Accounts entrust fills) (hentrust : 0 < entrust) (f : Fill) :
    (OrderBook.tradedRequest request f.vol f.px f.val f.fee).Accounts entrust (fills ++ [f]) := by
  have hpos := (Word.lt_iff _ _).1 hentrust
  rw [UInt64.toNat_zero] at hpos
  have hsum := saturatingAdd_toNat request.volumeTraded f.vol
  have hvalue := saturatingAdd_toNat request.dvalueTraded f.val
  have hword := entrust.toNat_lt
  have hentrusted : entrust > 0 := hentrust
  have hvolumes : Fill.volume (fills ++ [f]) = Fill.volume fills + f.vol.toNat := by
    simp only [Fill.volume, List.map_append, List.sum_append, List.map_cons,
      List.map_nil, List.sum_singleton]
  have hvalues : Fill.value (fills ++ [f]) = Fill.value fills + f.val.toNat := by
    simp only [Fill.value, List.map_append, List.sum_append, List.map_cons,
      List.map_nil, List.sum_singleton]
  -- The traded volume is capped at the entrusted one, so it is the lesser of it and the sum of the
  -- fills.
  have htraded : (OrderBook.tradedRequest request f.vol f.px f.val f.fee).volumeTraded.toNat =
      min entrust.toNat (Fill.volume fills + f.vol.toNat) := by
    have hold := h.traded
    simp only [OrderBook.tradedRequest, h.entrusted, hentrusted, true_and]
    split
    next hover =>
      rw [gt_iff_lt, Word.lt_iff] at hover
      omega
    next hwithin =>
      rw [gt_iff_lt, Word.lt_iff] at hwithin
      omega
  have hremain : (OrderBook.tradedRequest request f.vol f.px f.val f.fee).volumeRemain.toNat =
      request.volumeRemain.toNat - f.vol.toNat := by
    simp only [OrderBook.tradedRequest]
    split
    next hge =>
      rw [ge_iff_le, Word.le_iff] at hge
      rw [UInt64.toNat_zero]
      omega
    next hlt =>
      rw [ge_iff_le, Word.le_iff] at hlt
      exact UInt64.toNat_sub_of_le _ _ ((Word.le_iff _ _).2 (by omega))
  refine ⟨h.orderType, h.entrusted, hvolumes ▸ htraded, ?_, ?_, fun hsome hworth =>
    ?_, fun hsome hnone => ?_⟩
  · -- the cap of the one volume is the floor of the other
    have hold := h.traded
    have hopen := h.remain
    omega
  -- the value saturates
  · rw [hvalues]
    have hold := h.value
    exact hvalue.trans (by omega)
  -- the price is the quotient as long as there is a value
  · simp only [OrderBook.tradedRequest] at hsome hworth ⊢
    rw [if_pos hsome, if_pos hworth]
  -- and else that of the last fill
  · refine Or.inr ⟨f, List.mem_append_right _ (List.mem_singleton.2 rfl), ?_⟩
    simp only [OrderBook.tradedRequest] at hsome hnone ⊢
    rw [if_pos hsome, if_neg (by rw [hnone]; decide)]

/-- The average price of exact fills that fit in the order. -/
theorem price_between (h : request.Accounts entrust fills) (hne : fills ≠ [])
    (hexact : ∀ f ∈ fills, f.Exact)
    (hvolume : Fill.volume fills ≤ entrust.toNat) (hvalue : Fill.value fills < 2 ^ 64) :
    (∃ f ∈ fills, f.px ≤ request.dpriceTraded) ∧ ∃ f ∈ fills, request.dpriceTraded ≤ f.px := by
  have hpos := Fill.volume_pos hne hexact
  have htraded := h.traded
  have hworth := h.value
  rw [Nat.min_eq_right hvolume] at htraded
  rw [Nat.min_eq_right (by omega)] at hworth
  have hsome : 0 < request.volumeTraded := by
    rw [Word.lt_iff, UInt64.toNat_zero]
    omega
  have hmean := Fill.mean_between hne hexact
  by_cases hzero : request.dvalueTraded = 0
  · -- fills without a value have the price 0
    have hnil : Fill.value fills = 0 := by
      rw [← hworth, hzero, UInt64.toNat_zero]
    have hfree : ∀ f ∈ fills, f.px = 0 := by
      intro f hf
      obtain ⟨hvol, hval⟩ := hexact f hf
      have hle : f.val.toNat ≤ Fill.value fills :=
        List.single_le_sum (fun _ _ => Nat.zero_le _) _ (List.mem_map_of_mem hf)
      rw [hnil, Nat.le_zero, hval, Nat.mul_eq_zero] at hle
      rw [Word.lt_iff, UInt64.toNat_zero] at hvol
      rw [Word.eq_iff, UInt64.toNat_zero]
      omega
    have hprice : request.dpriceTraded = 0 := by
      rcases h.worthless hsome hzero with heq | ⟨f, hf, heq⟩
      · exact heq
      · rw [heq, hfree f hf]
    obtain ⟨f, hf⟩ := List.exists_mem_of_ne_nil fills hne
    rw [hprice]
    exact ⟨⟨f, hf, (hfree f hf).symm ▸ UInt64.le_refl _⟩, f, hf,
      (hfree f hf).symm ▸ UInt64.le_refl _⟩
  · have hworthy : 0 < request.dvalueTraded := by
      rw [Word.lt_iff, UInt64.toNat_zero]
      rw [Word.eq_iff, UInt64.toNat_zero] at hzero
      omega
    have hprice : request.dpriceTraded.toNat = Fill.value fills / Fill.volume fills := by
      rw [h.price hsome hworthy, UInt64.toNat_div, htraded, hworth]
    simp only [Word.le_iff, hprice]
    exact hmean

end OrderRequest.Accounts

/-! ## The order in the book -/

namespace OrderBook

variable {b : OrderBook} {orderId : InternalOrderId}

/-- The aggregation of children does not mix the order with others: it is not its own parent, or the
book does not aggregate it, or it is its only child. -/
def Unmixed (b : OrderBook) (orderId : InternalOrderId) : Prop :=
  b.tryGetParent orderId = some orderId → b.isManagedParent orderId = false →
    b.getChildren orderId = [orderId]

/-- The only child of an order gives it its own numbers. -/
theorem refreshed_refreshParent {e : OrderEntry} (hnew : e.request.orderType = .new)
    (hremain : e.request.volumeRemain ≤ e.request.volumeEntrust) (latched : Bool) :
    e.request.Refreshed
      (refreshParent e latched
        (ChildFold.add { latestUpdateNs := e.lastUpdateNs } (some e))).request := by
  have hcap : ¬ (e.request.volumeEntrust > 0 ∧
      e.request.volumeRemain > e.request.volumeEntrust) := by
    rintro ⟨-, hover⟩
    rw [gt_iff_lt, Word.lt_iff] at hover
    rw [Word.le_iff] at hremain
    omega
  simp only [refreshParent, ChildFold.add, hnew, if_true, saturatingAdd_zero, if_neg hcap]
  refine ⟨hnew.symm, rfl, rfl, rfl, rfl, ?_⟩
  simp only
  split
  · exact Or.inr rfl
  · exact Or.inl rfl

theorem OrderRequest.Refreshed.refl (request : OrderRequest) : request.Refreshed request :=
  ⟨rfl, rfl, rfl, rfl, rfl, Or.inl rfl⟩

/-- The aggregation that follows a change of the order. -/
theorem refreshed_refreshParentOf (hunmixed : b.Unmixed orderId) {e : OrderEntry}
    (he : b.findOrder orderId = some e) (hnew : e.request.orderType = .new)
    (hremain : e.request.volumeRemain ≤ e.request.volumeEntrust) :
    ∃ e', (b.refreshParentOf orderId).1.findOrder orderId = some e' ∧
      e.request.Refreshed e'.request := by
  -- The order is its own parent: the refresh writes it, from itself as its only child.
  by_cases hself : b.childToParent.lookup orderId = some orderId
  · have hparent : b.refreshParentOf orderId =
        if b.isManagedParent orderId then (b, [], []) else b.refreshParentFromChildren orderId := by
      simp only [refreshParentOf, hself]
    rw [hparent]
    cases hmanaged : b.isManagedParent orderId with
    | true =>
        rw [if_pos rfl]
        exact ⟨e, he, OrderRequest.Refreshed.refl _⟩
    | false =>
        rw [if_neg Bool.false_ne_true]
        have honly := hunmixed hself hmanaged
        cases hchildren : b.parentToChildren.lookup orderId with
        | none =>
            rw [getChildren, hchildren] at honly
            exact absurd honly (List.cons_ne_nil _ _).symm
        | some children =>
            rw [getChildren, hchildren, Option.getD_some] at honly
            have hfold : b.foldChildren e children =
                ChildFold.add { latestUpdateNs := e.lastUpdateNs } (some e) := by
              simp only [foldChildren, honly, List.foldl_cons, List.foldl_nil, he]
            have hcount :
                (ChildFold.add { latestUpdateNs := e.lastUpdateNs } (some e)).newChildCount ≠
                0 := by
              simp only [ChildFold.add, hnew, if_true]
              decide
            simp only [refreshParentFromChildren, hmanaged, Bool.false_eq_true, if_false,
              he, hchildren, hfold, if_neg hcount]
            refine ⟨_, (findOrder_modifyOrder b orderId _ orderId).trans ?_,
              refreshed_refreshParent hnew hremain (decide (orderId ∈ b.splitParentErrorLatched))⟩
            rw [if_pos rfl, he, Option.map_some]
  -- Otherwise the refresh writes another order.
  · exact ⟨e, (findOrder_refreshParentOf fun heq => absurd heq hself).trans he,
      OrderRequest.Refreshed.refl _⟩

/-- The aggregation marks no parent as managed. -/
theorem managed_refreshParentOf (b : OrderBook) (orderId : InternalOrderId) :
    (b.refreshParentOf orderId).1.isManagedParent orderId = b.isManagedParent orderId := by
  simp only [refreshParentOf]
  split
  · split
    · rfl
    · simp only [refreshParentFromChildren, isManagedParent]
      split
      · rfl
      split
      · rfl
      split
      · rfl
      split <;> rfl
  · rfl

/-! ## Calls on one order -/

/-- A call on the order. -/
inductive OrderCall where
  | trade (fill : Fill) (now : TimestampNs)
  | state (newState : OrderState) (now : TimestampNs)

/-- The fills among the calls. -/
def OrderCall.fills (calls : List OrderCall) : List Fill :=
  calls.filterMap fun
    | .trade fill _ => some fill
    | .state _ _ => none

/-- The book after a call. -/
def callOrder (orderId : InternalOrderId) (b : OrderBook) : OrderCall → OrderBook
  | .trade fill now => (b.updateTrade orderId fill.vol fill.px fill.val fill.fee now).book
  | .state newState now => (b.updateState orderId newState now).book

/-- The order is in the book with the numbers of these fills. -/
structure Accounts (b : OrderBook) (orderId : InternalOrderId) (entrust : Volume)
    (fills : List Fill) : Prop where
  unmixed : b.Unmixed orderId
  order : ∃ e, b.findOrder orderId = some e ∧ e.request.Accounts entrust fills

namespace Accounts

variable {entrust : Volume} {fills : List Fill}

theorem remain_le {request : OrderRequest} (h : request.Accounts entrust fills) :
    request.volumeRemain ≤ request.volumeEntrust := by
  have hremain := h.remain
  rw [Word.le_iff, h.entrusted]
  omega

/-- Only the links and the marks of managed parents decide whether an order is mixed with others. -/
theorem unmixed_of_links {b' : OrderBook} (h : b.Unmixed orderId) (hlinks : b'.links = b.links)
    (hmanaged : b'.isManagedParent orderId = b.isManagedParent orderId) : b'.Unmixed orderId := by
  obtain ⟨hparent, hchildren⟩ := Prod.mk.inj hlinks
  intro hself hnot
  rw [tryGetParent, hparent] at hself
  rw [hmanaged] at hnot
  rw [getChildren, hchildren]
  exact h hself hnot

/-- What follows the writing of the entry. -/
theorem refresh {e : OrderEntry} (hunmixed : b.Unmixed orderId) (he : b.findOrder orderId = some e)
    (h : e.request.Accounts entrust fills) :
    (b.refreshParentOf orderId).1.Accounts orderId entrust fills where
  unmixed := unmixed_of_links hunmixed (edits_refreshParentOf b orderId).links
    (managed_refreshParentOf b orderId)
  order := by
    obtain ⟨e', he', hsame⟩ := refreshed_refreshParentOf hunmixed he h.orderType (remain_le h)
    exact ⟨e', he', h.refreshed hsame⟩

theorem written {e e' : OrderEntry} (hunmixed : b.Unmixed orderId)
    (he : b.findOrder orderId = some e)
    {fills' : List Fill} (h : e'.request.Accounts entrust fills') :
    ((b.modifyOrder orderId fun _ => e').refreshParentOf orderId).1.Accounts orderId
      entrust fills' := by
  have hunmixed' : (b.modifyOrder orderId fun _ => e').Unmixed orderId := hunmixed
  refine refresh hunmixed' ((findOrder_modifyOrder b orderId _ orderId).trans ?_) h
  rw [if_pos rfl, he, Option.map_some]

/-- One call. -/
theorem call (h : b.Accounts orderId entrust fills) (hentrust : 0 < entrust) (c : OrderCall) :
    (b.callOrder orderId c).Accounts orderId entrust (fills ++ OrderCall.fills [c]) := by
  obtain ⟨e, he, haccounts⟩ := h.order
  cases c with
  | trade fill now =>
      have hbook : b.callOrder orderId (.trade fill now) =
          ((b.modifyOrder orderId fun _ =>
            withTrade e fill.vol fill.px fill.val fill.fee now).refreshParentOf
            orderId).1 := by
        simp only [callOrder, updateTrade, he]
      rw [hbook]
      exact written h.unmixed he (haccounts.tradedRequest hentrust fill)
  | state newState now =>
      obtain ⟨latched, hlatch, -⟩ :=
        latchSplitError_eq (b.modifyOrder orderId fun _ => withState e newState now)
          orderId newState
      have hbook : b.callOrder orderId (.state newState now) =
          (((b.modifyOrder orderId fun _ => withState e newState now).latchSplitError orderId
            newState).refreshParentOf orderId).1 := by
        simp only [callOrder, updateState, he]
      have hnone : OrderCall.fills [.state newState now] = [] := rfl
      rw [hbook, hlatch, hnone, List.append_nil]
      have hstate : (withState e newState now).request.Accounts entrust fills :=
        ⟨haccounts.orderType, haccounts.entrusted, haccounts.traded,
          haccounts.remain, haccounts.value, haccounts.price, haccounts.worthless⟩
      refine refresh (by exact h.unmixed) ?_ hstate
      exact (findOrder_modifyOrder b orderId _ orderId).trans
        (by rw [if_pos rfl, he, Option.map_some])

/-- Any calls, one after the other. -/
theorem calls (h : b.Accounts orderId entrust []) (hentrust : 0 < entrust) (cs : List OrderCall) :
    (cs.foldl (callOrder orderId) b).Accounts orderId entrust (OrderCall.fills cs) := by
  induction cs using List.reverseRecOn with
  | nil => exact h
  | append_singleton cs c ih =>
      have hfills : OrderCall.fills (cs ++ [c]) = OrderCall.fills cs ++ OrderCall.fills [c] :=
        List.filterMap_append
      rw [List.foldl_append, hfills]
      exact ih.call hentrust c

/-- A new order without fills enters the book with its numbers. -/
theorem of_addOrder {entry : OrderEntry} {now : TimestampNs}
    (hok : (b.addOrder entry now).ok = true) (hnew : entry.request.orderType = .new)
    (htraded : entry.request.volumeTraded = 0) (hvalue : entry.request.dvalueTraded = 0)
    (hremain : entry.request.volumeRemain = 0 ∨
      entry.request.volumeRemain = entry.request.volumeEntrust)
    (hunmixed : (b.addOrder entry now).book.Unmixed entry.request.internalOrderId) :
    (b.addOrder entry now).book.Accounts entry.request.internalOrderId entry.request.volumeEntrust
      [] := by
  obtain ⟨h₁, h₂, h₃⟩ := (addOrder_ok_iff b entry now).1 hok
  have hzero : ¬ (0 : UInt64) < 0 := by decide
  have hstored : (storedEntry entry now).request.Accounts entry.request.volumeEntrust [] := by
    have hopen : (storedEntry entry now).request.volumeRemain = entry.request.volumeEntrust := by
      simp only [storedEntry]
      split
      next => simp only [htraded, UInt64.sub_zero]
      next hkept =>
        refine hremain.resolve_left fun heq => hkept ⟨hnew, heq, ?_⟩
        rw [htraded, Word.le_iff]
        exact Nat.zero_le _
    have hrest : (storedEntry entry now).request.orderType = .new ∧
        (storedEntry entry now).request.volumeEntrust = entry.request.volumeEntrust ∧
        (storedEntry entry now).request.volumeTraded = 0 ∧
          (storedEntry entry now).request.dvalueTraded = 0 := by
      simp only [storedEntry]
      split <;> exact ⟨hnew, rfl, htraded, hvalue⟩
    obtain ⟨htype, hentrust, hnone, hworth⟩ := hrest
    refine ⟨htype, hentrust, ?_, ?_, ?_, fun hsome => ?_, fun hsome => ?_⟩
    · rw [hnone]
      exact (Nat.min_eq_right (Nat.zero_le _)).symm
    · rw [hnone, hopen, UInt64.toNat_zero, Nat.zero_add]
    · rw [hworth]
      rfl
    · rw [hnone] at hsome
      exact absurd hsome hzero
    · rw [hnone] at hsome
      exact absurd hsome hzero
  have hfind : (b.stored entry now).findOrder entry.request.internalOrderId =
      some (storedEntry entry now) := by
    simp only [findOrder, OrderBook.stored, table_registerOrder]
    rw [SlotTable.find?_insert h₂ h₃, if_pos rfl]
  by_cases hchild : (storedEntry entry now).isSplitChild = true ∧
    (storedEntry entry now).parentOrderId ≠ 0
  · -- the refresh of the parent is the one that follows a change of the new child
    have hlinked : ((b.stored entry now).linkChild entry.request.internalOrderId
        (storedEntry entry now).parentOrderId).childToParent.lookup entry.request.internalOrderId =
          some (storedEntry entry now).parentOrderId := AList.lookup_insert _
    have hbook : (b.addOrder entry now).book =
        { (((b.stored entry now).linkChild entry.request.internalOrderId
            (storedEntry entry now).parentOrderId).refreshParentOf
              entry.request.internalOrderId).1 with
          activeCount := (((b.stored entry now).linkChild entry.request.internalOrderId
            (storedEntry entry now).parentOrderId).refreshParentOf
              entry.request.internalOrderId).1.activeCount + 1 } := by
      simp only [addOrder, refreshParentOf, hlinked]
      rw [if_neg h₁, if_neg (by simp [h₂]), if_neg (by simpa using h₃), if_pos hchild]
      rfl
    rw [hbook] at hunmixed ⊢
    have hlinkedUnmixed : ((b.stored entry now).linkChild entry.request.internalOrderId
        (storedEntry entry now).parentOrderId).Unmixed entry.request.internalOrderId :=
      unmixed_of_links hunmixed (edits_refreshParentOf _ _).links.symm
        (managed_refreshParentOf _ _).symm
    have hafter := refresh hlinkedUnmixed hfind hstored
    exact ⟨hafter.unmixed, hafter.order⟩
  · exact ⟨hunmixed, _, (findOrder_addOrder_orphan hok hchild _).trans (if_pos rfl), hstored⟩

end Accounts

/-- Fills add up. A new order without fills, which enters the book with its whole volume open and is
not mixed with others by the aggregation of children, is given any sequence of fills and states.
Then its traded and its remaining volume make up the volume entrusted; the traded volume was never
greater before; and if every fill has a volume and the value of that volume at its price, the
volumes fit in the order and the values in a word, then the average price lies between the smallest
and the largest price of the fills. -/
theorem fills_add_up {b : OrderBook} {entry : OrderEntry} {now : TimestampNs}
    (hok : (b.addOrder entry now).ok = true) (hnew : entry.request.orderType = .new)
    (hentrust : 0 < entry.request.volumeEntrust) (htraded : entry.request.volumeTraded = 0)
    (hvalue : entry.request.dvalueTraded = 0)
    (hremain : entry.request.volumeRemain = 0 ∨
      entry.request.volumeRemain = entry.request.volumeEntrust)
    (hunmixed : (b.addOrder entry now).book.Unmixed entry.request.internalOrderId)
    (cs : List OrderCall) :
    ∃ e, (cs.foldl (callOrder entry.request.internalOrderId) (b.addOrder entry now).book).findOrder
        entry.request.internalOrderId = some e ∧
      e.request.volumeEntrust = entry.request.volumeEntrust ∧
      e.request.volumeTraded.toNat + e.request.volumeRemain.toNat =
        entry.request.volumeEntrust.toNat ∧
      e.request.volumeTraded ≤ entry.request.volumeEntrust ∧
      (∀ before later, cs = before ++ later → ∃ e₀,
        (before.foldl (callOrder entry.request.internalOrderId)
          (b.addOrder entry now).book).findOrder
          entry.request.internalOrderId = some e₀ ∧
            e₀.request.volumeTraded ≤ e.request.volumeTraded) ∧
      (OrderCall.fills cs ≠ [] → (∀ f ∈ OrderCall.fills cs, f.Exact) →
        Fill.volume (OrderCall.fills cs) ≤ entry.request.volumeEntrust.toNat →
        Fill.value (OrderCall.fills cs) < 2 ^ 64 →
        (∃ f ∈ OrderCall.fills cs, f.px ≤ e.request.dpriceTraded) ∧
          ∃ f ∈ OrderCall.fills cs, e.request.dpriceTraded ≤ f.px) := by
  -- After the registration and every call, the order accounts for the fills so far.
  have hstart := Accounts.of_addOrder hok hnew htraded hvalue hremain hunmixed
  obtain ⟨e, he, haccounts⟩ := (hstart.calls hentrust cs).order
  refine ⟨e, he, haccounts.entrusted, haccounts.remain, ?_, ?_, haccounts.price_between⟩
  · have hsum := haccounts.remain
    rw [Word.le_iff]
    omega
  -- The fills before are among those now, and the traded volume is the capped sum.
  · rintro before later rfl
    obtain ⟨e₀, he₀, haccounts₀⟩ := (hstart.calls hentrust before).order
    refine ⟨e₀, he₀, ?_⟩
    have hfills : OrderCall.fills (before ++ later) = OrderCall.fills before ++
        OrderCall.fills later :=
      List.filterMap_append
    have hvolumes : Fill.volume (OrderCall.fills before) ≤ Fill.volume
        (OrderCall.fills (before ++ later)) := by
      simp only [hfills, Fill.volume, List.map_append, List.sum_append]
      exact Nat.le_add_right _ _
    have hnow := haccounts.traded
    have hthen := haccounts₀.traded
    rw [Word.le_iff]
    omega

/-- A new order for 10 shares. -/
def plainTen : OrderEntry :=
  { request := { internalOrderId := 7, orderType := .new, volumeEntrust := 10 } }

theorem fills_add_up_two_fills :
    ∃ e, ([OrderCall.trade ⟨4, 10, 40, 0⟩ 2, .trade ⟨9, 12, 108, 0⟩ 3].foldl (callOrder 7)
        (empty.addOrder plainTen 1).book).findOrder 7 = some e ∧
      e.request.volumeTraded.toNat + e.request.volumeRemain.toNat = 10 := by
  have hunmixed : (empty.addOrder plainTen 1).book.Unmixed 7 := by
    intro hself
    exact absurd hself (by decide)
  obtain ⟨e, he, -, hsum, -⟩ := @fills_add_up empty plainTen 1 rfl rfl (by decide) rfl rfl
    (Or.inl rfl) hunmixed [.trade ⟨4, 10, 40, 0⟩ 2, .trade ⟨9, 12, 108, 0⟩ 3]
  exact ⟨e, he, hsum⟩

/-- A new order for 10 shares of which, so its request says, 5 remain. -/
def halfOpen : OrderEntry :=
  { request := { internalOrderId := 7, orderType := .new, volumeEntrust := 10, volumeRemain := 5 } }

/-- A new order for 10 shares that is its own split parent. -/
def ownParent : OrderEntry :=
  { request := { internalOrderId := 7, orderType := .new, volumeEntrust := 10 }
    isSplitChild := true
    parentOrderId := 7 }

/-- The book that has archived the order once. -/
def ownParentAgain : OrderBook := ((empty.addOrder ownParent 1).book.archiveOrder 7).book

/-- The volumes do not add up after one fill: of an order that does not enter with its whole volume
open, and of an order that is listed twice among its own children. -/
theorem fills_short_of_entrusted :
    ((empty.addOrder halfOpen 1).ok = true ∧
      ∃ e,
        ((empty.addOrder halfOpen 1).book.callOrder 7 (.trade ⟨1, 10, 10, 0⟩ 2)).findOrder 7 =
          some e ∧
        e.request.volumeTraded.toNat + e.request.volumeRemain.toNat ≠
          e.request.volumeEntrust.toNat) ∧
    ((ownParentAgain.addOrder ownParent 2).ok = true ∧
      ∃ e, ((ownParentAgain.addOrder ownParent 2).book.callOrder 7
        (.trade ⟨4, 10, 40, 0⟩ 3)).findOrder 7 = some e ∧
        e.request.volumeTraded.toNat + e.request.volumeRemain.toNat ≠
          e.request.volumeEntrust.toNat) :=
  ⟨⟨rfl, _, rfl, by decide⟩, ⟨rfl, _, rfl, by decide⟩⟩

end OrderBook

end AccountServices
