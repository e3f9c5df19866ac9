import Mathlib.Algebra.BigOperators.Group.List.Basic
import AccountServices.Order.ParentStatus

/-!
# The fills of an aggregated parent

The volume, value and fee of a parent that no session manages are added up anew whenever a child
changes, from the children that are still in the book. What a child has filled is therefore
forgotten at the first change of a sibling after it was archived. A run is followed here together
with the family of the parent: the new children that live, and the fills with which the others left
(`Family`). The parent shows the sum over the whole family after every change, and never a smaller
one later, in a run in which no child takes fills into the archive and no id is used again
(`parent_fills`).
-/

set_option autoImplicit false

namespace AccountServices

open Foundation

namespace OrderBook

/-! ## Saturating sums -/

theorem saturatingAdd_comm (a b : UInt64) : saturatingAdd a b = saturatingAdd b a := by
  rw [Word.eq_iff, saturatingAdd_toNat, saturatingAdd_toNat, Nat.add_comm]

theorem saturatingAdd_assoc (a b c : UInt64) :
    saturatingAdd (saturatingAdd a b) c = saturatingAdd a (saturatingAdd b c) := by
  simp only [Word.eq_iff, saturatingAdd_toNat]
  omega

theorem le_saturatingAdd (a b : UInt64) : a ≤ saturatingAdd a b := by
  have hbound := a.toNat_lt
  rw [Word.le_iff, saturatingAdd_toNat]
  omega

theorem saturatingAdd_le_saturatingAdd {a b c d : UInt64} (hab : a ≤ b) (hcd : c ≤ d) :
    saturatingAdd a c ≤ saturatingAdd b d := by
  rw [Word.le_iff] at hab hcd ⊢
  rw [saturatingAdd_toNat, saturatingAdd_toNat]
  omega

end OrderBook

/-- The volume, the value and the fee of what was filled. -/
@[ext] structure Fills where
  volume : Volume := 0
  value : DValue := 0
  fee : DValue := 0
  deriving DecidableEq

namespace Fills

open OrderBook

instance : Zero Fills := ⟨{}⟩

instance : Add Fills where
  add a b :=
    { volume := saturatingAdd a.volume b.volume
      value := saturatingAdd a.value b.value
      fee := saturatingAdd a.fee b.fee }

theorem zero_def : (0 : Fills) = {} := rfl

theorem add_def (a b : Fills) :
    a + b = ⟨saturatingAdd a.volume b.volume, saturatingAdd a.value b.value,
      saturatingAdd a.fee b.fee⟩ := rfl

instance : AddCommMonoid Fills where
  add_assoc a b c := by
    simp only [add_def, saturatingAdd_assoc]
  add_comm a b := by
    rw [add_def, add_def, saturatingAdd_comm a.volume, saturatingAdd_comm a.value,
      saturatingAdd_comm a.fee]
  zero_add a := by
    simp only [add_def, zero_def, saturatingAdd_zero]
  add_zero a := by
    simp only [add_def, zero_def, saturatingAdd_comm _ 0, saturatingAdd_zero]
  nsmul := nsmulRec

/-- No part is smaller. -/
instance : Preorder Fills where
  le a b := a.volume ≤ b.volume ∧ a.value ≤ b.value ∧ a.fee ≤ b.fee
  le_refl a := ⟨UInt64.le_refl _, UInt64.le_refl _, UInt64.le_refl _⟩
  le_trans a b c hab hbc := ⟨UInt64.le_trans hab.1 hbc.1, UInt64.le_trans hab.2.1 hbc.2.1,
    UInt64.le_trans hab.2.2 hbc.2.2⟩

variable {a b c d : Fills}

theorem le_add (a b : Fills) : a ≤ a + b :=
  ⟨le_saturatingAdd _ _, le_saturatingAdd _ _, le_saturatingAdd _ _⟩

theorem add_le_add (hab : a ≤ b) (hcd : c ≤ d) : a + c ≤ b + d :=
  ⟨saturatingAdd_le_saturatingAdd hab.1 hcd.1, saturatingAdd_le_saturatingAdd hab.2.1 hcd.2.1,
    saturatingAdd_le_saturatingAdd hab.2.2 hcd.2.2⟩

end Fills

/-- What an order has filled. -/
def OrderEntry.fills (e : OrderEntry) : Fills :=
  ⟨e.request.volumeTraded, e.request.dvalueTraded, e.request.dfeeExecuted⟩

namespace OrderBook

variable {b b' : OrderBook} {orderId parentId : InternalOrderId} {calls : List Call} {call : Call}

/-- The sums of the aggregation. -/
def ChildFold.fills (acc : ChildFold) :
    Fills := ⟨acc.totalVolumeTraded, acc.totalDvalueTraded, acc.totalFee⟩

theorem fills_refreshParent (parent : OrderEntry) (latched : Bool) (acc : ChildFold) :
    (refreshParent parent latched acc).fills = acc.fills := rfl

theorem fills_foldl (entries : List OrderEntry) (hnew : ∀ e ∈ entries, e.request.orderType = .new)
    (acc : ChildFold) :
    (entries.foldl (fun acc e => acc.add (some e)) acc).fills = acc.fills +
      (entries.map OrderEntry.fills).sum := by
  induction entries generalizing acc with
  | nil => exact (add_zero _).symm
  | cons e rest ih =>
      have hadd : (acc.add (some e)).fills = acc.fills + e.fills := by
        simp only [ChildFold.add, if_pos (hnew e List.mem_cons_self)]
        rfl
      rw [List.foldl_cons, ih (fun x hx => hnew x (List.mem_cons_of_mem _ hx)), hadd, List.map_cons,
        List.sum_cons, add_assoc]

/-- The aggregation adds up the fills of the live new children. -/
theorem fills_foldChildren (b : OrderBook) (parent : OrderEntry) (parentId : InternalOrderId) :
    (b.foldChildren parent (b.getChildren parentId)).fills =
      ((b.newChildren parentId).map OrderEntry.fills).sum := by
  rw [foldChildren_eq, fills_foldl _ fun e he => orderType_of_mem_newChildren he]
  exact zero_add _

/-! ## The family of a parent -/

/-- The new children that were registered for a parent: those that live, in the order of
registration, and the fills of those that were archived. -/
structure Family where
  live : List InternalOrderId := []
  archived : List Fills := []

/-- The call registers a new child. -/
def Registers (b : OrderBook) (parentId : InternalOrderId) (entry : OrderEntry)
    (now : TimestampNs) : Prop :=
  (b.addOrder entry now).ok = true ∧ entry.isSplitChild = true ∧ parentId ≠ 0 ∧
    entry.parentOrderId = parentId ∧ entry.request.orderType = .new

instance (b : OrderBook) (parentId : InternalOrderId) (entry : OrderEntry) (now : TimestampNs) :
    Decidable (b.Registers parentId entry now) := inferInstanceAs (Decidable (_ ∧ _))

/-- The family after a call. -/
def Family.after (f : Family) (b : OrderBook) (parentId : InternalOrderId) : Call → Family
  | .addOrder entry now =>
      if b.Registers parentId entry now then
        { f with live := f.live ++ [entry.request.internalOrderId] } else f
  | .archiveOrder orderId =>
      if orderId ∈ f.live then
        { live := f.live.erase orderId
          archived := f.archived ++ ((b.findOrder orderId).map OrderEntry.fills).toList }
      else f
  | .clear => {}
  | .updateState _ _ _ | .updateTrade _ _ _ _ _ _ | .markManagedParent _
  | .syncManagedParentView _ _ _ _ => f

/-- The family after the calls. -/
def family (parentId : InternalOrderId) (calls : List Call) : Family :=
  (calls.foldl (fun (state : OrderBook × Family) call =>
    (state.1.after call, state.2.after state.1 parentId call)) (empty, {})).2

theorem family_append (parentId : InternalOrderId) (calls : List Call) (call : Call) :
    family parentId (calls ++ [call]) = (family parentId calls).after
      (afterCalls calls) parentId call := by
  have hbook : (calls.foldl (fun (state : OrderBook × Family) call =>
      (state.1.after call, state.2.after state.1 parentId call)) (empty, {})).1 =
        afterCalls calls := by
    induction calls using List.reverseRecOn with
    | nil => rfl
    | append_singleton calls call ih =>
        rw [List.foldl_append, List.foldl_cons, List.foldl_nil, afterCalls_append, ih]
  rw [family, List.foldl_append, List.foldl_cons, List.foldl_nil, hbook, family]

/-- What a live order has filled. -/
def fills? (b : OrderBook) (orderId : InternalOrderId) :
    Option Fills := (b.findOrder orderId).map OrderEntry.fills

/-- The fills of the whole family: the archived children with the fills they left with. -/
def Family.total (f : Family) (b : OrderBook) :
    Fills := f.archived.sum + (f.live.filterMap b.fills?).sum

/-! ## Calls that spare the family -/

/-- The call takes no fills into the archive and uses no id of the family again. A change of a child
finds a live new child, or a parent without fills. -/
structure Spares (b : OrderBook) (f : Family) (parentId : InternalOrderId) (call : Call) :
    Prop where
  archives : ∀ orderId, call = .archiveOrder orderId → orderId ∈ f.live →
    ∀ e, b.findOrder orderId = some e → e.fills = 0
  adds : ∀ entry now, call = .addOrder entry now → (b.addOrder entry now).ok = true →
    entry.request.internalOrderId ∉ b.getChildren parentId ∧
      ¬ (entry.isSplitChild = true ∧ entry.parentOrderId = parentId ∧
        entry.request.internalOrderId = parentId)
  changes : b.ChangesChild parentId call → (f.after b parentId call).live = [] →
    ∀ e, b.findOrder parentId = some e → e.fills = 0

/-- A fill finds an order that has not traded more than its volume. -/
def FillsWithin (b : OrderBook) (call : Call) : Prop :=
  ∀ orderId vol px val fee now, call = .updateTrade orderId vol px val fee now →
    ∀ e, b.findOrder orderId = some e → 0 < e.request.volumeEntrust →
      e.request.volumeTraded ≤ e.request.volumeEntrust

/-- Every call of the run spares the family. -/
def Spared (parentId : InternalOrderId) (calls : List Call) : Prop :=
  ∀ earlier call later, calls = earlier ++ call :: later →
    Spares (afterCalls earlier) (family parentId earlier) parentId call

/-- The live members of the family are the live new orders among the registered children, which are
all different and not the parent itself, and nobody left with fills. -/
structure Family.Lists (f : Family) (b : OrderBook) (parentId : InternalOrderId) : Prop where
  live : f.live = (b.getChildren parentId).filter fun c => (b.newState? c).isSome
  nodup : (b.getChildren parentId).Nodup
  other : parentId ∉ b.getChildren parentId
  archived : f.archived.sum = 0

section Steps

variable {f : Family}

theorem Family.Lists.live_subset (h : f.Lists b parentId) : f.live ⊆ b.getChildren parentId := by
  intro c hc
  rw [h.live] at hc
  exact List.mem_of_mem_filter hc

theorem Family.Lists.live_nodup (h : f.Lists b parentId) : f.live.Nodup := by
  rw [h.live]
  exact h.nodup.filter _

theorem Family.Lists.congr (h : f.Lists b parentId) (hterms : ∀ id, b'.terms id = b.terms id)
    (hlinks : b'.links = b.links) : f.Lists b' parentId := by
  have hsame := getChildren_eq hlinks parentId
  refine ⟨?_, hsame.symm ▸ h.nodup, hsame.symm ▸ h.other, h.archived⟩
  rw [h.live, hsame]
  exact List.filter_congr fun c _ => (isSome_newState?_of_terms (hterms c)).symm

/-- The children of the parent after an order was added. -/
theorem getChildren_addOrder {entry : OrderEntry} {now : TimestampNs}
    (hok : (b.addOrder entry now).ok = true) (parentId : InternalOrderId) :
    (b.addOrder entry now).book.getChildren parentId =
      if entry.isSplitChild = true ∧ parentId ≠ 0 ∧ entry.parentOrderId = parentId then
        b.getChildren parentId ++ [entry.request.internalOrderId]
      else b.getChildren parentId := by
  by_cases hchild : entry.isSplitChild = true ∧ entry.parentOrderId ≠ 0
  · have hlinks := links_addOrder_child hok hchild.1 hchild.2
    rw [links, Prod.mk.injEq] at hlinks
    rw [getChildren, hlinks.2, Map.lookup_insert_eq]
    by_cases heq : entry.parentOrderId = parentId
    · rw [if_pos heq.symm, if_pos ⟨hchild.1, heq ▸ hchild.2, heq⟩, heq]
      rfl
    · rw [if_neg fun h => heq h.symm, if_neg fun h => heq h.2.2]
      rfl
  · rw [getChildren_eq (links_addOrder_orphan b now hchild), if_neg]
    rintro ⟨hsplit, hne, rfl⟩
    exact hchild ⟨hsplit, hne⟩

/-- A new order that is added is a live new one; another kind of order is not. -/
theorem isSome_newState?_addOrder {entry : OrderEntry} {now : TimestampNs}
    (hok : (b.addOrder entry now).ok = true) :
    ((b.addOrder entry now).book.newState? entry.request.internalOrderId).isSome =
      decide (entry.request.orderType = .new) := by
  have hterms := terms_addOrder hok entry.request.internalOrderId
  rw [if_pos rfl, terms, Option.map_eq_some_iff] at hterms
  obtain ⟨e, he, hsame⟩ := hterms
  have htype : e.request.orderType = entry.request.orderType := congrArg OrderTerms.orderType hsame
  rw [newState?, he, Option.bind_some, htype]
  split
  next hnew => exact (decide_eq_true hnew).symm
  next hother => exact (decide_eq_false hother).symm

theorem Family.Lists.addOrder (h : f.Lists b parentId) {entry : OrderEntry} {now : TimestampNs}
    (hspares : Spares b f parentId (.addOrder entry now)) :
    (f.after b parentId (.addOrder entry now)).Lists (b.addOrder entry now).book parentId := by
  cases hok : (b.addOrder entry now).ok with
  | false =>
      have hnot : ¬ b.Registers parentId entry now :=
        fun hreg => absurd (hok.symm.trans hreg.1) (by decide)
      rw [Family.after, if_neg hnot, addOrder_of_not_ok hok]
      exact h
  | true =>
      obtain ⟨hfresh, hforeign⟩ := hspares.adds entry now rfl hok
      have hchildren := getChildren_addOrder hok parentId
      have hfilter : (b.getChildren parentId).filter
          (fun c => ((b.addOrder entry now).book.newState? c).isSome) =
          f.live := by
        rw [h.live]
        refine List.filter_congr fun c hc => isSome_newState?_of_terms ?_
        rw [terms_addOrder hok, if_neg]
        rintro rfl
        exact hfresh hc
      by_cases hchild : entry.isSplitChild = true ∧ parentId ≠ 0 ∧ entry.parentOrderId = parentId
      · -- A child of the parent: it is appended to the list, and lives in the family if it is
        -- a new order.
        rw [if_pos hchild] at hchildren
        have hnodup : (b.getChildren parentId ++ [entry.request.internalOrderId]).Nodup := by
          rw [List.nodup_append]
          refine ⟨h.nodup, List.nodup_singleton _, ?_⟩
          intro c hc d hd heq
          rw [List.mem_singleton.1 hd] at heq
          exact hfresh (heq ▸ hc)
        have hother : parentId ∉ b.getChildren parentId ++ [entry.request.internalOrderId] := by
          intro hmem
          rcases List.mem_append.1 hmem with hold | hnew
          · exact h.other hold
          · exact hforeign ⟨hchild.1, hchild.2.2, (List.mem_singleton.1 hnew).symm⟩
        by_cases hnew : entry.request.orderType = .new
        · rw [Family.after, if_pos ⟨hok, hchild.1, hchild.2.1, hchild.2.2, hnew⟩]
          refine ⟨?_, hchildren.symm ▸ hnodup, hchildren.symm ▸ hother, h.archived⟩
          rw [hchildren, List.filter_append, hfilter, List.filter_singleton,
            isSome_newState?_addOrder hok, decide_eq_true hnew, cond_true]
        · rw [Family.after, if_neg fun hreg => hnew hreg.2.2.2.2]
          refine ⟨?_, hchildren.symm ▸ hnodup, hchildren.symm ▸ hother, h.archived⟩
          rw [hchildren, List.filter_append, hfilter, List.filter_singleton,
            isSome_newState?_addOrder hok, decide_eq_false hnew, cond_false, List.append_nil]
      · rw [if_neg hchild] at hchildren
        rw [Family.after, if_neg fun hreg => hchild ⟨hreg.2.1, hreg.2.2.1, hreg.2.2.2.1⟩]
        exact ⟨by rw [hchildren, hfilter], hchildren.symm ▸ h.nodup,
          hchildren.symm ▸ h.other, h.archived⟩

theorem newState?_archiveOrder (b : OrderBook) (orderId id : InternalOrderId) :
    (b.archiveOrder orderId).book.newState? id = if id = orderId then none else b.newState? id := by
  rw [newState?, newState?, findOrder_archiveOrder]
  split <;> rfl

theorem Family.Lists.archiveOrder (h : f.Lists b parentId)
    (hspares : Spares b f parentId (.archiveOrder orderId)) :
    (f.after b parentId (.archiveOrder orderId)).Lists (b.archiveOrder orderId).book parentId := by
  have hsame := getChildren_eq (links_archiveOrder b orderId) parentId
  have hfilter : (b.getChildren parentId).filter
      (fun c => ((b.archiveOrder orderId).book.newState? c).isSome) = f.live.filter
        (· ≠ orderId) := by
    rw [h.live, List.filter_filter]
    refine List.filter_congr fun c _ => ?_
    rw [newState?_archiveOrder]
    split
    next heq => simp [heq]
    next hne => simp [hne]
  -- A live member that is archived had no fills, so the sum of the archived ones stays zero.
  by_cases hmem : orderId ∈ f.live
  · rw [Family.after, if_pos hmem]
    refine ⟨?_, hsame.symm ▸ h.nodup, hsame.symm ▸ h.other, ?_⟩
    · rw [hsame, hfilter, h.live_nodup.erase_eq_filter]
      refine List.filter_congr fun c _ => ?_
      by_cases heq : c = orderId
      · simp [heq]
      · simp [heq]
    · rw [List.sum_append, h.archived, zero_add]
      cases he : b.findOrder orderId with
      | none => rfl
      | some e =>
          rw [Option.map_some, hspares.archives orderId rfl hmem e he]
          rfl
  -- Another order does not belong to the list.
  · rw [Family.after, if_neg hmem]
    refine ⟨?_, hsame.symm ▸ h.nodup, hsame.symm ▸ h.other, h.archived⟩
    rw [hsame, hfilter]
    refine (List.filter_eq_self.2 fun c hc => ?_).symm
    refine decide_eq_true ?_
    rintro rfl
    exact hmem hc

/-- A call that spares the family keeps the list of its members. -/
theorem Family.Lists.after (h : f.Lists b parentId) (hspares : Spares b f parentId call) :
    (f.after b parentId call).Lists (b.after call) parentId := by
  cases call with
  | addOrder entry now => exact h.addOrder hspares
  | updateState orderId state now =>
      exact h.congr (sameTerms_updateState b orderId state now).terms
        (links_updateState b orderId state now)
  | updateTrade orderId vol px val fee now =>
      exact h.congr (sameTerms_updateTrade b orderId vol px val fee now).terms
        (links_updateTrade b orderId vol px val fee now)
  | markManagedParent id =>
      exact h.congr (sameTerms_markManagedParent b id).terms (links_markManagedParent b id)
  | syncManagedParentView id view state now =>
      exact h.congr (sameTerms_syncManagedParentView b id view state now).terms
        (links_syncManagedParentView b id view state now)
  | archiveOrder orderId => exact h.archiveOrder hspares
  | clear => exact ⟨rfl, List.nodup_nil, List.not_mem_nil, rfl⟩

theorem spared_append_iff :
    Spared parentId (calls ++ [call]) ↔
      Spared parentId calls ∧ Spares (afterCalls calls) (family parentId calls) parentId call := by
  constructor
  · intro h
    refine ⟨?_, h calls call [] rfl⟩
    intro earlier c later heq
    exact h earlier c (later ++ [call]) (by rw [heq]; simp)
  · rintro ⟨hbefore, hspares⟩ earlier c later heq
    rcases List.eq_nil_or_concat later with rfl | ⟨rest, last, rfl⟩
    · obtain ⟨rfl, hcall⟩ := List.append_inj' heq rfl
      obtain rfl := List.singleton_inj.1 hcall
      exact hspares
    · rw [List.concat_eq_append, ← List.cons_append, ← List.append_assoc] at heq
      obtain ⟨rfl, -⟩ := List.append_inj' heq rfl
      exact hbefore earlier c rest rfl

theorem lists_afterCalls (h : Spared parentId calls) :
    (family parentId calls).Lists (afterCalls calls) parentId := by
  induction calls using List.reverseRecOn with
  | nil => exact ⟨rfl, List.nodup_nil, List.not_mem_nil, rfl⟩
  | append_singleton calls call ih =>
      obtain ⟨hbefore, hspares⟩ := spared_append_iff.1 h
      rw [family_append, afterCalls_append]
      exact (ih hbefore).after hspares

/-! ## The sum that the parent shows -/

/-- The live new orders among the children are those of the family. -/
theorem Family.Lists.newChildren (h : f.Lists b parentId) :
    b.newChildren parentId = f.live.filterMap b.findOrder := by
  rw [h.live, OrderBook.newChildren]
  induction b.getChildren parentId with
  | nil => rfl
  | cons c rest ih =>
      rw [List.filterMap_cons, List.filter_cons, newState?]
      cases he : b.findOrder c with
      | none => exact ih
      | some e =>
          simp only [Option.bind_some, List.filter_cons]
          by_cases hnew : e.request.orderType = .new
          · rw [if_pos (decide_eq_true hnew), if_pos (by simp [hnew]),
              List.filterMap_cons_some he, ih]
          · rw [if_neg fun h => hnew (of_decide_eq_true h), if_neg (by simp [hnew]), ih]

theorem Family.Lists.total (h : f.Lists b parentId) :
    f.total b = ((b.newChildren parentId).map OrderEntry.fills).sum := by
  rw [Family.total, h.archived, zero_add, h.newChildren, List.map_filterMap]
  rfl

theorem Family.Lists.live_eq_nil (h : f.Lists b parentId) (hnone : b.newChildren parentId = []) :
    f.live = [] := by
  rw [h.live, List.filter_eq_nil_iff]
  intro c hc hsome
  have hempty : b.newStates parentId = [] := by
    rw [newStates, hnone, List.map_nil]
  rw [newStates_eq, List.filterMap_eq_nil_iff] at hempty
  rw [hempty c hc] at hsome
  exact absurd hsome (by decide)

/-- The parent shows the sum over its family after a change of a child. -/
theorem Family.Lists.fills_parent (h : f.Lists b parentId) (htidy : b.Tidy)
    (hspares : Spares b f parentId call)
    (hchange : b.ChangesChild parentId call) (hunmanaged : b.isManagedParent parentId = false)
    {parent : OrderEntry} (hparent : (b.after call).findOrder parentId = some parent) :
    parent.fills = (f.after b parentId call).total (b.after call) := by
  have hlists := h.after hspares
  have hsame := getChildren_eq (links_after hchange hunmanaged) parentId
  have hother : parentId ∉ (b.written call).getChildren parentId := hsame ▸ hlists.other
  have hkept := findOrder_written hchange htidy hother
  rw [hlists.total]
  by_cases hnone : (b.written call).newChildren parentId = []
  · -- nothing was aggregated
    have hfound : (b.after call).findOrder parentId = b.findOrder parentId := by
      rw [(agrees_refreshed hchange hunmanaged).findOrder,
        refreshParentFromChildren_childless hnone, hkept]
    have hempty : (b.after call).newChildren parentId = [] := by
      by_contra hsome
      rw [← ne_eq, ← newStates_ne_nil, newStates_ne_nil_iff (terms_after hchange hunmanaged)
        (links_after hchange hunmanaged), newStates_ne_nil] at hsome
      exact hsome hnone
    rw [hempty, hspares.changes hchange (hlists.live_eq_nil hempty) parent (hfound ▸ hparent)]
    rfl
  · -- The aggregation visits the new children, and these are what is live of the family.
    have hbefore : ∃ before, (b.written call).findOrder parentId = some before := by
      have hterms := terms_after hchange hunmanaged parentId
      rw [terms, hparent, Option.map_some, eq_comm, terms, Option.map_eq_some_iff] at hterms
      obtain ⟨before, hbefore, -⟩ := hterms
      exact ⟨before, hbefore⟩
    obtain ⟨before, hbefore⟩ := hbefore
    have hfound := findOrder_after hchange hunmanaged hbefore hnone
    have hentry := hfound parentId
    rw [if_pos rfl, hparent, Option.some.injEq] at hentry
    have hchildren :
        (b.after call).newChildren parentId = (b.written call).newChildren parentId := by
      rw [OrderBook.newChildren, OrderBook.newChildren, hsame]
      congr 1
      refine List.filterMap_congr fun c hc => ?_
      rw [hfound, if_neg]
      rintro rfl
      exact hother hc
    rw [hentry, fills_refreshParent, fills_foldChildren, hchildren]

/-! ## The sum does not fall -/

/-- The call is made on a child of the parent. -/
def OnChild (b : OrderBook) (parentId : InternalOrderId) : Call → Prop
  | .addOrder entry _ => entry.isSplitChild = true ∧ parentId ≠ 0 ∧ entry.parentOrderId = parentId
  | .updateState orderId _ _ | .updateTrade orderId _ _ _ _ _ | .archiveOrder orderId =>
      b.childToParent.lookup orderId = some parentId
  | .markManagedParent _ | .syncManagedParentView _ _ _ _ | .clear => False

theorem sum_filterMap_le {ids : List InternalOrderId} {g g' : InternalOrderId → Option Fills}
    (h : ∀ c ∈ ids, ∀ x, g c = some x → ∃ y, g' c = some y ∧ x ≤ y) :
    (ids.filterMap g).sum ≤ (ids.filterMap g').sum := by
  induction ids with
  | nil => exact le_refl _
  | cons c rest ih =>
      have hrest := ih fun d hd => h d (List.mem_cons_of_mem _ hd)
      cases hg : g c with
      | none =>
          rw [List.filterMap_cons_none hg]
          cases hg' : g' c with
          | none => rwa [List.filterMap_cons_none hg']
          | some y =>
              rw [List.filterMap_cons_some hg', List.sum_cons, add_comm]
              exact hrest.trans (Fills.le_add _ _)
      | some x =>
          obtain ⟨y, hg', hle⟩ := h c List.mem_cons_self x hg
          rw [List.filterMap_cons_some hg, List.filterMap_cons_some hg',
            List.sum_cons, List.sum_cons]
          exact Fills.add_le_add hle hrest

/-- The share of one member of the list. -/
theorem sum_filterMap_erase {ids : List InternalOrderId} {c : InternalOrderId} (hmem : c ∈ ids)
    (g : InternalOrderId → Option Fills) :
    (ids.filterMap g).sum = (g c).toList.sum + ((ids.erase c).filterMap g).sum := by
  rw [((List.perm_cons_erase hmem).filterMap g).sum_eq]
  cases hg : g c with
  | none => rw [List.filterMap_cons_none hg, Option.toList_none, List.sum_nil, zero_add]
  | some x => rw [List.filterMap_cons_some hg, Option.toList_some,
      List.sum_singleton, List.sum_cons]

/-- A fill within the volume of the order takes nothing away. -/
theorem fills_le_withTrade {e : OrderEntry} (hwithin : 0 < e.request.volumeEntrust →
    e.request.volumeTraded ≤ e.request.volumeEntrust) (vol : Volume)
      (px : DPrice) (val fee : DValue)
    (now : TimestampNs) : e.fills ≤ (withTrade e vol px val fee now).fills := by
  refine ⟨?_, le_saturatingAdd _ _, le_saturatingAdd _ _⟩
  change e.request.volumeTraded ≤ (tradedRequest e.request vol px val fee).volumeTraded
  rw [tradedRequest]
  simp only
  split
  next hover => exact hwithin hover.1
  next => exact le_saturatingAdd _ _

theorem fills?_updateState (hlink : b.childToParent.lookup orderId = some parentId)
    {c : InternalOrderId} (hc : c ≠ parentId) (state : OrderState) (now : TimestampNs) :
    (b.updateState orderId state now).book.fills? c = b.fills? c := by
  rw [fills?, fills?]
  by_cases heq : c = orderId
  · subst heq
    cases he : b.findOrder c with
    | none =>
        rw [updateState, he]
        simp only
        rw [he]
    | some e =>
        rw [findOrder_updateState_self
          (by rw [hlink]; exact fun h => hc (Option.some.inj h).symm) he]
        rfl
  · rw [findOrder_updateState_of_ne heq fun h =>
      absurd (Option.some.inj (h.symm.trans hlink)) hc]

theorem fills?_updateTrade (hlink : b.childToParent.lookup orderId = some parentId)
    {c : InternalOrderId}
    (hc : c ≠ parentId) (vol : Volume) (px : DPrice) (val fee : DValue) (now : TimestampNs) :
    (b.updateTrade orderId vol px val fee now).book.fills? c =
      if c = orderId then (b.findOrder orderId).map fun e => (withTrade e vol px val fee now).fills
      else b.fills? c := by
  have hself : b.childToParent.lookup orderId ≠ some c := by
    rw [hlink]
    exact fun h => hc (Option.some.inj h).symm
  rw [fills?, fills?, updateTrade]
  cases he : b.findOrder orderId with
  | none =>
      simp only
      by_cases heq : c = orderId
      · rw [if_pos heq, heq, he, Option.map_none, Option.map_none]
      · rw [if_neg heq]
  | some e =>
      have hrefresh :
          ((b.modifyOrder orderId fun _ => withTrade e vol px val fee now).refreshParentOf
          orderId).1.findOrder c = (b.modifyOrder orderId fun _ =>
            withTrade e vol px val fee now).findOrder c :=
        findOrder_refreshParentOf fun h => absurd h hself
      simp only
      rw [hrefresh, findOrder_modifyOrder, he]
      by_cases heq : c = orderId
      · rw [if_pos heq, if_pos heq]
        rfl
      · rw [if_neg heq, if_neg heq]

/-- A call on a child that is not archived by it takes no fills away from a member of the family. -/
theorem Family.Lists.fills?_after (h : f.Lists b parentId) (hspares : Spares b f parentId call)
    (hwithin : b.FillsWithin call) (hon : b.OnChild parentId call) {c : InternalOrderId}
    (hc : c ∈ b.getChildren parentId)
    (hkept : call ≠ .archiveOrder c) {x : Fills} (hx : b.fills? c = some x) :
    ∃ y, (b.after call).fills? c = some y ∧ x ≤ y := by
  have hne : c ≠ parentId := fun heq => h.other (heq ▸ hc)
  cases call with
  | addOrder entry now =>
      -- A refused entry changes nothing; a new child has another id.
      cases hok : (b.addOrder entry now).ok with
      | false => exact ⟨x, by rw [OrderBook.after, addOrder_of_not_ok hok, hx], le_refl x⟩
      | true =>
          have hfresh := (hspares.adds entry now rfl hok).1
          have hother : c ≠ entry.request.internalOrderId := by
            rintro rfl
            exact hfresh hc
          refine ⟨x, ?_, le_refl x⟩
          rw [OrderBook.after, fills?, findOrder_addOrder_of_ne hother
            (fun _ heq => absurd (heq.trans hon.2.2) hne)]
          exact hx
  | updateState orderId state now =>
      exact ⟨x, (fills?_updateState hon hne state now).trans hx, le_refl x⟩
  | updateTrade orderId vol px val fee now =>
      have hafter := fills?_updateTrade hon hne vol px val fee now
      -- Its own fill is added, within its volume.
      by_cases heq : c = orderId
      · subst heq
        rw [fills?, Option.map_eq_some_iff] at hx
        obtain ⟨e, he, rfl⟩ := hx
        rw [if_pos rfl, he, Option.map_some] at hafter
        exact ⟨_, hafter, fills_le_withTrade
          (hwithin c vol px val fee now rfl e he) vol px val fee now⟩
      · rw [if_neg heq] at hafter
        exact ⟨x, hafter.trans hx, le_refl x⟩
  -- Another order leaves the book.
  | archiveOrder orderId =>
      refine ⟨x, ?_, le_refl x⟩
      rw [OrderBook.after, fills?, findOrder_archiveOrder, if_neg fun heq =>
        hkept (congrArg Call.archiveOrder heq.symm)]
      exact hx
  | markManagedParent id => exact hon.elim
  | syncManagedParentView id view state now => exact hon.elim
  | clear => exact hon.elim

/-- A call on a child that spares the family does not lower its sum. -/
theorem Family.Lists.total_le (h : f.Lists b parentId) (hspares : Spares b f parentId call)
    (hwithin : b.FillsWithin call) (hon : b.OnChild parentId call) :
    f.total b ≤ (f.after b parentId call).total (b.after call) := by
  have hmembers : ∀ c ∈ f.live, call ≠ .archiveOrder c → ∀ x, b.fills? c = some x →
      ∃ y, (b.after call).fills? c = some y ∧ x ≤ y :=
    fun c hc hkept x hx => h.fills?_after hspares hwithin hon (h.live_subset hc) hkept hx
  have hlive : ∀ ids : List InternalOrderId, ids ⊆ f.live → (∀ c ∈ ids, call ≠ .archiveOrder c) →
      (ids.filterMap b.fills?).sum ≤ (ids.filterMap (b.after call).fills?).sum :=
    fun ids hsub hkept => sum_filterMap_le fun c hc => hmembers c (hsub hc) (hkept c hc)
  -- only the archived order leaves the list of the live ones
  have hstay : (∀ c, call ≠ .archiveOrder c) → (f.after b parentId call).archived = f.archived →
      f.live <+: (f.after b parentId call).live →
        f.total b ≤ (f.after b parentId call).total (b.after call) := by
    rintro hkept harchived ⟨more, hmore⟩
    rw [Family.total, Family.total, harchived, ← hmore, List.filterMap_append, List.sum_append]
    exact Fills.add_le_add (le_refl _)
      ((hlive f.live (List.Subset.refl _) fun c _ => hkept c).trans (Fills.le_add _ _))
  cases call with
  | addOrder entry now =>
      refine hstay (by simp) ?_ ?_
      · rw [Family.after]
        split <;> rfl
      · rw [Family.after]
        split
        · exact List.prefix_append _ _
        · exact List.prefix_refl _
  | updateState orderId state now => exact hstay (by simp) rfl (List.prefix_refl _)
  | updateTrade orderId vol px val fee now => exact hstay (by simp) rfl (List.prefix_refl _)
  | archiveOrder orderId =>
      by_cases hmem : orderId ∈ f.live
      · -- Its fills move from the list of the live orders to that of the archived ones.
        have hrest : ∀ c ∈ f.live.erase orderId, Call.archiveOrder orderId ≠ .archiveOrder c := by
          intro c hc heq
          rw [h.live_nodup.mem_erase_iff] at hc
          exact hc.1 (Call.archiveOrder.inj heq).symm
        rw [Family.after, if_pos hmem, Family.total, Family.total, sum_filterMap_erase hmem,
          List.sum_append, add_assoc, ← fills?]
        exact Fills.add_le_add (le_refl _)
          (Fills.add_le_add (le_refl _) (hlive _ List.erase_subset hrest))
      · rw [Family.after, if_neg hmem, Family.total, Family.total]
        refine Fills.add_le_add (le_refl _) (hlive f.live (List.Subset.refl _) fun c hc heq => ?_)
        exact hmem (Call.archiveOrder.inj heq ▸ hc)
  | markManagedParent id => exact hon.elim
  | syncManagedParentView id view state now => exact hon.elim
  | clear => exact hon.elim

end Steps

/-! ## Runs -/

/-- The last call of the run changed a child of the parent, which is live and unmanaged. -/
def Reports (parentId : InternalOrderId) (calls : List Call) (parent : OrderEntry) : Prop :=
  ∃ earlier call, calls = earlier ++ [call] ∧ (afterCalls earlier).ChangesChild parentId call ∧
    (afterCalls calls).isManagedParent parentId = false ∧
      (afterCalls calls).findOrder parentId = some parent

theorem fills_of_reports (h : Spared parentId calls) {parent : OrderEntry}
    (hreports : Reports parentId calls parent) :
    parent.fills = (family parentId calls).total (afterCalls calls) := by
  obtain ⟨earlier, call, rfl, hchange, hunmanaged, hparent⟩ := hreports
  obtain ⟨hbefore, hspares⟩ := spared_append_iff.1 h
  rw [afterCalls_append] at hunmanaged hparent
  have hopen : (afterCalls earlier).isManagedParent parentId = false := by
    rw [isManagedParent, decide_eq_false_iff_not] at hunmanaged ⊢
    exact fun hmem =>
      hunmanaged (managed_after hmem (hchange.keeps parentId).1 (hchange.keeps parentId).2)
  rw [afterCalls_append, family_append]
  exact (lists_afterCalls hbefore).fills_parent (tidy_afterCalls earlier) hspares
    hchange hopen hparent

theorem total_le_of_onChild {earlier later : List Call} (h : Spared parentId (earlier ++ later))
    (hon : ∀ pre call post, later = pre ++ call :: post →
      (afterCalls (earlier ++ pre)).OnChild parentId call ∧
        (afterCalls (earlier ++ pre)).FillsWithin call) :
    (family parentId earlier).total (afterCalls earlier) ≤
      (family parentId (earlier ++ later)).total (afterCalls (earlier ++ later)) := by
  induction later using List.reverseRecOn with
  | nil =>
      rw [List.append_nil]
  | append_singleton later call ih =>
      rw [← List.append_assoc] at h ⊢
      obtain ⟨hbefore, hspares⟩ := spared_append_iff.1 h
      obtain ⟨hchild, hwithin⟩ := hon later call [] rfl
      have hstep := (lists_afterCalls hbefore).total_le hspares hwithin hchild
      rw [family_append, afterCalls_append]
      refine (ih hbefore fun pre c post heq => hon pre c (post ++ [call]) ?_).trans hstep
      rw [heq, List.append_assoc, List.cons_append]

end OrderBook

open OrderBook in
/-- In a run that spares the family of an unmanaged parent, the parent shows the fills of all its
new children after every change of a child, and calls on its children do not lower them while the
fills find children within their volume. -/
theorem parent_fills (parentId : InternalOrderId) (calls : List Call)
    (hspared : Spared parentId calls) : (∀ parent, Reports parentId calls parent →
      parent.fills = (family parentId calls).total (afterCalls calls)) ∧
    ∀ earlier later before parent, calls = earlier ++ later →
      (∀ pre call post, later = pre ++ call :: post →
        (afterCalls (earlier ++ pre)).OnChild parentId call ∧
          (afterCalls (earlier ++ pre)).FillsWithin call) →
      Reports parentId earlier before → Reports parentId calls parent →
        before.fills ≤ parent.fills := by
  refine ⟨fun parent hreports => fills_of_reports hspared hreports, ?_⟩
  rintro earlier later before parent rfl hon hbefore hafter
  have hprefix : Spared parentId earlier := by
    intro pre call post heq
    exact hspared pre call (post ++ later) (by rw [heq, List.append_assoc, List.cons_append])
  rw [fills_of_reports hprefix hbefore, fills_of_reports hspared hafter]
  exact total_le_of_onChild hspared hon

namespace OrderBook

/-- A parent with two children, the first of which is filled. -/
def firstFilled : List Call :=
  [.addOrder splitParent 1] ++ [.addOrder (splitChild 2 .brokerAccepted) 2] ++
    [.addOrder (splitChild 3 .brokerAccepted) 3] ++ [.updateTrade 2 5 10 50 1 4]

/-- The second one is filled too. -/
def bothFilled : List Call := firstFilled ++ [.updateTrade 3 5 11 55 2 5]

theorem spares_addOrder {b : OrderBook} {f : Family} {parentId : InternalOrderId}
    {entry : OrderEntry} {now : TimestampNs}
    (hnew : entry.request.internalOrderId ∉ b.getChildren parentId)
    (hself : ¬ (entry.isSplitChild = true ∧ entry.parentOrderId = parentId ∧
      entry.request.internalOrderId = parentId))
    (hsome : ¬ (b.ChangesChild parentId (.addOrder entry now) ∧
      (f.after b parentId (.addOrder entry now)).live = [])) :
    Spares b f parentId (.addOrder entry now) where
  archives _ hcall := Call.noConfusion hcall
  adds := by
    rintro entry' now' hcall -
    obtain ⟨rfl, rfl⟩ := Call.addOrder.inj hcall
    exact ⟨hnew, hself⟩
  changes hchange hnone := absurd ⟨hchange, hnone⟩ hsome

theorem spares_updateTrade {b : OrderBook} {f : Family} {parentId orderId : InternalOrderId}
    {vol : Volume} {px : DPrice} {val fee : DValue} {now : TimestampNs} (hsome : f.live ≠ []) :
    Spares b f parentId (.updateTrade orderId vol px val fee now) where
  archives _ hcall := Call.noConfusion hcall
  adds _ _ hcall := Call.noConfusion hcall
  changes _ hnone := absurd hnone hsome

theorem spared_bothFilled : Spared 1 bothFilled := by
  have hempty : Spared 1 [] := fun earlier call later heq => absurd heq (by simp)
  refine spared_append_iff.2 ⟨spared_append_iff.2 ⟨spared_append_iff.2 ⟨spared_append_iff.2
    ⟨(@spared_append_iff 1 [] _).2 ⟨hempty, ?_⟩, ?_⟩, ?_⟩, ?_⟩, ?_⟩
  · exact spares_addOrder (by decide) (by decide) (fun h => absurd h.1.2.1 (by decide))
  · exact spares_addOrder (by decide) (by decide) (fun h => absurd h.2 (by decide))
  · exact spares_addOrder (by decide) (by decide) (fun h => absurd h.2 (by decide))
  · exact spares_updateTrade (by decide)
  · exact spares_updateTrade (by decide)

end OrderBook

open OrderBook in
/-- The parent shows the fills of both children, and no less than before the second fill. -/
theorem parent_fills_bothFilled :
    ∃ before parent, Reports 1 firstFilled before ∧ Reports 1 bothFilled parent ∧
      parent.fills = (family 1 bothFilled).total (afterCalls bothFilled) ∧
      before.fills ≤ parent.fills ∧ before.fills = ⟨5, 50, 1⟩ ∧ parent.fills = ⟨10, 105, 3⟩ := by
  obtain ⟨before, hbefore⟩ : ∃ before, (afterCalls firstFilled).findOrder 1 = some before :=
    ⟨_, rfl⟩
  obtain ⟨parent, hparent⟩ : ∃ parent, (afterCalls bothFilled).findOrder 1 = some parent :=
    ⟨_, rfl⟩
  have hfirst : Reports 1 firstFilled before :=
    ⟨_, .updateTrade 2 5 10 50 1 4, rfl, ⟨by decide, by decide⟩, by decide, hbefore⟩
  have hboth : Reports 1 bothFilled parent :=
    ⟨_, .updateTrade 3 5 11 55 2 5, rfl, ⟨by decide, by decide⟩, by decide, hparent⟩
  obtain ⟨htotal, hmono⟩ := parent_fills 1 bothFilled spared_bothFilled
  -- The second fill is the only call behind the first report: it is on a child that has traded
  -- nothing yet.
  have hlast : ∀ pre call post, [Call.updateTrade 3 5 11 55 2 5] = pre ++ call :: post →
      (afterCalls (firstFilled ++ pre)).OnChild 1 call ∧
        (afterCalls (firstFilled ++ pre)).FillsWithin call := by
    intro pre call post heq
    cases pre with
    | nil =>
        obtain ⟨rfl, -⟩ := List.cons.inj heq
        have hchild : (afterCalls firstFilled).childToParent.lookup 3 = some 1 := by decide
        have hwithin : ((afterCalls firstFilled).findOrder 3).all
            (fun e => e.request.volumeTraded ≤ e.request.volumeEntrust) = true := by decide
        rw [List.append_nil]
        refine ⟨hchild, ?_⟩
        intro orderId vol px val fee now hcall e he _
        obtain ⟨rfl, -⟩ := Call.updateTrade.inj hcall
        rw [he] at hwithin
        exact of_decide_eq_true hwithin
    | cons first rest => exact absurd heq (by simp)
  refine ⟨before, parent, hfirst, hboth, htotal parent hboth,
    hmono firstFilled _ before parent rfl hlast hfirst hboth, ?_, ?_⟩
  · exact Option.some.inj ((congrArg (Option.map OrderEntry.fills) hbefore).symm.trans (by decide))
  · exact Option.some.inj ((congrArg (Option.map OrderEntry.fills) hparent).symm.trans (by decide))

open OrderBook in
/-- Of two children the first is filled and archived: its fills are gone when the second one
changes. -/
theorem parent_fills_forgotten :
    ¬ ∀ (parentId : InternalOrderId) (calls : List Call) (parent : OrderEntry),
      Reports parentId calls parent →
      parent.fills = (family parentId calls).total (afterCalls calls) := by
  intro h
  have hfills := h 1
    ([.addOrder splitParent 1, .addOrder (splitChild 2 .brokerAccepted) 2,
      .addOrder (splitChild 3 .brokerAccepted) 3,
      .updateTrade 2 5 10 50 1 4, .archiveOrder 2] ++ [.updateState 3 .marketAccepted 5]) _
    ⟨_, .updateState 3 .marketAccepted 5, rfl, ⟨rfl, rfl⟩, rfl, rfl⟩
  exact absurd (congrArg Fills.volume hfills) (by decide)

end AccountServices
