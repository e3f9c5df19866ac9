import AccountServices.Shm.PoolAccesses

/-!
# The order pool is linearizable

What each process knows while it is in a call on the pool of `Shm.PoolAccesses`, and why the
accesses of the other processes leave it true. A slot is taken by the compare-and-swap that
succeeds, a write takes effect when it makes the sequence number even again, and a read when it has
seen the same even number twice.
-/

set_option autoImplicit false

namespace AccountServices

open Foundation

namespace PoolMemory

variable {ι κ : Type} {β : κ → Type} [DecidableEq ι] [DecidableEq κ]

/-- What the proof carries beside the memory: the writer of each slot, the number of writes of each
slot, and its sequence number without the wrap. -/
structure Ghost (ι : Type) where
  writers : ι → Option OrderIndex
  writes : OrderIndex → Nat
  counts : OrderIndex → Nat

/-- The invariant of the memory: it holds the pool `shm`, up to the slots that are being written. -/
structure Holds (layout : OrderRequest ≃ ∀ i, β i) (base : OrderIndex → Nat)
    (h : List (Occurrence ι PoolCall PoolAnswer)) (m : PoolMemory β) (shm : OrdersShm)
    (g : Ghost ι) : Prop where
  writers : g.writers = writersIn h
  writes : g.writes = writesIn h
  alone : ∀ i j index, g.writers i = some index → g.writers j = some index → i = j
  few : ∀ index, g.writes index < 2 ^ 63
  capacity : m.capacity = shm.capacity
  nextIndex : m.nextIndex = shm.nextIndex
  slots : ∀ index, SeqCell.Sound (base index) (g.writes index) (∃ i, g.writers i = some index)
    (m.slots index) ((shm.slots index).words layout) (g.counts index)

/-- What a thread knows in a call, and whether the call has taken effect. -/
inductive Knows (layout : OrderRequest ≃ ∀ i, β i) (base : OrderIndex → Nat)
    (i : ι) (m : PoolMemory β)
    (shm : OrdersShm) (g : Ghost ι) : Option (PoolPlace β × (PoolCall ⊕ PoolAnswer)) → Prop
  | idle (hwriter : g.writers i = none) : Knows layout base i m shm g none
  | allocate (hwriter : g.writers i = none) :
      Knows layout base i m shm g (some (.allocate, .inl .tryAllocate))
  | allocateFrom {current : OrderIndex} (hwriter : g.writers i = none)
      (hroom : current < m.capacity) :
      Knows layout base i m shm g (some (.allocateFrom current, .inl .tryAllocate))
  | full {current : OrderIndex} (hwriter : g.writers i = none) (hfull : m.capacity ≤ current) :
      Knows layout base i m shm g (some (.allocateFrom current, .inr (.allocated none)))
  | checkWrite {index : OrderIndex} {stores : List (Σ w : SlotWord κ, SlotWord.Value β w)}
      {w : SlotWrite} (hwriter : g.writers i = some index)
      (hwrites : SeqCell.Writes (base index) (g.writes index) (m.slots index)
        ((shm.slots index).words layout)
        (g.counts index) ((w.apply (shm.slots index)).words layout) (.write stores)) :
      Knows layout base i m shm g (some (.checkWrite index stores, .inl (.mutateSlot index w)))
  | writing {index : OrderIndex} {l : SeqCell.Step (SlotWord.Value β)} {w : SlotWrite}
      (hwriter : g.writers i = some index) (hexists : shm.indexExists index = true)
      (hwrites : SeqCell.Writes (base index) (g.writes index) (m.slots index)
        ((shm.slots index).words layout)
        (g.counts index) ((w.apply (shm.slots index)).words layout) l) :
      Knows layout base i m shm g (some (.atSlot index l, .inl (.mutateSlot index w)))
  | checkRead {index : OrderIndex} (hwriter : g.writers i = none) :
      Knows layout base i m shm g (some (.checkRead index, .inl (.readSnapshot index)))
  | reading {index : OrderIndex} {l : SeqCell.Step (SlotWord.Value β)}
      (hwriter : g.writers i = none)
      (hexists : shm.indexExists index = true)
      (hreads : SeqCell.Reads (base index) (m.slots index) (g.counts index) l) :
      Knows layout base i m shm g (some (.atSlot index l, .inl (.readSnapshot index)))

/-- What a step of thread `i` leaves to the others: slots that exist still do, a slot moves as a
sequence lock may, and a slot that another thread is writing does not move. -/
structure Leaves (i : ι) (m : PoolMemory β) (shm : OrdersShm) (g : Ghost ι)
    (m' : PoolMemory β) (shm' : OrdersShm) (g' : Ghost ι) : Prop where
  capacity : m'.capacity = m.capacity
  indexExists : ∀ index, shm.indexExists index = true → shm'.indexExists index = true
  writers : ∀ j, j ≠ i → g'.writers j = g.writers j
  moves : ∀ index, SeqCell.Moves (m.slots index) (g.counts index) (m'.slots index) (g'.counts index)
  written : ∀ j index, j ≠ i → g.writers j = some index → m'.slots index = m.slots index ∧
    shm'.slots index = shm.slots index ∧ g'.counts index = g.counts index ∧
      g'.writes index = g.writes index

variable {layout : OrderRequest ≃ ∀ i, β i} {order : List κ} {base : OrderIndex → Nat} {i : ι}
  {h : List (Occurrence ι PoolCall PoolAnswer)} {m m' : PoolMemory β}
    {shm shm' : OrdersShm} {g g' : Ghost ι}

omit [DecidableEq ι] [DecidableEq κ] in
theorem Leaves.same (i : ι) (m : PoolMemory β) (shm : OrdersShm) (g : Ghost ι) :
    Leaves i m shm g m shm g :=
  ⟨rfl, fun _ h => h, fun _ _ => rfl, fun _ => SeqCell.Moves.refl _ _, fun _ _ _ _ =>
    ⟨rfl, rfl, rfl, rfl⟩⟩

omit [DecidableEq ι] in
/-- The others keep what they know. -/
theorem Leaves.knows (hl : Leaves i m shm g m' shm' g') (j : ι)
    (v : Option (PoolPlace β × (PoolCall ⊕ PoolAnswer))) (hj : j ≠ i)
    (hk : Knows layout base j m shm g v) :
    Knows layout base j m' shm' g' v := by
  have hw := hl.writers j hj
  cases hk with
  | idle hwriter => exact .idle (hw.trans hwriter)
  | allocate hwriter => exact .allocate (hw.trans hwriter)
  | allocateFrom hwriter hroom => exact .allocateFrom (hw.trans hwriter) (hl.capacity ▸ hroom)
  | full hwriter hfull => exact .full (hw.trans hwriter) (hl.capacity ▸ hfull)
  | checkWrite hwriter hwrites =>
      obtain ⟨hcell, hslot, hcount, hn⟩ := hl.written j _ hj hwriter
      exact .checkWrite (hw.trans hwriter) (by rwa [hcell, hslot, hcount, hn])
  | writing hwriter hexists hwrites =>
      obtain ⟨hcell, hslot, hcount, hn⟩ := hl.written j _ hj hwriter
      exact .writing (hw.trans hwriter) (hl.indexExists _ hexists)
        (by rwa [hcell, hslot, hcount, hn])
  | checkRead hwriter => exact .checkRead (hw.trans hwriter)
  | reading hwriter hexists hreads =>
      exact .reading (hw.trans hwriter) (hl.indexExists _ hexists) (hreads.moves (hl.moves _))

/-! ## Calls -/

omit [DecidableEq κ] in
theorem Holds.indexExists (hh : Holds layout base h m shm g) (index : OrderIndex) :
    m.indexExists index = shm.indexExists index := by
  rw [PoolMemory.indexExists, OrdersShm.indexExists, hh.nextIndex, hh.capacity]

omit [DecidableEq κ] in
/-- A call that does not write. -/
theorem Holds.call (hh : Holds layout base h m shm g) {c : PoolCall}
    (hc : ∀ index w, c ≠ .mutateSlot index w) : Holds layout base (h ++ [.call i c]) m shm g := by
  have hwriters : writersIn (h ++ [.call i c]) = writersIn h := by
    rw [writersIn, List.foldl_append]
    cases c with
    | mutateSlot index w => exact absurd rfl (hc index w)
    | tryAllocate => rfl
    | readSnapshot index => rfl
  have hwrites : writesIn (h ++ [.call i c]) = writesIn h := by
    funext index
    rw [writesIn, List.countP_append]
    cases c with
    | mutateSlot index w => exact absurd rfl (hc index w)
    | tryAllocate => rfl
    | readSnapshot index => rfl
  exact { hh with writers := hh.writers.trans hwriters.symm, writes :=
    hh.writes.trans hwrites.symm }

/-- A call that writes: the thread is now the writer of the slot. -/
theorem Holds.callWrite (hh : Holds layout base h m shm g) (horder : ∀ k, k ∈ order)
    {index : OrderIndex}
    {w : SlotWrite} (hidle : g.writers i = none) (hmay : mayCallPool ι h i (.mutateSlot index w)) :
    ∃ g', Holds layout base (h ++ [.call i (.mutateSlot index w)]) m shm g' ∧
      Knows layout base i m shm g'
        (some (.checkWrite index (w.stores layout order), .inl (.mutateSlot index w))) ∧
      Leaves i m shm g m shm g' := by
  obtain ⟨hfree, hfew⟩ := hmay
  -- Nobody else writes to the slot, so that this call is its only writer from now on.
  have hquiet : ¬∃ j, g.writers j = some index := fun ⟨j, hj⟩ => hfree j (hh.writers ▸ hj)
  obtain ⟨hsound, hwrites⟩ := (hh.slots index).begin hquiet (w.stores layout order)
  rw [w.putWords_stores horder] at hwrites
  have hne : ∀ j index', j ≠ i → g.writers j = some index' →
      index' ≠ index := fun j index' _ hj heq =>
    hquiet ⟨j, heq ▸ hj⟩
  refine ⟨⟨Function.update g.writers i (some index), Function.update g.writes index
    -- The slot gets its writer, and one more write is counted for it.
    (g.writes index + 1), g.counts⟩,
    ⟨?_, ?_, ?_, ?_, hh.capacity, hh.nextIndex, ?_⟩, .checkWrite (Function.update_self _ _ _) ?_,
    ⟨rfl, fun _ he => he, fun j hj => Function.update_of_ne hj _ _, fun _ => SeqCell.Moves.refl _ _,
      fun j index' hj hw => ⟨rfl, rfl, rfl, Function.update_of_ne (hne j index' hj hw) _ _⟩⟩⟩
  -- the writers that the history has
  · rw [writersIn, List.foldl_append, hh.writers]
    rfl
  -- the writes that the history has
  · funext index'
    simp only [writesIn, List.countP_append, List.countP_cons, List.countP_nil, hh.writes]
    by_cases heq : index' = index
    · subst heq
      simp
    · rw [Function.update_of_ne heq]
      simp [writesIn, Ne.symm heq]
  -- one writer a slot
  · intro j j' index' hj hj'
    simp only [Function.update_apply] at hj hj'
    split at hj
    next hji =>
      split at hj'
      next hji' => exact hji.trans hji'.symm
      next => exact absurd ⟨j', Option.some.inj hj ▸ hj'⟩ hquiet
    next =>
      split at hj'
      next => exact absurd ⟨j, Option.some.inj hj' ▸ hj⟩ hquiet
      next => exact hh.alone j j' index' hj hj'
  -- fewer writes than the sequence numbers allow
  · intro index'
    by_cases heq : index' = index
    · subst heq
      simp only [Function.update_self]
      rw [hh.writes]
      exact hfew
    · simp only [Function.update_of_ne heq]
      exact hh.few index'
  -- every slot is sound for the writers that it now has
  · intro index'
    by_cases heq : index' = index
    · subst heq
      have hbusy : (∃ j, Function.update g.writers i (some index') j = some index') ↔ True :=
        iff_true_intro ⟨i, Function.update_self _ _ _⟩
      simp only [Function.update_self, hbusy]
      exact hsound
    · have hbusy : (∃ j, Function.update g.writers i (some index) j = some index') ↔
          ∃ j, g.writers j = some index' := by
        refine exists_congr fun j => ?_
        by_cases hj : j = i
        · subst hj
          rw [Function.update_self, hidle, Option.some.injEq]
          exact ⟨fun h' => absurd h'.symm heq, fun h' => absurd h' (by simp)⟩
        · rw [Function.update_of_ne hj]
      simp only [Function.update_of_ne heq, hbusy]
      exact hh.slots index'
  · simp only [Function.update_self]
    exact hwrites

/-! ## Accesses -/

/-- The counter is loaded: a pool that is full is found full now. -/
theorem Holds.loadsNext (hh : Holds layout base h m shm g) (hwriter : g.writers i = none) :
    ∃ st, Machine.Takes poolSpec shm (.inl .tryAllocate) shm st ∧
      Knows layout base i m shm g (some (.allocateFrom m.nextIndex, st)) := by
  by_cases hroom : m.nextIndex < m.capacity
  · exact ⟨_, .nothing _ _, .allocateFrom hwriter hroom⟩
  · have hnone : shm.tryAllocate = (none, shm) := by
      rw [OrdersShm.tryAllocate, dif_neg (hh.nextIndex ▸ hh.capacity ▸ hroom)]
    exact ⟨.inr (.allocated none), .effect hnone, .full hwriter (UInt32.not_lt.1 hroom)⟩

omit [DecidableEq κ] in
theorem setSlot_self (m : PoolMemory β) (index : OrderIndex) :
    m.setSlot index (m.slots index) = m := by
  rw [setSlot, Function.update_eq_self]

/-- An access that moves a call on. -/
theorem Holds.access (hh : Holds layout base h m shm g) {l l' : PoolPlace β}
    {st : PoolCall ⊕ PoolAnswer}
    (hk : Knows layout base i m shm g (some (l, st))) (haccess : Access layout l m (.inl l') m') :
    ∃ st' g', Machine.Takes poolSpec shm st shm st' ∧ Holds layout base h m' shm g' ∧
      Knows layout base i m' shm g' (some (l', st')) ∧ Leaves i m shm g m' shm g' := by
  cases haccess with
  -- The bound of the allocator is read; a read that finds it at the capacity settles the call.
  | loadsNext =>
      cases hk with
      | allocate hwriter =>
          obtain ⟨st', htakes, hk'⟩ := hh.loadsNext hwriter
          exact ⟨st', g, htakes, hh, hk', Leaves.same i m shm g⟩
  -- The exchange failed and loaded the bound again.
  | retries hroom =>
      cases hk with
      | allocateFrom hwriter =>
          obtain ⟨st', htakes, hk'⟩ := hh.loadsNext hwriter
          exact ⟨st', g, htakes, hh, hk', Leaves.same i m shm g⟩
      | full hwriter hfull => exact absurd hroom (UInt32.not_lt.2 hfull)
  -- The bound of the allocator never falls, so the slot exists from here on.
  | entersWrite hexists =>
      cases hk with
      | checkWrite hwriter hwrites =>
          exact ⟨_, g, .nothing _ _, hh, .writing hwriter (hh.indexExists _ ▸ hexists) hwrites,
            Leaves.same i m shm g⟩
  -- The same for a reader.
  | entersRead hexists =>
      cases hk with
      | checkRead hwriter =>
          exact ⟨_, g, .nothing _ _, hh, .reading hwriter (hh.indexExists _ ▸ hexists)
            (.reading 32), Leaves.same i m shm g⟩
  -- An access to the slot: a reader leaves the cell as it is, a writer moves it by one store.
  | @moves index l l' _ cell hmoves =>
      cases hk with
      | reading hwriter hexists hreads =>
          obtain ⟨rfl, hreads'⟩ := hreads.step (hh.slots index) hmoves
          rw [setSlot_self]
          exact ⟨_, g, .nothing _ _, hh, .reading hwriter hexists hreads', Leaves.same i m shm g⟩
      | @writing _ _ w hwriter hexists hwrites =>
          have hbusy : ∀ index', index' = index →
              ((∃ j, g.writers j = some index') ↔ True) := fun index' heq =>
            iff_true_intro ⟨i, heq ▸ hwriter⟩
          have hsound := hh.slots index
          rw [hbusy index rfl] at hsound
          obtain ⟨count, hsound', hwrites', hcell⟩ := hwrites.step hsound hmoves
          refine ⟨.inl (.mutateSlot index w),
            ⟨g.writers, g.writes, Function.update g.counts index count⟩, .nothing _ _,
            ⟨hh.writers, hh.writes, hh.alone, hh.few, hh.capacity, hh.nextIndex, fun index' => ?_⟩,
            .writing hwriter hexists ?_,
              ⟨rfl, fun _ he => he, fun _ _ => rfl, fun index' => ?_, fun j index' hj hw => ?_⟩⟩
          -- the other slots keep their cells
          · by_cases heq : index' = index
            · subst heq
              simp only [setSlot, Function.update_self, hbusy index' rfl]
              exact hsound'
            · simp only [setSlot, Function.update_of_ne heq]
              exact hh.slots index'
          · simp only [setSlot, Function.update_self]
            exact hwrites'
          · by_cases heq : index' = index
            · subst heq
              simp only [setSlot, Function.update_self]
              exact hcell
            · simp only [setSlot, Function.update_of_ne heq]
              exact SeqCell.Moves.refl _ _
          -- a slot with another writer is another slot
          · have hne : index' ≠ index := fun heq => hj (hh.alone j i index' hw (heq ▸ hwriter))
            simp only [setSlot, Function.update_of_ne hne, and_self]

omit [DecidableEq κ] in
/-- A call answers: the thread is no longer the writer of a slot. -/
theorem Holds.released (hh : Holds layout base h m shm g) {a : PoolAnswer}
    (counts : OrderIndex → Nat)
    (hcapacity : m'.capacity = shm'.capacity) (hnext : m'.nextIndex = shm'.nextIndex)
    (hslots : ∀ index, SeqCell.Sound (base index) (g.writes index)
      (∃ j, Function.update g.writers i none j = some index) (m'.slots index)
        ((shm'.slots index).words layout)
      (counts index)) :
    Holds layout base (h ++ [.answer i a]) m' shm'
      ⟨Function.update g.writers i none, g.writes, counts⟩ := by
  refine ⟨?_, ?_, fun j j' index hj hj' => ?_, hh.few, hcapacity, hnext, hslots⟩
  · rw [writersIn, List.foldl_append, hh.writers]
    rfl
  · rw [hh.writes]
    funext index
    simp [writesIn, List.countP_append]
  · have hne : ∀ k, Function.update g.writers i none k = some index → g.writers k = some index := by
      intro k hk
      by_cases hki : k = i
      · subst hki
        rw [Function.update_self] at hk
        exact absurd hk (by simp)
      · rwa [Function.update_of_ne hki] at hk
    exact hh.alone j j' index (hne j hj) (hne j' hj')

omit [DecidableEq κ] in
/-- A call that was not a write answers, and the slots have not moved. -/
theorem Holds.answered (hh : Holds layout base h m shm g) {a : PoolAnswer}
    (hwriter : g.writers i = none)
    (hcapacity : m'.capacity = shm'.capacity) (hnext : m'.nextIndex = shm'.nextIndex)
    (hcells : m'.slots = m.slots) (hslots : shm'.slots = shm.slots) :
    Holds layout base (h ++ [.answer i a]) m' shm' g := by
  have hsame : Function.update g.writers i none = g.writers := by
    rw [← hwriter, Function.update_eq_self]
  have hreleased := hh.released (i := i) (a := a) g.counts hcapacity hnext fun index => by
    rw [hcells, hslots, hsame]
    exact hh.slots index
  rwa [hsame] at hreleased

omit [DecidableEq κ] in
/-- A slot is taken from the counter. -/
theorem Holds.takes (hh : Holds layout base h m shm g) (hwriter : g.writers i = none)
    (hroom : m.nextIndex < m.capacity) :
    ∃ shm', shm.tryAllocate = (some m.nextIndex, shm') ∧
      Holds layout base (h ++ [.answer i (.allocated (some m.nextIndex))])
        { m with nextIndex := m.nextIndex + 1 } shm' g ∧
      Leaves i m shm g { m with nextIndex := m.nextIndex + 1 } shm' g := by
  have hroom' : shm.nextIndex < shm.capacity := hh.nextIndex ▸ hh.capacity ▸ hroom
  refine ⟨(shm.tryAllocate).2, ?_, hh.answered hwriter ?_ ?_ rfl ?_,
    ⟨rfl, fun index he => ?_, fun _ _ => rfl,
    fun _ => SeqCell.Moves.refl _ _, fun j index _ _ => ⟨rfl, ?_, rfl, rfl⟩⟩⟩
  · rw [OrdersShm.tryAllocate, dif_pos hroom', hh.nextIndex]
  · rw [OrdersShm.tryAllocate, dif_pos hroom']
    exact hh.capacity
  · rw [OrdersShm.tryAllocate, dif_pos hroom', hh.nextIndex]
  · rw [OrdersShm.tryAllocate, dif_pos hroom']
  · rw [OrdersShm.indexExists, decide_eq_true_eq] at he ⊢
    obtain ⟨hvalid, hlt, hcap⟩ := he
    rw [OrdersShm.tryAllocate, dif_pos hroom']
    refine ⟨hvalid, ?_, hcap⟩
    have hn := UInt32.lt_iff_toNat_lt.1 hroom'
    have hi := UInt32.lt_iff_toNat_lt.1 hlt
    have hc := shm.capacity.toNat_lt
    rw [UInt32.lt_iff_toNat_lt, UInt32.toNat_add]
    simp only [UInt32.reduceToNat]
    omega
  · rw [OrdersShm.tryAllocate, dif_pos hroom']

omit [DecidableEq κ] in
/-- A write ends, having taken effect or having been refused. -/
theorem Holds.written (hh : Holds layout base h m shm g) (shm' : OrdersShm) {a : PoolAnswer}
    {index : OrderIndex} {cell : SeqCell (SlotWord.Value β)} {slot : OrderSlot} {count : Nat}
    (hwriter : g.writers i = some index)
    (hcapacity : shm'.capacity = shm.capacity) (hnext : shm'.nextIndex = shm.nextIndex)
    (hslots : shm'.slots = Function.update shm.slots index slot)
    (hsound : SeqCell.Sound (base index) (g.writes index) False cell (slot.words layout) count)
    (hmoves : SeqCell.Moves (m.slots index) (g.counts index) cell count) :
    ∃ g', Holds layout base (h ++ [.answer i a]) (m.setSlot index cell) shm' g' ∧
      g'.writers i = none ∧ Leaves i m shm g (m.setSlot index cell) shm' g' := by
  have hothers : ∀ j, j ≠ i → g.writers j ≠ some index := fun j hj hw =>
    hj (hh.alone j i index hw hwriter)
  refine ⟨_, hh.released (Function.update g.counts index count) (hh.capacity.trans hcapacity.symm)
    (hh.nextIndex.trans hnext.symm) fun index' => ?_, Function.update_self _ _ _,
    ⟨rfl, fun index' he => ?_, fun j hj => Function.update_of_ne hj _ _, fun index' =>
      ?_, fun j index' hj hw => ?_⟩⟩
  -- the written slot has its new words and no writer any more, the others are as before
  · by_cases heq : index' = index
    · subst heq
      have hquiet : (∃ j, Function.update g.writers i none j = some index') ↔ False := by
        refine iff_false_intro fun ⟨j, hj⟩ => ?_
        by_cases hji : j = i
        · subst hji
          rw [Function.update_self] at hj
          exact absurd hj (by simp)
        · exact hothers j hji (by rwa [Function.update_of_ne hji] at hj)
      simp only [setSlot, hslots, Function.update_self, hquiet]
      exact hsound
    · have hbusy : (∃ j, Function.update g.writers i none j = some index') ↔
          ∃ j, g.writers j = some index' := by
        refine exists_congr fun j => ?_
        by_cases hji : j = i
        · subst hji
          rw [Function.update_self, hwriter, Option.some.injEq]
          exact ⟨fun h' => absurd h' (by simp), fun h' => absurd h'.symm heq⟩
        · rw [Function.update_of_ne hji]
      simp only [setSlot, hslots, Function.update_of_ne heq, hbusy]
      exact hh.slots index'
  -- the allocator did not move
  · rw [OrdersShm.indexExists, hcapacity, hnext]
    exact he
  -- only the written slot moved
  · by_cases heq : index' = index
    · subst heq
      simp only [setSlot, Function.update_self]
      exact hmoves
    · simp only [setSlot, Function.update_of_ne heq]
      exact SeqCell.Moves.refl _ _
  -- another writer has another slot
  · have hne : index' ≠ index := fun heq => hothers j hj (heq ▸ hw)
    simp only [setSlot, hslots, Function.update_of_ne hne, and_self]

/-- The access that ends a call. -/
theorem Holds.answer (hh : Holds layout base h m shm g) {l : PoolPlace β}
    {st : PoolCall ⊕ PoolAnswer} {a : PoolAnswer}
    (hk : Knows layout base i m shm g (some (l, st))) (haccess : Access layout l m (.inr a) m') :
    ∃ shm' g', Machine.Takes poolSpec shm st shm' (.inr a) ∧
      Holds layout base (h ++ [.answer i a]) m' shm' g' ∧
      Knows layout base i m' shm' g' none ∧ Leaves i m shm g m' shm' g' := by
  cases haccess with
  -- The call took effect where it read the bound.
  | full hfull =>
      cases hk with
      | allocateFrom hwriter hroom => exact absurd hroom (UInt32.not_lt.2 hfull)
      | full hwriter =>
          exact ⟨shm, g, .nothing _ _, hh.answered hwriter hh.capacity hh.nextIndex rfl rfl,
            .idle hwriter, ⟨rfl, fun _ he => he, fun _ _ => rfl, fun _ => SeqCell.Moves.refl _ _,
              fun _ _ _ _ => ⟨rfl, rfl, rfl, rfl⟩⟩⟩
  -- The exchange succeeds only if the bound is still the one that was read, so this is the
  -- allocation.
  | takes hroom hsame =>
      cases hk with
      | allocateFrom hwriter =>
          subst hsame
          obtain ⟨shm', htaken, hh', hleaves⟩ := hh.takes hwriter hroom
          exact ⟨shm', g, .effect htaken, hh', .idle hwriter, hleaves⟩
      | full hwriter hfull => exact absurd hroom (UInt32.not_lt.2 hfull)
  -- A write to a slot that does not exist: the writer is free again, and nothing was stored.
  | @refusesWrite index stores _ hmissing =>
      cases hk with
      | @checkWrite _ _ w hwriter hwrites =>
          have hrefused : shm.mutateSlot index w.apply = (false, shm) := by
            rw [OrdersShm.mutateSlot, ← hh.indexExists, hmissing, if_neg Bool.false_ne_true]
          have hsound : SeqCell.Sound (base index) (g.writes index) False (m.slots index)
              ((shm.slots index).words layout) (g.counts index) := by
            obtain ⟨hseq, hbase, hbound, -, heven⟩ := hh.slots index
            cases hwrites with
            | write hnow => exact ⟨hseq, hbase, hbound, fun _ => hnow, heven⟩
          obtain ⟨g', hh', hidle, hleaves⟩ := hh.written shm (a := .mutated false) hwriter rfl rfl
            (Function.update_eq_self index shm.slots).symm hsound (SeqCell.Moves.refl _ _)
          rw [setSlot_self] at hh' hleaves
          exact ⟨shm, g', .effect hrefused, hh', .idle hidle, hleaves⟩
  | @refusesRead index _ hmissing =>
      cases hk with
      | checkRead hwriter =>
          have hread : poolSpec shm (.readSnapshot index) (.snapshot none) shm := ⟨rfl, Or.inl rfl⟩
          exact ⟨shm, g, .effect hread, hh.answered hwriter hh.capacity hh.nextIndex rfl rfl,
            .idle hwriter, Leaves.same i m shm g⟩
  -- The last access to the slot: a write takes effect here, and a read answers with a state that
  -- the slot had as a whole.
  | @ends index l o _ cell hends =>
      cases hk with
      | @writing _ _ w hwriter hexists hwrites =>
          have hsound := hh.slots index
          have hbusy : (∃ j, g.writers j = some index) ↔ True := iff_true_intro ⟨i, hwriter⟩
          rw [hbusy] at hsound
          obtain ⟨rfl, count, hsound', hmoves⟩ := hwrites.done hsound hends
          have hmutated : shm.mutateSlot index w.apply =
              (true,
                { shm with
                  slots := Function.update shm.slots index (w.apply (shm.slots index)) }) := by
            rw [OrdersShm.mutateSlot, if_pos hexists]
          obtain ⟨g', hh', hidle, hleaves⟩ := hh.written
            { shm with slots := Function.update shm.slots index (w.apply (shm.slots index)) }
              (a := .mutated true)
            hwriter rfl rfl rfl hsound' hmoves
          exact ⟨_, g', .effect hmutated, hh', .idle hidle, hleaves⟩
      | reading hwriter hexists hreads =>
          obtain ⟨rfl, ho⟩ := hreads.done (hh.slots index) (hh.few index) hends
          rw [setSlot_self]
          have hread : poolSpec shm (.readSnapshot index) (PoolMemory.answer layout o) shm := by
            rcases ho with rfl | rfl
            · exact ⟨rfl, Or.inl rfl⟩
            · refine ⟨rfl, Or.inr ?_⟩
              rw [Option.map_some, OrderSlot.ofWords_words, OrdersShm.readSnapshot, if_pos hexists]
          exact ⟨shm, g, .effect hread, hh.answered hwriter hh.capacity hh.nextIndex rfl rfl,
            .idle hwriter, Leaves.same i m shm g⟩

/-! ## The outline -/

theorem outline (horder : ∀ k, k ∈ order) :
    Machine.Outline (machine layout order) (mayCallPool ι) poolSpec (Holds layout base)
      (fun i v m shm g => Knows layout base i m shm g v) where
  call := by
    intro h m shm g i c hh hk hmay
    cases hk with
    | idle hwriter =>
        cases c with
        | tryAllocate =>
            exact ⟨g, hh.call fun _ _ => by simp, .allocate hwriter, (Leaves.same i m shm g).knows⟩
        | readSnapshot index =>
            exact ⟨g, hh.call fun _ _ => by simp, .checkRead hwriter, (Leaves.same i m shm g).knows⟩
        | mutateSlot index w =>
            obtain ⟨g', hh', hk', hleaves⟩ := hh.callWrite horder hwriter hmay
            exact ⟨g', hh', hk', hleaves.knows⟩
  access := by
    intro h m shm g i l st l' m' hh hk haccess
    obtain ⟨st', g', htakes, hh', hk', hleaves⟩ := hh.access hk haccess
    exact ⟨shm, st', g', htakes, hh', hk', hleaves.knows⟩
  answer := by
    intro h m shm g i l st a m' hh hk haccess
    obtain ⟨shm', g', htakes, hh', hk', hleaves⟩ := hh.answer hk haccess
    exact ⟨shm', g', htakes, hh', hk', hleaves.knows⟩

/-- A pool that nobody uses. Its sequence numbers are whatever earlier writers have left, odd ones
included. -/
def holding (layout : OrderRequest ≃ ∀ i, β i) (shm : OrdersShm) (seqs : OrderIndex → UInt64) :
    PoolMemory β where
  capacity := shm.capacity
  nextIndex := shm.nextIndex
  fullRejectCount := 0
  slots index := ⟨seqs index, (shm.slots index).words layout⟩

omit [DecidableEq κ] in
theorem holds_holding (layout : OrderRequest ≃ ∀ i, β i) (shm : OrdersShm)
    (seqs : OrderIndex → UInt64) :
    Holds layout (fun index => (seqs index).toNat) ([] : List (Occurrence ι PoolCall PoolAnswer))
      (holding layout shm seqs) shm
      ⟨fun _ => none, fun _ => 0, fun index => (seqs index).toNat⟩ where
  writers := rfl
  writes := rfl
  alone := by simp
  few := fun _ => Nat.two_pow_pos 63
  capacity := rfl
  nextIndex := rfl
  slots := fun index =>
    ⟨UInt64.ofNat_toNat.symm, Nat.le_refl _, Nat.le_refl _, fun _ => rfl, fun _ => rfl⟩

/-- The order pool between processes does what the atomic pool does, for any number of threads and
in any order of their accesses: slots are taken from the counter by compare-and-swap, and a slot
that is written word by word is never read half written, as long as it has one writer at a time. -/
theorem pool_linearizable (layout : OrderRequest ≃ ∀ i, β i) (horder : ∀ k, k ∈ order)
    (shm : OrdersShm) (seqs : OrderIndex → UInt64) :
    (machine layout order).Linearizable (mayCallPool ι) (holding layout shm seqs) poolSpec shm :=
  (outline horder).linearizable (holds_holding layout shm seqs) fun _ => .idle rfl

/-- A pool whose requests are stored field by field, used by any number of threads. -/
theorem field_pool_linearizable :
    (∀ field, field ∈ RequestField.all) ∧
      (machine requestFields RequestField.all).Linearizable (mayCallPool Nat)
        (holding requestFields (OrdersShm.ofClients []) fun _ => 1) poolSpec
          (OrdersShm.ofClients []) :=
  ⟨RequestField.mem_all,
    pool_linearizable requestFields RequestField.mem_all (OrdersShm.ofClients []) fun _ => 1⟩

/-! ## Every slot is given once -/

section Indices

/-- The indices that the allocator has answered with, in order. -/
def indicesIn (h : List (Occurrence ι PoolCall PoolAnswer)) : List OrderIndex :=
  h.filterMap fun
    | .answer _ (.allocated out) => out
    | _ => none

/-- The indices given so far are those that the counter has passed, each of them once. -/
structure Given (first capacity : OrderIndex) (given : List OrderIndex) (m : PoolMemory β) :
    Prop where
  nodup : given.Nodup
  passed : ∀ index, index ∈ given ↔ first ≤ index ∧ index < m.nextIndex
  capacity_eq : m.capacity = capacity
  le_capacity : m.nextIndex ≤ capacity
  first_le : first ≤ m.nextIndex

variable {first capacity : OrderIndex} {given : List OrderIndex} {m m' : PoolMemory β}

omit [DecidableEq κ] in
/-- An access that leaves the counter as it is. -/
theorem Given.keeps (hg : Given first capacity given m) (hnext : m'.nextIndex = m.nextIndex)
    (hcapacity : m'.capacity = m.capacity) : Given first capacity given m' := by
  refine ⟨hg.nodup, fun index => ?_, hcapacity.trans hg.capacity_eq, ?_, ?_⟩
  · rw [hnext]
    exact hg.passed index
  · rw [hnext]
    exact hg.le_capacity
  · rw [hnext]
    exact hg.first_le

omit [DecidableEq κ] in
/-- The compare-and-swap moves the counter, and the index that it has passed is given. -/
theorem Given.takes (hg : Given first capacity given m) (hroom : m.nextIndex < m.capacity) :
    Given first capacity (given ++ [m.nextIndex]) { m with nextIndex := m.nextIndex + 1 } := by
  have hsucc : (m.nextIndex + 1).toNat = m.nextIndex.toNat + 1 := by
    have hlt := UInt32.lt_iff_toNat_lt.1 hroom
    have hc := m.capacity.toNat_lt
    rw [UInt32.toNat_add]
    simp only [UInt32.reduceToNat]
    omega
  have hfirst := UInt32.le_iff_toNat_le.1 hg.first_le
  refine ⟨?_, fun index => ?_, hg.capacity_eq, ?_, ?_⟩
  · refine List.nodup_append.2 ⟨hg.nodup, List.nodup_singleton _, fun x hx y hy heq => ?_⟩
    rw [List.mem_singleton] at hy
    subst hy
    subst heq
    exact UInt32.lt_irrefl _ ((hg.passed _).1 hx).2
  · rw [List.mem_append, List.mem_singleton, hg.passed index]
    simp only [UInt32.le_iff_toNat_le, UInt32.lt_iff_toNat_lt, ← UInt32.toNat_inj, hsucc]
    omega
  · have hlt := UInt32.lt_iff_toNat_lt.1 hroom
    rw [hg.capacity_eq] at hlt
    rw [UInt32.le_iff_toNat_le]
    show (m.nextIndex + 1).toNat ≤ capacity.toNat
    omega
  · rw [UInt32.le_iff_toNat_le]
    show first.toNat ≤ (m.nextIndex + 1).toNat
    omega

omit [DecidableEq κ] [DecidableEq ι] in
theorem indicesIn_append_none {h : List (Occurrence ι PoolCall PoolAnswer)}
    {o : Occurrence ι PoolCall PoolAnswer}
    (ho : ∀ i index, o ≠ .answer i (.allocated (some index))) :
    indicesIn (h ++ [o]) = indicesIn h := by
  cases o with
  | call i c => simp [indicesIn, List.filterMap_append]
  | answer i a =>
      cases a with
      | allocated out =>
          cases out with
          | none => simp [indicesIn, List.filterMap_append]
          | some index => exact absurd rfl (ho i index)
      | mutated ok => simp [indicesIn, List.filterMap_append]
      | snapshot out => simp [indicesIn, List.filterMap_append]

omit [DecidableEq ι] in
/-- The last access of a call. -/
theorem Given.answer {h : List (Occurrence ι PoolCall PoolAnswer)}
    {l : PoolPlace β} {a : PoolAnswer}
    (hg : Given first capacity (indicesIn h) m) (haccess : Access layout l m (.inr a) m') :
    Given first capacity (indicesIn (h ++ [.answer i a])) m' := by
  cases haccess with
  | takes hroom hsame =>
      subst hsame
      have hindices : indicesIn (h ++ [.answer i (.allocated (some m.nextIndex))]) =
          indicesIn h ++ [m.nextIndex] := by
        simp [indicesIn, List.filterMap_append]
      rw [hindices]
      exact hg.takes hroom
  | full hfull =>
      rw [indicesIn_append_none (by simp)]
      exact hg.keeps rfl rfl
  | refusesWrite hmissing =>
      rw [indicesIn_append_none (by simp)]
      exact hg
  | refusesRead hmissing =>
      rw [indicesIn_append_none (by simp)]
      exact hg
  | @ends index l o m cell hends =>
      rw [indicesIn_append_none (by cases o <;> simp [answer])]
      exact hg.keeps rfl rfl

omit [DecidableEq ι] in
theorem Given.access {l l' : PoolPlace β} (hg : Given first capacity given m)
    (haccess : Access layout l m (.inl l') m') : Given first capacity given m' := by
  cases haccess with
  | loadsNext => exact hg
  | retries hroom => exact hg
  | entersWrite hexists => exact hg
  | entersRead hexists => exact hg
  | moves hmoves => exact hg.keeps rfl rfl

/-- In every run the indices given are those that the counter has passed. -/
theorem given_of_run {MayCall : List (Occurrence ι PoolCall PoolAnswer) → ι → PoolCall → Prop}
    (hnext : m.nextIndex ≤ m.capacity) {h : List (Occurrence ι PoolCall PoolAnswer)}
    {s : Threads ι (PoolMemory β) (machine layout order).Local}
    (hrun : (machine layout order).Run MayCall m h s) :
    Given m.nextIndex m.capacity (indicesIn h) s.memory := by
  induction hrun with
  | start =>
      refine ⟨List.nodup_nil, fun index =>
        ⟨fun hmem => absurd hmem List.not_mem_nil, fun hlt => ?_⟩, rfl, hnext,
        UInt32.le_refl _⟩
      exact absurd hlt.2 (UInt32.not_lt.2 hlt.1)
  | call _ _ _ ih =>
      rw [indicesIn_append_none (fun _ _ => by simp)]
      exact ih
  | access _ _ haccess ih => exact ih.access haccess
  | answer _ _ haccess ih => exact ih.answer haccess

/-- Every slot is given once. Whatever the threads do with the slots, also where several of them
write one slot at a time: the indices that they have been answered with are all different, and they
are those that the counter has passed, which never passes the capacity. -/
theorem indices_given_once (layout : OrderRequest ≃ ∀ i, β i) (order : List κ)
    {MayCall : List (Occurrence ι PoolCall PoolAnswer) → ι → PoolCall → Prop} {m : PoolMemory β}
    (hnext : m.nextIndex ≤ m.capacity) {h : List (Occurrence ι PoolCall PoolAnswer)}
    {s : Threads ι (PoolMemory β) (PoolPlace β)} (hrun : (machine layout order).Run MayCall m h s) :
    (indicesIn h).Nodup ∧
      (∀ index, index ∈ indicesIn h ↔ m.nextIndex ≤ index ∧ index < s.memory.nextIndex) ∧
      s.memory.nextIndex ≤ m.capacity :=
  have hgiven := given_of_run hnext hrun
  ⟨hgiven.nodup, hgiven.passed, hgiven.le_capacity⟩

/-- Two clients at a pool that has four slots in use, while the service and the gateway write one
slot. Both clients have loaded the counter when the second takes slot 4, so the first has to load it
again. -/
theorem two_indices_given :
    ∃ s : Threads Nat (PoolMemory RequestField.Value) (PoolPlace RequestField.Value),
      (machine requestFields RequestField.all).Run (fun _ _ _ => True)
        (holding requestFields (OrdersShm.ofClients []) fun _ => 0)
        ([] ++ [.call 2 (.mutateSlot 0 (.updateStage .terminal 1))] ++
          [.call 3 (.mutateSlot 0 (.updateStage .downstreamQueued 2))] ++ [.call 0 .tryAllocate] ++
          [.call 1 .tryAllocate] ++ [.answer 1 (.allocated (some 4))] ++
            [.answer 0 (.allocated (some 5))]) s ∧
      (indicesIn ([] ++ [.call 2 (.mutateSlot 0 (.updateStage .terminal 1))] ++
        [.call 3 (.mutateSlot 0 (.updateStage .downstreamQueued 2))] ++ [.call 0 .tryAllocate] ++
        [.call (1 : Nat) .tryAllocate] ++ [.answer 1 (.allocated (some 4))] ++
        [.answer 0 (.allocated (some 5))])).Nodup ∧
      s.memory.nextIndex ≤ 8 := by
  have hstart : (machine requestFields RequestField.all).Run (fun _ (_ : Nat) _ => True)
      (holding requestFields (OrdersShm.ofClients []) fun _ => 0) []
      ⟨_, fun _ => none⟩ := Machine.Run.start
  have hgateway :=
    Machine.Run.call (i := 2) (c := .mutateSlot 0 (.updateStage .terminal 1)) hstart rfl trivial
  have hservice :=
    Machine.Run.call (i := 3) (c := .mutateSlot 0 (.updateStage .downstreamQueued 2)) hgateway rfl
    trivial
  have hfirst := Machine.Run.call (i := 0) (c := .tryAllocate) hservice rfl trivial
  have hloads := Machine.Run.access (i := 0) hfirst rfl (.loadsNext _)
  have hsecond := Machine.Run.call (i := 1) (c := .tryAllocate) hloads rfl trivial
  have hloads' := Machine.Run.access (i := 1) hsecond rfl (.loadsNext _)
  -- both writers are at the slot
  have hwrites := Machine.Run.access (i := 2) hloads' rfl (.entersWrite (by decide))
  have hwrites' := Machine.Run.access (i := 3) hwrites rfl (.entersWrite (by decide))
  have htakes := Machine.Run.answer (i := 1) hwrites' rfl (.takes (by decide) rfl)
  have hretries := Machine.Run.access (i := 0) htakes rfl (.retries (by decide))
  have hrun := Machine.Run.answer (i := 0) hretries rfl (.takes (by decide) rfl)
  obtain ⟨hnodup, -, hle⟩ := indices_given_once _ _ (by decide) hrun
  exact ⟨_, hrun, hnodup, hle⟩

end Indices

end PoolMemory

end AccountServices
