import Mathlib.Algebra.Ring.Nat
import Mathlib.Data.List.Basic
import Mathlib.Logic.Function.Basic

/-!
# Sequence locks

A sequence number protects a group of words that are stored and loaded one at a time. A writer makes
the number odd, stores the words and makes the number even again. A reader copies the words between
two loads of the number, and keeps the copy only when it has seen the same even number twice.

The number wraps around. What it would be without the wrap is the `count` of the assertions below: a
reader that has seen the same number twice has seen the same count twice, as long as fewer than `2 ^
63` writes are made.
-/

set_option autoImplicit false

namespace AccountServices.Foundation

variable {κ : Type} {β : κ → Type}

/-- A sequence number and the words that it protects. -/
structure SeqCell {κ : Type} (β : κ → Type) where
  seq : UInt64
  words : ∀ i, β i

namespace SeqCell

/-! ## The accesses -/

/-- Where a writer or a reader is. A write is a list of stores; a reader that has found a write in
progress tries again, `attempts` times at most. -/
inductive Step {κ : Type} (β : κ → Type) where
  | write (stores : List (Σ i, β i))
  | marking (seq : UInt64) (stores : List (Σ i, β i))
  | storing (seq : UInt64) (rest : List (Σ i, β i))
  | reading (attempts : Nat)
  | copying (attempts : Nat) (seq : UInt64) (out : ∀ i, β i) (rest : List κ)

/-- How a write or a read ends. -/
inductive Outcome {κ : Type} (β : κ → Type) where
  | written
  | read (out : Option (∀ i, β i))

variable [DecidableEq κ]

/-- The store of one word. -/
def putWord (words : ∀ i, β i) (s : Σ i, β i) : ∀ i, β i := Function.update words s.1 s.2

/-- The stores of a write, in order. -/
def putWords (words : ∀ i, β i) (stores : List (Σ i, β i)) : ∀ i, β i := stores.foldl putWord words

/-- One access. A reader copies all words, in an order of its own. A writer that finds an odd
number, left behind by a writer that has died, makes it even first. -/
inductive Access : Step β → SeqCell β → Step β ⊕ Outcome β → SeqCell β → Prop
  | loadsSeq (stores : List (Σ i, β i)) (cell : SeqCell β) :
      Access (.write stores) cell
        (.inl (.marking (if cell.seq &&& 1 ≠ 0 then cell.seq + 1 else cell.seq) stores)) cell
  | marks (seq : UInt64) (stores : List (Σ i, β i)) (cell : SeqCell β) :
      Access (.marking seq stores) cell (.inl (.storing seq stores)) { cell with seq := seq + 1 }
  | stores (seq : UInt64) (s : Σ i, β i) (rest : List (Σ i, β i)) (cell : SeqCell β) :
      Access (.storing seq (s :: rest)) cell (.inl (.storing seq rest))
        { cell with words := putWord cell.words s }
  | publishes (seq : UInt64) (cell : SeqCell β) :
      Access (.storing seq []) cell (.inr .written) { cell with seq := seq + 2 }
  | busy {attempts : Nat} {cell : SeqCell β} (hodd : cell.seq &&& 1 ≠ 0) :
      Access (.reading (attempts + 1)) cell (.inl (.reading attempts)) cell
  | quiet {attempts : Nat} {cell : SeqCell β} (heven : cell.seq &&& 1 = 0)
      (out : ∀ i, β i) {order : List κ} (horder : ∀ i, i ∈ order) :
      Access (.reading (attempts + 1)) cell (.inl (.copying attempts cell.seq out order)) cell
  | copies (attempts : Nat) (seq : UInt64) (out : ∀ i, β i) (i : κ) (rest : List κ)
      (cell : SeqCell β) : Access (.copying attempts seq out (i :: rest)) cell
        (.inl (.copying attempts seq (Function.update out i (cell.words i)) rest)) cell
  | agrees {attempts : Nat} {seq : UInt64} {out : ∀ i, β i} {cell : SeqCell β}
      (hsame : seq = cell.seq ∧ cell.seq &&& 1 = 0) :
      Access (.copying attempts seq out []) cell (.inr (.read (some out))) cell
  | changed {attempts : Nat} {seq : UInt64} {out : ∀ i, β i} {cell : SeqCell β}
      (hchanged : ¬(seq = cell.seq ∧ cell.seq &&& 1 = 0)) :
      Access (.copying attempts seq out []) cell (.inl (.reading attempts)) cell
  | givesUp (cell : SeqCell β) : Access (.reading 0) cell (.inr (.read none)) cell

/-! ## The count -/

/-- The next even number. -/
def evenUp (n : Nat) : Nat := n + n % 2

theorem odd_ofNat (n : Nat) : UInt64.ofNat n &&& 1 ≠ 0 ↔ n % 2 = 1 := by
  rw [Ne, ← UInt64.toNat_inj, UInt64.toNat_and]
  simp only [UInt64.toNat_ofNat', UInt64.toNat_one, UInt64.toNat_zero, Nat.and_one_is_mod]
  omega

theorem even_ofNat (n : Nat) : UInt64.ofNat n &&& 1 = 0 ↔ n % 2 = 0 := by
  have h := odd_ofNat n
  by_cases heq : UInt64.ofNat n &&& 1 = 0
  · have : ¬n % 2 = 1 := fun hn => h.2 hn heq
    exact ⟨fun _ => by omega, fun _ => heq⟩
  · exact ⟨fun h0 => absurd h0 heq, fun h0 => absurd (h.1 heq) (by omega)⟩

/-- The number as a writer makes it even. -/
theorem ofNat_evenUp (n : Nat) :
    (if UInt64.ofNat n &&& 1 ≠ 0 then UInt64.ofNat n + 1 else UInt64.ofNat n) =
      UInt64.ofNat (evenUp n) := by
  rw [evenUp]
  by_cases hodd : n % 2 = 1
  · rw [if_pos ((odd_ofNat n).2 hodd), hodd, UInt64.ofNat_add]
    rfl
  · rw [if_neg fun h => hodd ((odd_ofNat n).1 h), show n % 2 = 0 by omega, Nat.add_zero]

/-- Counts that are less than `2 ^ 64` apart are told apart by the number. -/
theorem eq_of_ofNat {m n : Nat} (hle : m ≤ n) (hlt : n < m + 2 ^ 64)
    (h : UInt64.ofNat m = UInt64.ofNat n) : m = n := by
  have hmod := congrArg UInt64.toNat h
  simp only [UInt64.toNat_ofNat'] at hmod
  omega

/-! ## The assertions -/

/-- The invariant of a cell. The number began at `base`, and `writes` writes have been called, of
which the last may be in progress (`busy`). `now` are the words as the last write that has ended
left them. -/
structure Sound (base writes : Nat) (busy : Prop) (cell : SeqCell β) (now : ∀ i, β i)
    (count : Nat) : Prop where
  seq : cell.seq = UInt64.ofNat count
  base_le : base ≤ count
  bound : evenUp count ≤ evenUp base + 2 * writes
  quiet : ¬busy → cell.words = now
  even : count % 2 = 0 → cell.words = now

/-- What a writer knows, whose write will leave the words `goal`. -/
inductive Writes (base writes : Nat) (cell : SeqCell β) (now : ∀ i, β i)
    (count : Nat) (goal : ∀ i, β i) : Step β → Prop
  | write {stores : List (Σ i, β i)} (hnow : cell.words = now) (hgoal : putWords now stores = goal)
      (hbound : evenUp count + 2 ≤ evenUp base + 2 * writes) :
      Writes base writes cell now count goal (.write stores)
  | marking {seq : UInt64} {stores : List (Σ i, β i)} (hseq : seq = UInt64.ofNat (evenUp count))
      (hnow : cell.words = now) (hgoal : putWords now stores = goal)
      (hbound : evenUp count + 2 ≤ evenUp base + 2 * writes) :
      Writes base writes cell now count goal (.marking seq stores)
  | storing {seq : UInt64} {rest : List (Σ i, β i)} {before : Nat}
      (hseq : seq = UInt64.ofNat before)
      (heven : before % 2 = 0) (hcount : count = before + 1)
      (hgoal : putWords cell.words rest = goal) :
      Writes base writes cell now count goal (.storing seq rest)

/-- What a reader knows. While the count is still what it was at the first load, the copied words
are those of the cell. -/
inductive Reads (base : Nat) (cell : SeqCell β) (count : Nat) : Step β → Prop
  | reading (attempts : Nat) : Reads base cell count (.reading attempts)
  | copying {attempts : Nat} {seq : UInt64} {out : ∀ i, β i} {rest : List κ} {before : Nat}
      (hseq : seq = UInt64.ofNat before) (heven : before % 2 = 0) (hbase : base ≤ before)
      (hle : before ≤ count)
      (hcopied : before = count → ∀ i, i ∉ rest → out i = cell.words i) :
      Reads base cell count (.copying attempts seq out rest)

/-- How a cell may move between two accesses of a reader. -/
structure Moves (cell : SeqCell β) (count : Nat) (cell' : SeqCell β) (count' : Nat) : Prop where
  le : count ≤ count'
  words : count' = count → count % 2 = 0 → cell'.words = cell.words

variable {base writes : Nat} {busy : Prop} {cell cell' : SeqCell β} {now goal : ∀ i, β i}
  {count count' : Nat} {l l' : Step β} {o : Outcome β}

omit [DecidableEq κ] in
theorem Moves.refl (cell : SeqCell β) (count : Nat) : Moves cell count cell count :=
  ⟨Nat.le_refl _, fun _ _ => rfl⟩

/-- A cell to which nobody writes: the first assertion of a writer. -/
theorem Sound.begin (h : Sound base writes busy cell now count) (hquiet : ¬busy)
    (stores : List (Σ i, β i)) : Sound base (writes + 1) True cell now count ∧
      Writes base (writes + 1) cell now count (putWords now stores) (.write stores) := by
  have hbound := h.bound
  exact ⟨⟨h.seq, h.base_le, by omega, fun hn => absurd trivial hn, h.even⟩,
    .write (h.quiet hquiet) rfl (by omega)⟩

/-- A writer moves on. -/
theorem Writes.step (h : Writes base writes cell now count goal l)
    (hsound : Sound base writes True cell now count) (haccess : Access l cell (.inl l') cell') :
    ∃ count', Sound base writes True cell' now count' ∧
      Writes base writes cell' now count' goal l' ∧ Moves cell count cell' count' := by
  cases haccess with
  -- The writer rounds the number up to the next even one, in case a writer before it stopped half
  -- way.
  | loadsSeq stores =>
      cases h with
      | write hnow hgoal hbound =>
          refine ⟨count, hsound, .marking ?_ hnow hgoal hbound, Moves.refl _ _⟩
          rw [hsound.seq, ofNat_evenUp]
  -- From here on the number is odd, and nothing is promised of the words.
  | marks seq stores =>
      cases h with
      | marking hseq hnow hgoal hbound =>
          have hup : evenUp count % 2 = 0 := by
            rw [evenUp]
            omega
          have hle : count ≤ evenUp count := Nat.le_add_right _ _
          refine ⟨evenUp count + 1, ⟨?_, ?_, ?_, fun hn => absurd trivial hn, fun he => by omega⟩,
            .storing hseq hup rfl ?_, ⟨by omega, fun heq => by omega⟩⟩
          · rw [hseq, UInt64.ofNat_add]
            rfl
          · have hb := hsound.base_le
            omega
          · have hnext : evenUp (evenUp count + 1) = evenUp count + 2 := by
              rw [show evenUp (evenUp count + 1) = evenUp count + 1 +
                (evenUp count + 1) % 2 from rfl]
              omega
            omega
          · simp only [hnow]
            exact hgoal
  -- A word is stored while the number is odd.
  | stores seq s rest =>
      cases h with
      | storing hseq heven hcount hgoal =>
          refine ⟨count,
            ⟨hsound.seq, hsound.base_le, hsound.bound, fun hn =>
            absurd trivial hn, fun he => by omega⟩,
            .storing hseq heven hcount hgoal, ⟨Nat.le_refl _, fun _ he => by omega⟩⟩
  | busy => cases h
  | quiet => cases h
  | copies => cases h
  | changed => cases h

/-- A write ends: the words are now what it makes of them. -/
theorem Writes.done (h : Writes base writes cell now count goal l)
    (hsound : Sound base writes True cell now count) (haccess : Access l cell (.inr o) cell') :
    o = .written ∧ ∃ count', Sound base writes False cell' goal count' ∧
      Moves cell count cell' count' := by
  cases haccess with
  | publishes seq =>
      cases h with
      | @storing _ _ before hseq heven hcount hgoal =>
          have hb := hsound.base_le
          have hbound := hsound.bound
          have hgoal' : cell.words = goal := hgoal
          refine ⟨rfl, count + 1, ⟨?_, by omega, ?_, fun _ => hgoal', fun _ => hgoal'⟩,
            ⟨by omega, fun heq => by omega⟩⟩
          · rw [hseq, hcount, show before + 1 + 1 = before + 2 by omega, UInt64.ofNat_add]
            rfl
          · rw [evenUp] at hbound ⊢
            omega
  | agrees => cases h
  | givesUp => cases h

omit [DecidableEq κ] in
/-- What a reader knows is kept while others move. -/
theorem Reads.moves (h : Reads base cell count l) (hmoves : Moves cell count cell' count') :
    Reads base cell' count' l := by
  cases h with
  | reading attempts => exact .reading attempts
  | copying hseq heven hbase hle hcopied =>
      refine .copying hseq heven hbase (Nat.le_trans hle hmoves.le) fun heq i hi => ?_
      have hcount : _ = count := Nat.le_antisymm hle (heq ▸ hmoves.le)
      rw [hcopied hcount i hi, hmoves.words (heq ▸ hcount) (hcount ▸ heven)]

/-- A reader moves on. -/
theorem Reads.step (h : Reads base cell count l) (hsound : Sound base writes busy cell now count)
    (haccess : Access l cell (.inl l') cell') : cell' = cell ∧ Reads base cell count l' := by
  cases haccess with
  | loadsSeq => cases h
  | marks => cases h
  | stores => cases h
  | busy => exact ⟨rfl, .reading _⟩
  | quiet heven out horder =>
      refine ⟨rfl, .copying hsound.seq ?_ hsound.base_le (Nat.le_refl _) fun _ i hi =>
        absurd (horder i) hi⟩
      rw [hsound.seq] at heven
      exact (even_ofNat count).1 heven
  | copies attempts seq out i rest =>
      cases h with
      | copying hseq heven hbase hle hcopied =>
          refine ⟨rfl, .copying hseq heven hbase hle fun heq j hj => ?_⟩
          by_cases hij : j = i
          · subst hij
            rw [Function.update_self]
          · rw [Function.update_of_ne hij]
            exact hcopied heq j fun hmem => (List.mem_cons.1 hmem).elim hij hj
  | changed => exact ⟨rfl, .reading _⟩

/-- A read ends: it has failed, or its copy is the words as the last write left them. -/
theorem Reads.done (h : Reads base cell count l) (hsound : Sound base writes busy cell now count)
    (hwrites : writes < 2 ^ 63) (haccess : Access l cell (.inr o) cell') :
    cell' = cell ∧ (o = .read none ∨ o = .read (some now)) := by
  cases haccess with
  | publishes => cases h
  | agrees hsame =>
      cases h with
      | copying hseq heven hbase hle hcopied =>
          have hbound := hsound.bound
          rw [evenUp, evenUp] at hbound
          -- the number has not come round: fewer than `2 ^ 63` writes have moved it
          have hcount := eq_of_ofNat hle (by omega) (hseq.symm.trans (hsame.1.trans hsound.seq))
          have hout : _ = now := (funext fun i => hcopied hcount i List.not_mem_nil).trans
            (hsound.even (hcount ▸ heven))
          exact ⟨rfl, Or.inr (by rw [hout])⟩
  | givesUp => exact ⟨rfl, Or.inl rfl⟩

end SeqCell

end AccountServices.Foundation
