import Mathlib.Data.Finset.Card
import Mathlib.Data.Finset.Insert

/-!
# Blocks of memory

A heap as far as the life of its blocks goes: a block is a number, numbers are given out
in order and never twice, and a block that is not live cannot be released. What is
counted here is how many live blocks belong to whom.
-/

/-- The blocks that are live, and the number of the next one. -/
structure Heap where
  next : Nat
  live : Finset Nat
  lt_next : ∀ b ∈ live, b < next

namespace Heap

/-- No block has been given out yet. -/
def empty : Heap := ⟨0, ∅, fun _ hb => absurd hb (Finset.notMem_empty _)⟩

/-- One more block, whose number is `next`. -/
def alloc (m : Heap) : Heap where
  next := m.next + 1
  live := insert m.next m.live
  lt_next := by
    intro b hb
    rcases Finset.mem_insert.mp hb with rfl | hb
    · exact Nat.lt_succ_self _
    · exact Nat.lt_succ_of_lt (m.lt_next b hb)

/-- A block is released, if it is live. -/
def free (m : Heap) (b : Nat) : Option Heap :=
  if b ∈ m.live then
    some
      { next := m.next
        live := m.live.erase b
        lt_next := fun c hc => m.lt_next c (Finset.mem_of_mem_erase hc) }
  else none

variable {m m' : Heap} {b c : Nat}

theorem next_not_mem (m : Heap) : m.next ∉ m.live := fun hmem =>
  absurd (m.lt_next _ hmem) (Nat.lt_irrefl _)

theorem free_eq_some : m.free b = some m' → b ∈ m.live ∧ m'.live = m.live.erase b
    ∧ m'.next = m.next := by
  unfold free
  split
  · rename_i hb
    intro heq
    obtain rfl := Option.some.inj heq
    exact ⟨hb, rfl, rfl⟩
  · intro heq
    exact absurd heq (by simp)

theorem free_of_mem (hb : b ∈ m.live) :
    ∃ m', m.free b = some m' ∧ m'.live = m.live.erase b ∧ m'.next = m.next := by
  refine ⟨_, if_pos hb, rfl, rfl⟩

theorem free_of_not_mem (hb : b ∉ m.live) : m.free b = none := if_neg hb

/-! ## Who owns what -/

variable {κ : Type} [DecidableEq κ]

/-- The number of live blocks that belong to `k`. -/
def owned (m : Heap) (owner : Nat → κ) (k : κ) : Nat := (m.live.filter fun b => owner b = k).card

/-- A new block belongs to whom it is given. -/
theorem owned_alloc (m : Heap) (owner : Nat → κ) (j k : κ) :
    m.alloc.owned (Function.update owner m.next j) k
      = m.owned owner k + (if j = k then 1 else 0) := by
  have hnew := m.next_not_mem
  have hold : (m.live.filter fun b => Function.update owner m.next j b = k)
      = m.live.filter fun b => owner b = k := by
    refine Finset.filter_congr fun b hb => ?_
    have hne : b ≠ m.next := fun heq => hnew (heq ▸ hb)
    rw [Function.update_of_ne hne]
  have hnew' : m.next ∉ m.live.filter fun b => owner b = k :=
    fun hmem => hnew (Finset.mem_of_mem_filter _ hmem)
  rw [owned, alloc]
  dsimp only
  rw [Finset.filter_insert, hold, Function.update_self]
  split
  · rw [Finset.card_insert_of_notMem hnew', owned]
  · rw [owned, Nat.add_zero]

/-- A released block is missing to its owner and to nobody else. -/
theorem owned_free (hfree : m.free b = some m') (owner : Nat → κ) (k : κ) :
    m'.owned owner k + (if owner b = k then 1 else 0) = m.owned owner k := by
  obtain ⟨hb, hlive, _⟩ := free_eq_some hfree
  rw [owned, owned, hlive, Finset.filter_erase]
  split
  · rename_i hk
    have hmem : b ∈ m.live.filter fun b => owner b = k := Finset.mem_filter.mpr ⟨hb, hk⟩
    exact Finset.card_erase_add_one hmem
  · rename_i hk
    have hmem : b ∉ m.live.filter fun b => owner b = k := fun hmem =>
      hk (Finset.mem_filter.mp hmem).2
    rw [Finset.erase_eq_of_notMem hmem, Nat.add_zero]

/-- No block is live if nobody owns one. -/
theorem live_eq_empty_iff (m : Heap) (owner : Nat → κ) :
    m.live = ∅ ↔ ∀ k, m.owned owner k = 0 := by
  constructor
  · intro hnone k
    rw [owned, hnone]
    rfl
  · intro hall
    rw [Finset.eq_empty_iff_forall_notMem]
    intro b hb
    have hcard := hall (owner b)
    rw [owned, Finset.card_eq_zero] at hcard
    have hmem : b ∈ m.live.filter fun c => owner c = owner b := Finset.mem_filter.mpr ⟨hb, rfl⟩
    rw [hcard] at hmem
    exact absurd hmem (Finset.notMem_empty _)

end Heap
