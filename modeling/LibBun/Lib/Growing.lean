import Mathlib.Data.List.Infix

/-!
# Lists that only grow

A `Growing α` is a list at every moment `k`, and each is a prefix of the next. It is
what a log looks like to somebody who keeps looking at it. An observer who has gone
through the first `n` items finds the same `n` items there at any later moment, so a
position is all that has to be remembered of what was seen.
-/

/-- A list that has, at every moment, grown out of what it was before. -/
structure Growing (α : Type) where
  /-- The list at moment `k`. -/
  at_ : Nat → List α
  grows : ∀ k, at_ k <+: at_ (k + 1)

namespace Growing

variable {α : Type}

/-- A list to which nothing is added. -/
def const (xs : List α) : Growing α := ⟨fun _ => xs, fun _ => List.prefix_rfl⟩

/-- Nothing is added to `xs` for `n` moments, and then it goes on as `g`. -/
def after (n : Nat) (xs : List α) (g : Growing α) (hxs : xs <+: g.at_ 0) : Growing α where
  at_ k := if k < n then xs else g.at_ (k - n)
  grows k := by
    by_cases hk : k + 1 < n
    · rw [if_pos hk, if_pos (by omega)]
    · rw [if_neg hk]
      by_cases hk' : k < n
      · have hnow : k + 1 - n = 0 := by omega
        rw [if_pos hk', hnow]
        exact hxs
      · have hnext : k + 1 - n = k - n + 1 := by omega
        rw [if_neg hk', hnext]
        exact g.grows (k - n)

theorem after_of_lt {n k : Nat} {xs : List α} {g : Growing α} (hxs : xs <+: g.at_ 0)
    (hk : k < n) : (after n xs g hxs).at_ k = xs := if_pos hk

theorem after_of_le {n k : Nat} {xs : List α} {g : Growing α} (hxs : xs <+: g.at_ 0)
    (hk : n ≤ k) : (after n xs g hxs).at_ k = g.at_ (k - n) := if_neg (Nat.not_lt.mpr hk)

/-- **What was seen stays**: the first items are the same at the next moment. -/
theorem take_eq (g : Growing α) {k n : Nat} (hn : n ≤ (g.at_ k).length) :
    (g.at_ (k + 1)).take n = (g.at_ k).take n := by
  obtain ⟨more, hmore⟩ := g.grows k
  rw [← hmore, List.take_append_of_le_length hn]

end Growing
