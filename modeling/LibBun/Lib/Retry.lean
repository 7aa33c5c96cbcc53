import Mathlib.Data.Nat.Count

/-!
# Loops that ask until they have an answer

Such a loop asks the outside, again and again, and looks at the answer: it goes
around once more, or it returns. The outside is a sequence without end, so nothing
but the loop itself can make an end of it.

A *budget* is how such a loop usually does: some answers stop it, some cost it one
unit of a limited supply, and all others are free. `Budget.returned_iff` says
whether the loop has returned after any number of answers. `Budget.leaves_iff` is about
a promise made in other terms, that of all answers a user counts the loop takes no
more than the supply: what is counted and yet free breaks it, unless the loop is
stopped in time.
-/

namespace Retry

/-- What one iteration comes to. -/
inductive Outcome (σ ρ : Type) where
  | again (s : σ)
  | returned (r : ρ)
deriving DecidableEq

variable {σ α ρ : Type} (step : σ → α → Outcome σ ρ)

/-- Where a loop that starts in `s` is after `n` answers. -/
def after (s : σ) (answers : Nat → α) : Nat → Outcome σ ρ
  | 0 => .again s
  | n + 1 =>
      match after s answers n with
      | .again t => step t (answers n)
      | .returned r => .returned r

/-- What the loop returns, if it does so within `fuel` answers. -/
def run (s : σ) (answers : Nat → α) (fuel : Nat) : Option ρ :=
  match after step s answers fuel with
  | .again _ => none
  | .returned r => some r

variable {step} {s t : σ} {answers : Nat → α} {r : ρ} {m n : Nat}

theorem after_succ_of_again (h : after step s answers n = .again t) :
    after step s answers (n + 1) = step t (answers n) := by
  rw [after, h]

theorem after_succ_of_returned (h : after step s answers n = .returned r) :
    after step s answers (n + 1) = .returned r := by
  rw [after, h]

/-- A loop that has returned stays there. -/
theorem after_mono (h : after step s answers m = .returned r) (hmn : m ≤ n) :
    after step s answers n = .returned r := by
  induction hmn with
  | refl => exact h
  | step _ ih => exact after_succ_of_returned ih

theorem run_eq_some : run step s answers n = some r ↔ after step s answers n = .returned r := by
  unfold run
  cases after step s answers n with
  | again t => simp
  | returned r' => simp

/-! ## Counting answers -/

/-- A count takes every value up to the one it has. -/
theorem exists_count_eq (p : Nat → Prop) [DecidablePred p] {k : Nat} (h : k ≤ Nat.count p n) :
    ∃ m, m ≤ n ∧ Nat.count p m = k := by
  induction n with
  | zero =>
      rw [Nat.count_zero, Nat.le_zero] at h
      exact ⟨0, Nat.le_refl 0, h.symm ▸ Nat.count_zero p⟩
  | succ n ih =>
      rcases Nat.lt_or_ge (Nat.count p n) k with hlt | hge
      · have hstep : Nat.count p (n + 1) ≤ Nat.count p n + 1 := by
          rw [Nat.count_succ]
          split <;> omega
        exact ⟨n + 1, Nat.le_refl _, by omega⟩
      · obtain ⟨m, hm, hcount⟩ := ih hge
        exact ⟨m, Nat.le_succ_of_le hm, hcount⟩

/-- If all of the larger kind there is are of the smaller kind, the counts agree, and conversely. -/
theorem count_eq_iff_of_imp {p q : Nat → Prop} [DecidablePred p] [DecidablePred q]
    (hpq : ∀ i, p i → q i) : Nat.count p n = Nat.count q n ↔ ∀ i < n, q i → p i := by
  constructor
  · intro heq i hi hq
    by_contra hp
    have hle : Nat.count p (i + 1) < Nat.count q (i + 1) := by
      rw [Nat.count_succ, Nat.count_succ, if_neg hp, if_pos hq]
      exact Nat.lt_succ_of_le (Nat.count_mono_left fun k _ => hpq k)
    have hi : i + 1 ≤ n := hi
    obtain ⟨d, rfl⟩ := Nat.exists_eq_add_of_le hi
    rw [Nat.count_add p (i + 1), Nat.count_add q (i + 1)] at heq
    have hrest : Nat.count (fun k => p (i + 1 + k)) d ≤ Nat.count (fun k => q (i + 1 + k)) d :=
      Nat.count_mono_left fun k _ => hpq _
    omega
  · intro hqp
    exact Nat.le_antisymm (Nat.count_mono_left fun k _ => hpq k) (Nat.count_mono_left hqp)

/-! ## Budgets -/

/-- How the answers use up a supply of `limit` units, from the state the loop starts in. -/
structure Budget (step : σ → α → Outcome σ ρ) (stops costs : α → Prop) where
  /-- The units there are. -/
  limit : Nat
  /-- The state, by the units spent. -/
  state : Nat → σ
  /-- There is something to spend. -/
  limit_pos : 0 < limit
  /-- An answer that stops the loop. -/
  stop : ∀ k a, k < limit → stops a → ∃ r, step (state k) a = .returned r
  /-- An answer that costs a unit. -/
  spend : ∀ k a, k + 1 < limit → ¬stops a → costs a → step (state k) a = .again (state (k + 1))
  /-- An answer that costs the last unit. -/
  last : ∀ k a, k + 1 = limit → ¬stops a → costs a → ∃ r, step (state k) a = .returned r
  /-- An answer that costs nothing. -/
  free : ∀ k a, k < limit → ¬stops a → ¬costs a → step (state k) a = .again (state k)

namespace Budget

variable {stops costs : α → Prop} [DecidablePred costs] (b : Budget step stops costs)

/-- The units spent on the first `n` answers. -/
def spent (costs : α → Prop) [DecidablePred costs] (answers : Nat → α) (n : Nat) : Nat :=
  Nat.count (fun i => costs (answers i)) n

/-- While the loop goes on, nothing has stopped it and some of the supply is left. -/
theorem of_again (h : after step (b.state 0) answers n = .again t) :
    (∀ i < n, ¬stops (answers i)) ∧ spent costs answers n < b.limit
      ∧ t = b.state (spent costs answers n) := by
  induction n generalizing t with
  | zero =>
      cases h
      exact ⟨fun i hi => absurd hi (Nat.not_lt_zero i), b.limit_pos, rfl⟩
  | succ n ih =>
      cases hn : after step (b.state 0) answers n with
      | returned r =>
          rw [after_succ_of_returned hn] at h
          cases h
      | again u =>
          obtain ⟨hgoing, hlt, rfl⟩ := ih hn
          rw [after_succ_of_again hn] at h
          have hstop : ¬stops (answers n) := by
            intro hs
            obtain ⟨r, hr⟩ := b.stop _ _ hlt hs
            rw [hr] at h
            cases h
          have hall : ∀ i < n + 1, ¬stops (answers i) := by
            intro i hi
            rcases Nat.lt_succ_iff_lt_or_eq.mp hi with hi | rfl
            · exact hgoing i hi
            · exact hstop
          by_cases hcost : costs (answers n)
          · have hspent : spent costs answers (n + 1) = spent costs answers n + 1 := by
              rw [spent, Nat.count_succ, if_pos hcost, spent]
            rcases Nat.lt_or_ge (spent costs answers n + 1) b.limit with hmore | hend
            · rw [b.spend _ _ hmore hstop hcost] at h
              rw [hspent]
              exact ⟨hall, hmore, (Outcome.again.inj h).symm⟩
            · have hlast : spent costs answers n + 1 = b.limit := Nat.le_antisymm hlt hend
              obtain ⟨r, hr⟩ := b.last _ _ hlast hstop hcost
              rw [hr] at h
              cases h
          · have hspent : spent costs answers (n + 1) = spent costs answers n := by
              rw [spent, Nat.count_succ, if_neg hcost, spent, Nat.add_zero]
            rw [b.free _ _ hlt hstop hcost] at h
            rw [hspent]
            exact ⟨hall, hlt, (Outcome.again.inj h).symm⟩

/-- As long as nothing stops the loop and some of the supply is left, it goes on. -/
theorem to_again (hgoing : ∀ i < n, ¬stops (answers i))
    (hlt : spent costs answers n < b.limit) :
    after step (b.state 0) answers n = .again (b.state (spent costs answers n)) := by
  induction n with
  | zero => rfl
  | succ n ih =>
      have hle : spent costs answers n ≤ spent costs answers (n + 1) :=
        Nat.count_monotone _ (Nat.le_succ n)
      have hn := ih (fun i hi => hgoing i (Nat.lt_succ_of_lt hi)) (Nat.lt_of_le_of_lt hle hlt)
      have hstop := hgoing n (Nat.lt_succ_self n)
      rw [after_succ_of_again hn]
      by_cases hcost : costs (answers n)
      · have hspent : spent costs answers (n + 1) = spent costs answers n + 1 := by
          rw [spent, Nat.count_succ, if_pos hcost, spent]
        rw [hspent] at hlt ⊢
        exact b.spend _ _ hlt hstop hcost
      · have hspent : spent costs answers (n + 1) = spent costs answers n := by
          rw [spent, Nat.count_succ, if_neg hcost, spent, Nat.add_zero]
        rw [hspent] at hlt ⊢
        exact b.free _ _ hlt hstop hcost

/-- **When it has returned**: precisely when something has stopped it or used it up. -/
theorem returned_iff :
    (∃ r, after step (b.state 0) answers n = .returned r)
      ↔ (∃ i < n, stops (answers i)) ∨ b.limit ≤ spent costs answers n := by
  constructor
  · rintro ⟨r, hr⟩
    by_contra hnot
    rw [not_or, not_exists] at hnot
    have hagain := b.to_again (fun i hi hs => hnot.1 i ⟨hi, hs⟩) (Nat.lt_of_not_le hnot.2)
    rw [hr] at hagain
    cases hagain
  · intro hused
    cases h : after step (b.state 0) answers n with
    | returned r => exact ⟨r, rfl⟩
    | again t =>
        obtain ⟨hgoing, hlt, _⟩ := b.of_again h
        rcases hused with ⟨i, hi, hs⟩ | hle
        · exact absurd hs (hgoing i hi)
        · exact absurd hle (Nat.not_le_of_lt hlt)

/--
**When the loop keeps within its limit**, by a count of answers of which those that
cost are some. Up to the answer with which the count reaches the limit either one
stops the loop or all that are counted cost.
-/
theorem leaves_iff {counted : α → Prop} [DecidablePred counted]
    (hcounted : ∀ a, costs a → counted a) :
    (∀ n, b.limit ≤ spent counted answers n → ∃ r, after step (b.state 0) answers n = .returned r)
      ↔ ∀ n, spent counted answers n = b.limit →
        (∃ i < n, stops (answers i)) ∨ ∀ i < n, counted (answers i) → costs (answers i) := by
  have hsame : ∀ n, spent costs answers n = spent counted answers n
      ↔ ∀ i < n, counted (answers i) → costs (answers i) := fun n =>
    count_eq_iff_of_imp fun i => hcounted (answers i)
  constructor
  · intro hleaves n hn
    rcases b.returned_iff.mp (hleaves n (Nat.le_of_eq hn.symm)) with hstop | hle
    · exact Or.inl hstop
    · right
      have hmono : spent costs answers n ≤ spent counted answers n :=
        Nat.count_mono_left fun i _ => hcounted (answers i)
      exact (hsame n).mp (by omega)
  · intro hcond n hn
    -- the answer with which the count reaches the limit
    obtain ⟨m, hm, hcount⟩ := exists_count_eq (fun i => counted (answers i)) hn
    have hreturned : ∃ r, after step (b.state 0) answers m = .returned r := by
      rw [b.returned_iff]
      rcases hcond m hcount with hstop | hall
      · exact Or.inl hstop
      · right
        rw [(hsame m).mpr hall]
        exact Nat.le_of_eq hcount.symm
    obtain ⟨r, hr⟩ := hreturned
    exact ⟨r, after_mono hr hm⟩

end Budget

end Retry
