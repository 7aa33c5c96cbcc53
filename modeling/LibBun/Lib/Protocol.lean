import Mathlib.Data.List.Basic
import Mathlib.Logic.Function.Basic

/-!
# Protocols

A protocol says which operations an object allows and what state each leaves it in; an
operation that is not allowed leads nowhere. A family of objects, each with a state of
its own, is a protocol too: an operation comes with the object it is for. Then the order
of operations on different objects is of no consequence. `family_run` says that a run
over the whole family is allowed if and only if each object allows those that are for
it, and `Tracks.run` carries this over to a machine whose objects share something.
-/

/-- The state an operation leads to, or `none` if it is not allowed. -/
abbrev Protocol (σ ι : Type) : Type := σ → ι → Option σ

namespace Protocol

variable {κ σ ι τ : Type}

/-- All operations of a run, in order. -/
def run (p : Protocol σ ι) : σ → List ι → Option σ
  | s, [] => some s
  | s, x :: xs => (p s x).bind fun s => run p s xs

/-! ## Families of objects -/

variable [DecidableEq κ]

/-- The protocol of a family: an operation is for one of the objects. -/
def family (p : Protocol σ ι) : Protocol (κ → σ) (κ × ι) := fun s x =>
  (p (s x.1) x.2).map (Function.update s x.1)

/-- The operations that are for one object. -/
def callsOn (k : κ) (xs : List (κ × ι)) : List ι :=
  xs.filterMap fun x => if x.1 = k then some x.2 else none

@[simp] theorem callsOn_nil (k : κ) : callsOn k ([] : List (κ × ι)) = [] := rfl

theorem callsOn_cons_self (k : κ) (x : ι) (xs : List (κ × ι)) :
    callsOn k ((k, x) :: xs) = x :: callsOn k xs := by
  have hhead : (if k = k then some x else none) = some x := if_pos rfl
  exact List.filterMap_cons_some hhead

theorem callsOn_cons_of_ne {k j : κ} (hne : j ≠ k) (x : ι) (xs : List (κ × ι)) :
    callsOn k ((j, x) :: xs) = callsOn k xs := by
  have hhead : (if j = k then some x else none) = none := if_neg hne
  exact List.filterMap_cons_none hhead

/-- **Objects do not get in each other's way.** -/
theorem family_run {p : Protocol σ ι} {xs : List (κ × ι)} {s s' : κ → σ} :
    p.family.run s xs = some s' ↔ ∀ k, p.run (s k) (callsOn k xs) = some (s' k) := by
  induction xs generalizing s with
  | nil =>
      simp only [run, callsOn_nil, Option.some.injEq]
      exact funext_iff
  | cons x xs ih =>
      obtain ⟨j, x⟩ := x
      rw [run, family]
      dsimp only
      cases hstep : p (s j) x with
      | none =>
          -- the object that does not allow it is the one it is for
          refine iff_of_false (by simp) fun hall => ?_
          have hj := hall j
          rw [callsOn_cons_self, run, hstep] at hj
          exact absurd hj (by simp)
      | some t =>
          rw [Option.map_some, Option.bind_some, ih]
          refine forall_congr' fun k => ?_
          by_cases hk : j = k
          · subst hk
            rw [callsOn_cons_self, run, hstep, Option.bind_some, Function.update_self]
          · rw [callsOn_cons_of_ne hk, Function.update_of_ne (Ne.symm hk)]

theorem family_run_isSome {p : Protocol σ ι} {xs : List (κ × ι)} {s : κ → σ} :
    (p.family.run s xs).isSome ↔ ∀ k, (p.run (s k) (callsOn k xs)).isSome := by
  constructor
  · intro hsome k
    obtain ⟨s', hs'⟩ := Option.isSome_iff_exists.mp hsome
    rw [family_run.mp hs' k]
    rfl
  · intro hall
    have hrun : ∀ k, ∃ t, p.run (s k) (callsOn k xs) = some t :=
      fun k => Option.isSome_iff_exists.mp (hall k)
    rw [family_run.mpr fun k => (hrun k).choose_spec]
    rfl

omit [DecidableEq κ]

/-! ## Machines that follow a protocol -/

/-- The machine does what the protocol allows, no more and no less, and keeps the relation. -/
def Tracks (m : Protocol τ ι) (p : Protocol σ ι) (R : τ → σ → Prop) : Prop :=
  ∀ {t s} (x : ι), R t s → (m t x = none ∧ p s x = none)
    ∨ ∃ t' s', m t x = some t' ∧ p s x = some s' ∧ R t' s'

/-- **So do its runs.** -/
theorem Tracks.run {m : Protocol τ ι} {p : Protocol σ ι} {R : τ → σ → Prop} (htracks : Tracks m p R)
    {t : τ} {s : σ} (hR : R t s) (xs : List ι) :
    (m.run t xs = none ∧ p.run s xs = none)
      ∨ ∃ t' s', m.run t xs = some t' ∧ p.run s xs = some s' ∧ R t' s' := by
  induction xs generalizing t s with
  | nil => exact Or.inr ⟨t, s, rfl, rfl, hR⟩
  | cons x xs ih =>
      rw [Protocol.run, Protocol.run]
      rcases htracks x hR with ⟨hm, hp⟩ | ⟨t', s', hm, hp, hR'⟩
      · rw [hm, hp]
        exact Or.inl ⟨rfl, rfl⟩
      · rw [hm, hp]
        exact ih hR'

end Protocol
