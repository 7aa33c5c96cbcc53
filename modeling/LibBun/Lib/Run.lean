import Mathlib.Data.List.Induction
import Mathlib.Data.List.Forall2

/-!
# Runs of a step function

A run feeds a list of inputs to a step function. Two things are said of one: a
property of states that holds *throughout*, the first and the last state
included, and a condition on a state and an input that is met *along* it, at
every step. The condition may speak of the state the step leads to as well, so
facts about single transitions are conditions too.

`throughout_iff_along` is the rule behind every exact condition: where one step
keeps the property precisely when it meets the condition, a whole run keeps it
precisely when all its steps do.

The steps of a machine may return something as well. Two machines that return the
same, step by step, and stay related are one machine to whoever uses them; that is
`simulates`. Where one of them says less than the other, what they return is related
only, and that is `simulates_along`.
-/

namespace Run

variable {σ ι : Type} (step : σ → ι → σ)

/-- `P` holds in every state of the run. -/
def Throughout (P : σ → Prop) : σ → List ι → Prop
  | s, [] => P s
  | s, x :: xs => P s ∧ Throughout P (step s x) xs

/-- Every step of the run meets `C` in the state it is taken from. -/
def Along (C : σ → ι → Prop) : σ → List ι → Prop
  | _, [] => True
  | s, x :: xs => C s x ∧ Along C (step s x) xs

variable {step} {P : σ → Prop} {C : σ → ι → Prop} {s : σ} {xs : List ι}

theorem throughout_head (h : Throughout step P s xs) : P s := by
  cases xs with
  | nil => exact h
  | cons x xs => exact h.1

/--
**Exact conditions.** Let steps within the property keep an invariant. If from a
state with both one step leads to a state with the property exactly when it meets
the condition, then a run has the property throughout exactly when its steps meet
the condition all along.
-/
theorem throughout_iff_along (Inv : σ → Prop) {W : ι → Prop} (hi : Inv s) (hs : P s)
    (hw : ∀ x ∈ xs, W x)
    (hinv : ∀ s x, Inv s → P s → W x → P (step s x) → Inv (step s x))
    (hstep : ∀ s x, Inv s → P s → W x → (P (step s x) ↔ C s x)) :
    Throughout step P s xs ↔ Along step C s xs := by
  induction xs generalizing s with
  | nil => exact ⟨fun _ => trivial, fun _ => hs⟩
  | cons x xs ih =>
      have hwx := hw x (List.mem_cons_self ..)
      have hx := hstep s x hi hs hwx
      have hxs : ∀ y ∈ xs, W y := fun y hy => hw y (List.mem_cons_of_mem _ hy)
      constructor
      · rintro ⟨_, hrest⟩
        have hp := throughout_head hrest
        exact ⟨hx.mp hp, (ih (hinv s x hi hs hwx hp) hp hxs).mp hrest⟩
      · rintro ⟨hc, hrest⟩
        have hp := hx.mpr hc
        exact ⟨hs, (ih (hinv s x hi hs hwx hp) hp hxs).mpr hrest⟩

/-- Conditions that agree wherever the invariant holds are met along the same runs. -/
theorem along_congr {D : σ → ι → Prop} (Inv : σ → Prop) (hi : Inv s)
    (hinv : ∀ s x, Inv s → Inv (step s x)) (hstep : ∀ s x, Inv s → (C s x ↔ D s x)) :
    Along step C s xs ↔ Along step D s xs := by
  induction xs generalizing s with
  | nil => exact Iff.rfl
  | cons x xs ih => exact and_congr (hstep s x hi) (ih (hinv s x hi))

/-! ## Machines whose steps return something -/

section Outputs

variable {τ ω : Type}

/-- What the steps of a run return. -/
def outputs (step : σ → ι → ω × σ) : σ → List ι → List ω
  | _, [] => []
  | s, x :: xs => (step s x).1 :: outputs step (step s x).2 xs

/-- The state a run ends in. -/
def final (step : σ → ι → ω × σ) (s : σ) (xs : List ι) : σ :=
  xs.foldl (fun s x => (step s x).2) s

variable {run : σ → ι → ω × σ} {spec : τ → ι → ω × τ} {R : σ → τ → Prop}

/-- What every step returns has a property, and so has everything a run returns. -/
theorem forall_outputs {Q : ω → Prop} (hstep : ∀ s x, Q (run s x).1) {s : σ} {xs : List ι} :
    ∀ o ∈ outputs run s xs, Q o := by
  induction xs generalizing s with
  | nil =>
      intro o ho
      exact absurd ho List.not_mem_nil
  | cons x xs ih =>
      intro o ho
      rcases List.mem_cons.mp ho with heq | hrest
      · rw [heq]
        exact hstep s x
      · exact ih o hrest

/--
**Simulation.** If related states return the same for the same input and stay
related, then so do runs of any length.
-/
theorem simulates {W : ι → Prop}
    (hstep : ∀ s t x, R s t → W x → (run s x).1 = (spec t x).1 ∧ R (run s x).2 (spec t x).2)
    {s : σ} {t : τ} (hR : R s t) {xs : List ι} (hw : ∀ x ∈ xs, W x) :
    outputs run s xs = outputs spec t xs ∧ R (final run s xs) (final spec t xs) := by
  induction xs generalizing s t with
  | nil => exact ⟨rfl, hR⟩
  | cons x xs ih =>
      obtain ⟨hout, hnext⟩ := hstep s t x hR (hw x (List.mem_cons_self ..))
      obtain ⟨houts, hfinal⟩ := ih hnext fun y hy => hw y (List.mem_cons_of_mem _ hy)
      exact ⟨congrArg₂ List.cons hout houts, hfinal⟩

/--
**Simulation under a condition.** A step may be taken only if the state of the second
machine allows it, and along the run it always does. What the steps return is related,
and need not be the same.
-/
theorem simulates_along {ω' : Type} {spec : τ → ι → ω' × τ} {O : ω' → ω → Prop}
    {C : τ → ι → Prop}
    (hstep : ∀ s t x, R s t → C t x → O (spec t x).1 (run s x).1 ∧ R (run s x).2 (spec t x).2)
    {s : σ} {t : τ} (hR : R s t) {xs : List ι}
    (hc : Along (fun t x => (spec t x).2) C t xs) :
    List.Forall₂ O (outputs spec t xs) (outputs run s xs)
      ∧ R (final run s xs) (final spec t xs) := by
  induction xs generalizing s t with
  | nil => exact ⟨List.Forall₂.nil, hR⟩
  | cons x xs ih =>
      obtain ⟨hout, hnext⟩ := hstep s t x hR hc.1
      obtain ⟨houts, hfinal⟩ := ih hnext hc.2
      exact ⟨List.Forall₂.cons hout houts, hfinal⟩

end Outputs

/-! ## Machines made of parts

Where a state has a list of parts, related states have parts that are related place by
place. A step that looks at one place finds related parts there, or none on either
side, and may put related parts in their stead. -/

section Parts

variable {α β : Type} {P : α → β → Prop} {as : List α} {bs : List β}

theorem parts_at (h : List.Forall₂ P as bs) (i : Nat) :
    (as[i]? = none ∧ bs[i]? = none) ∨ ∃ a b, as[i]? = some a ∧ bs[i]? = some b ∧ P a b := by
  induction h generalizing i with
  | nil => exact Or.inl ⟨rfl, rfl⟩
  | cons hab _ ih =>
      cases i with
      | zero => exact Or.inr ⟨_, _, rfl, rfl, hab⟩
      | succ i => exact ih i

/-- Whatever is on the right is related to something on the left. -/
theorem exists_of_mem (h : List.Forall₂ P as bs) {b : β} (hb : b ∈ bs) : ∃ a ∈ as, P a b := by
  induction h with
  | nil => exact absurd hb List.not_mem_nil
  | cons hab _ ih =>
      rcases List.mem_cons.mp hb with heq | hrest
      · exact ⟨_, List.mem_cons_self .., heq ▸ hab⟩
      · obtain ⟨a, ha, hP⟩ := ih hrest
        exact ⟨a, List.mem_cons_of_mem _ ha, hP⟩

theorem parts_set (h : List.Forall₂ P as bs) (i : Nat) {a : α} {b : β} (hab : P a b) :
    List.Forall₂ P (as.set i a) (bs.set i b) := by
  induction h generalizing i with
  | nil => exact List.Forall₂.nil
  | cons hxy hrest ih =>
      cases i with
      | zero => exact List.Forall₂.cons hab hrest
      | succ i => exact List.Forall₂.cons hxy (ih i)

end Parts

end Run
