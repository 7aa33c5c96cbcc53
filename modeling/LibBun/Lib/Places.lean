import Mathlib.Data.List.Basic
import Mathlib.Data.List.Count

/-!
# Processes that take steps one at a time

Where several processes are is a list of places, and a step puts one of them somewhere
else. What is kept up by such a step is of three kinds: something that holds of every
place, something that holds of some place, and the number of places of some kind. One
lemma for each says what has to be looked at, and it is only the place that changes.
-/

namespace Places

variable {α : Type} {l : List α} {i : Nat} {a b : α}

theorem lt_length (ha : l[i]? = some a) : i < l.length :=
  (List.getElem?_eq_some_iff.mp ha).1

theorem mem (ha : l[i]? = some a) : a ∈ l := List.mem_of_getElem? ha

theorem mem_move (ha : l[i]? = some a) (b : α) : b ∈ l.set i b :=
  List.mem_set (lt_length ha) b

/-- A step that leads back where it came from. -/
theorem move_self (ha : l[i]? = some a) : l.set i a = l := by
  obtain ⟨hi, hget⟩ := List.getElem?_eq_some_iff.mp ha
  rw [← hget, List.set_getElem_self hi]

/-- Something that holds everywhere. -/
theorem forall_move {P : α → Prop} (hall : ∀ x ∈ l, P x) (hb : P b) : ∀ x ∈ l.set i b, P x := by
  intro x hx
  rcases List.mem_or_eq_of_mem_set hx with hx | rfl
  · exact hall x hx
  · exact hb

/-- Something that holds somewhere. -/
theorem exists_move {P : α → Prop} (ha : l[i]? = some a) (hsome : ∃ x ∈ l, P x)
    (hab : P a → P b) : ∃ x ∈ l.set i b, P x := by
  obtain ⟨x, hx, hP⟩ := hsome
  obtain ⟨j, hj⟩ := List.mem_iff_getElem?.mp hx
  by_cases hij : i = j
  · subst hij
    obtain rfl : a = x := Option.some.inj (ha.symm.trans hj)
    exact ⟨b, mem_move ha b, hab hP⟩
  · exact ⟨x, List.mem_of_getElem? ((List.getElem?_set_ne hij).trans hj), hP⟩

/-- How many places are of a kind. -/
theorem countP_move (ha : l[i]? = some a) (b : α) (p : α → Bool) :
    (l.set i b).countP p + (if p a then 1 else 0) = l.countP p + (if p b then 1 else 0) := by
  obtain ⟨hi, hget⟩ := List.getElem?_eq_some_iff.mp ha
  have hle : (if p a then 1 else 0) ≤ l.countP p := by
    split
    · rename_i hp
      exact List.countP_pos_iff.mpr ⟨a, mem ha, hp⟩
    · exact Nat.zero_le _
  rw [List.countP_set hi, hget]
  omega

/-- No more of a kind than there are places, and fewer when one is of another kind. -/
theorem countP_lt (ha : l[i]? = some a) {p : α → Bool} (hp : p a = false) :
    l.countP p < l.length := by
  refine Nat.lt_of_le_of_ne List.countP_le_length fun heq => ?_
  have hall := List.countP_eq_length.mp heq a (mem ha)
  rw [hp] at hall
  exact Bool.noConfusion hall

/-- Where there is at most one place of a kind, two of the kind are the same place. -/
theorem eq_of_countP_le_one {p : α → Bool} (hone : l.countP p ≤ 1) {j : Nat}
    (ha : l[i]? = some a) (hb : l[j]? = some b) (hpa : p a = true) (hpb : p b = true) :
    i = j := by
  induction l generalizing i j with
  | nil => exact absurd ha (by simp)
  | cons x l ih =>
      cases i with
      | zero =>
          cases j with
          | zero => rfl
          | succ j =>
              obtain rfl : x = a := Option.some.inj ha
              have hpos := List.countP_pos_iff.mpr ⟨b, List.mem_of_getElem? (i := j) hb, hpb⟩
              rw [List.countP_cons_of_pos hpa] at hone
              omega
      | succ i =>
          cases j with
          | zero =>
              obtain rfl : x = b := Option.some.inj hb
              have hpos := List.countP_pos_iff.mpr ⟨a, List.mem_of_getElem? (i := i) ha, hpa⟩
              rw [List.countP_cons_of_pos hpb] at hone
              omega
          | succ j =>
              refine congrArg Nat.succ (ih (Nat.le_trans ?_ hone) ha hb)
              rw [List.countP_cons]
              omega

end Places
