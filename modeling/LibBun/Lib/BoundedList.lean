import LibBun.Lib.Run

/-!
# Lists with a capacity

A list that never holds more than `cap` items: `push` adds one at the end, or says no
and leaves the list alone. That the list is within its capacity is a field, so there is
no other kind.

A run of pushes is told by two numbers, the room at the start and the number of pushes:
the first `room` of them go in, in order, and the others are turned away.
-/

/-- A list of at most `cap` items. -/
structure BoundedList (α : Type) (cap : Nat) where
  items : List α
  length_le : items.length ≤ cap

namespace BoundedList

variable {α : Type} {cap : Nat}

/-- The list of no items. -/
def empty : BoundedList α cap := ⟨[], Nat.zero_le cap⟩

/-- The number of items that still go in. -/
def room (l : BoundedList α cap) : Nat := cap - l.items.length

/-- One more item at the end, if it goes in. -/
def push (l : BoundedList α cap) (x : α) : Bool × BoundedList α cap :=
  if hlt : l.items.length < cap then
    (true, ⟨l.items ++ [x], by rw [List.length_append]; exact hlt⟩)
  else
    (false, l)

variable {l : BoundedList α cap}

theorem push_of_room (h : 0 < l.room) (x : α) :
    (l.push x).1 = true ∧ (l.push x).2.items = l.items ++ [x]
      ∧ (l.push x).2.room = l.room - 1 := by
  have hlt : l.items.length < cap := by rw [room] at h; omega
  rw [push, dif_pos hlt]
  refine ⟨rfl, rfl, ?_⟩
  rw [room, room, List.length_append, List.length_singleton]
  omega

theorem push_of_full (h : l.room = 0) (x : α) : l.push x = (false, l) := by
  have hge : ¬l.items.length < cap := by rw [room] at h; omega
  rw [push, dif_neg hge]

/-- A run of pushes returns true as long as there is room. -/
theorem getElem?_outputs (l : BoundedList α cap) {xs : List α} {k : Nat} (hk : k < xs.length) :
    (Run.outputs push l xs)[k]? = some (decide (k < l.room)) := by
  induction xs generalizing l k with
  | nil => exact absurd hk (Nat.not_lt_zero k)
  | cons x xs ih =>
      rw [Run.outputs]
      by_cases h : 0 < l.room
      · obtain ⟨hok, _, hroom⟩ := push_of_room h x
        cases k with
        | zero => rw [List.getElem?_cons_zero, hok, decide_eq_true h]
        | succ k =>
            rw [List.getElem?_cons_succ, ih _ (Nat.lt_of_succ_lt_succ hk), hroom]
            congr 2
            exact propext (by omega)
      · rw [push_of_full (by omega) x]
        cases k with
        | zero => rw [List.getElem?_cons_zero, decide_eq_false h]
        | succ k =>
            rw [List.getElem?_cons_succ, ih l (Nat.lt_of_succ_lt_succ hk)]
            congr 2
            exact propext (by omega)

/-- What went in is there in order, behind what was there before. -/
theorem items_final (l : BoundedList α cap) (xs : List α) :
    (Run.final push l xs).items
      = l.items ++ (((xs.zip (Run.outputs push l xs)).filter Prod.snd).map Prod.fst) := by
  induction xs generalizing l with
  | nil => exact (List.append_nil l.items).symm
  | cons x xs ih =>
      have hrest := ih (l.push x).2
      have hcons : Run.final push l (x :: xs) = Run.final push (l.push x).2 xs := rfl
      rw [hcons, hrest, Run.outputs, List.zip_cons_cons]
      by_cases h : 0 < l.room
      · obtain ⟨hok, hitems, _⟩ := push_of_room h x
        rw [List.filter_cons_of_pos (by exact hok), List.map_cons, hitems, List.append_assoc,
          List.singleton_append]
      · have hfull := push_of_full (l := l) (by omega) x
        rw [List.filter_cons_of_neg (by rw [hfull]; exact Bool.false_ne_true), hfull]

/-- Items that all have room go in, all of them. -/
theorem items_of_fits {xs : List α} (h : xs.length ≤ l.room) :
    (Run.final push l xs).items = l.items ++ xs := by
  induction xs generalizing l with
  | nil => exact (List.append_nil l.items).symm
  | cons x xs ih =>
      rw [List.length_cons] at h
      obtain ⟨_, hitems, hroom⟩ := push_of_room (l := l) (by omega) x
      have hrest := ih (l := (l.push x).2) (by omega)
      have hcons : Run.final push l (x :: xs) = Run.final push (l.push x).2 xs := rfl
      rw [hcons, hrest, hitems, List.append_assoc, List.singleton_append]

end BoundedList
