import Mathlib.Data.List.TakeDrop
import Mathlib.Tactic.Ring

/-!
# A block of memory and the stores that reach it

A block is a list of cells, addressed from its own start. A store names an
address and the cells to put there; the address is an integer because the
programs this is for compute addresses, and may compute one on the wrong side of
either end. What a store puts outside the block is lost. That is not a promise
about hardware: it is the convention under which one can still say what the
block holds after a stray store, and every caller that cares whether a store
strayed can ask, because stores are also kept as data.

The second half is about sequences of stores. `replay` is what a sequence leaves
behind, and `SameOn` says two blocks cannot be told apart on a range; stores on
the far side of the range keep it.
-/

namespace Region

variable {α : Type}

/-- What the block holds once `bs` has been stored at address `a`. -/
def patch : List α → Int → List α → List α
  | [], _, _ => []
  | x :: m, a, bs => (if a ≤ 0 then bs[(-a).toNat]?.getD x else x) :: patch m (a - 1) bs

@[simp] theorem length_patch (m : List α) (a : Int) (bs : List α) :
    (patch m a bs).length = m.length := by
  induction m generalizing a with
  | nil => rfl
  | cons x m ih => rw [patch, List.length_cons, List.length_cons, ih]

/-- Cell by cell: a stored cell where the store reaches, the old cell elsewhere. -/
theorem getElem?_patch (m : List α) (a : Int) (bs : List α) (i : Nat) :
    (patch m a bs)[i]? =
      m[i]?.map (fun x => if a ≤ i then bs[((i : Int) - a).toNat]?.getD x else x) := by
  induction m generalizing a i with
  | nil => simp [patch]
  | cons x m ih =>
      cases i with
      | zero => simp [patch]
      | succ i =>
          have hsub : ((i : Int) - (a - 1)).toNat = (((i + 1 : Nat) : Int) - a).toNat := by
            congr 1; push_cast; ring
          have hle : a - 1 ≤ (i : Int) ↔ a ≤ ((i + 1 : Nat) : Int) := by omega
          rw [patch, List.getElem?_cons_succ, List.getElem?_cons_succ, ih, hsub]
          simp only [hle]

/-- A cell the store does not reach keeps what it held. -/
theorem getElem?_patch_of_outside {m : List α} {a : Int} {bs : List α} {i : Nat}
    (h : (i : Int) < a ∨ a + bs.length ≤ i) : (patch m a bs)[i]? = m[i]? := by
  rw [getElem?_patch]
  rcases h with h | h
  · have hlt : ¬a ≤ (i : Int) := by omega
    simp only [if_neg hlt, Option.map_id']
  · rw [List.getElem?_eq_none (l := bs) (by omega)]
    simp

/-- A cell the store reaches holds what was stored. -/
theorem getElem?_patch_of_inside {m : List α} {a : Nat} {bs : List α} {i : Nat}
    (hm : a + i < m.length) (hi : i < bs.length) : (patch m a bs)[a + i]? = bs[i]? := by
  have hsub : (((a + i : Nat) : Int) - a).toNat = i := by omega
  rw [getElem?_patch, List.getElem?_eq_getElem hm, Option.map_some, if_pos (by omega), hsub,
    List.getElem?_eq_getElem hi, Option.getD_some]

theorem patch_nil (m : List α) (a : Int) : patch m a [] = m := by
  apply List.ext_getElem?
  intro i
  rw [getElem?_patch]
  simp

/-- A store in two parts is two stores, one after the other. -/
theorem patch_append (m : List α) (a : Int) (xs ys : List α) :
    patch m a (xs ++ ys) = patch (patch m a xs) (a + xs.length) ys := by
  apply List.ext_getElem?
  intro i
  simp only [getElem?_patch, Option.map_map]
  cases m[i]? with
  | none => rfl
  | some x =>
      simp only [Option.map_some, Function.comp_apply, Option.some.injEq]
      by_cases ha : a ≤ (i : Int)
      · by_cases hx : ((i : Int) - a).toNat < xs.length
        · rw [if_pos ha, if_neg (by omega), if_pos ha, List.getElem?_append_left hx]
        · have hi : ((i : Int) - (a + xs.length)).toNat = ((i : Int) - a).toNat - xs.length := by
            omega
          rw [if_pos ha, if_pos (by omega), if_pos ha, hi,
            List.getElem?_append_right (by omega), List.getElem?_eq_none (l := xs) (by omega)]
          rfl
      · rw [if_neg ha, if_neg (by omega), if_neg ha]

/-- A store that is all behind the block is lost. -/
theorem patch_behind {m : List α} {a : Int} (bs : List α) (h : (m.length : Int) ≤ a) :
    patch m a bs = m := by
  apply List.ext_getElem?
  intro i
  rw [getElem?_patch]
  by_cases hi : i < m.length
  · have hlt : ¬a ≤ (i : Int) := by omega
    rw [List.getElem?_eq_getElem hi, Option.map_some, if_neg hlt]
  · rw [List.getElem?_eq_none (l := m) (by omega)]
    rfl

/-- A store that is all before the block is lost. -/
theorem patch_before (m : List α) {a : Int} {bs : List α} (h : a + bs.length ≤ 0) :
    patch m a bs = m := by
  apply List.ext_getElem?
  intro i
  rw [getElem?_patch, List.getElem?_eq_none (l := bs) (by omega)]
  simp

/-- From the address on, the block is what was stored, cut at the end, and then the old rest. -/
theorem drop_patch (m bs : List α) (c : Nat) :
    (patch m c bs).drop c = bs.take (m.length - c) ++ m.drop (c + bs.length) := by
  apply List.ext_getElem?
  intro i
  have hidx : (((c + i : Nat) : Int) - c).toNat = i := by omega
  rw [List.getElem?_drop, getElem?_patch, hidx]
  by_cases hm : c + i < m.length
  · have hle : (c : Int) ≤ ((c + i : Nat) : Int) := by omega
    rw [List.getElem?_eq_getElem hm, Option.map_some, if_pos hle]
    by_cases hb : i < bs.length
    · rw [List.getElem?_append_left (by rw [List.length_take]; omega),
        List.getElem?_take_of_lt (by omega), List.getElem?_eq_getElem hb]
      rfl
    · have hrest : c + bs.length + (i - (bs.take (m.length - c)).length) = c + i := by
        rw [List.length_take]; omega
      rw [List.getElem?_append_right (by rw [List.length_take]; omega), List.getElem?_drop, hrest,
        List.getElem?_eq_none (l := bs) (by omega), List.getElem?_eq_getElem hm]
      rfl
  · rw [List.getElem?_eq_none (l := m) (by omega), Option.map_none, eq_comm,
      List.getElem?_eq_none_iff, List.length_append, List.length_take, List.length_drop]
    omega

/-- A store that fits, seen from its own address. -/
theorem drop_patch_of_fits {m bs : List α} {c : Nat} (h : c + bs.length ≤ m.length) :
    (patch m c bs).drop c = bs ++ m.drop (c + bs.length) := by
  rw [drop_patch, List.take_of_length_le (by omega)]

/-- The front of a block after a store is the store into the front. -/
theorem take_patch (m : List α) (a : Int) (bs : List α) (k : Nat) :
    (patch m a bs).take k = patch (m.take k) a bs := by
  induction m generalizing a k with
  | nil => rw [patch, List.take_nil, patch]
  | cons x m ih =>
      cases k with
      | zero => rfl
      | succ k => rw [patch, List.take_succ_cons, ih, List.take_succ_cons, patch]

/-! ## Reading -/

/-- The `n` cells at `a`, if the block has them all. -/
def load (m : List α) (a : Int) (n : Nat) : Option (List α) :=
  if 0 ≤ a ∧ a + n ≤ m.length then some ((m.drop a.toNat).take n) else none

/-- The `n` cells at `a`, with `d` for each one the block does not have. -/
def peek (d : α) (m : List α) (a : Int) : Nat → List α
  | 0 => []
  | n + 1 => (if 0 ≤ a then m[a.toNat]?.getD d else d) :: peek d m (a + 1) n

@[simp] theorem length_peek (d : α) (m : List α) (a : Int) (n : Nat) :
    (peek d m a n).length = n := by
  induction n generalizing a with
  | zero => rfl
  | succ n ih => rw [peek, List.length_cons, ih]

theorem length_of_load {m v : List α} {a : Int} {n : Nat} (h : load m a n = some v) :
    v.length = n := by
  unfold load at h
  split at h
  · obtain rfl := Option.some.inj h
    rw [List.length_take, List.length_drop]
    omega
  · cases h

theorem load_of_inside {m : List α} {a n : Nat} (h : a + n ≤ m.length) :
    load m a n = some ((m.drop a).take n) := by
  rw [load, if_pos (by omega), Int.toNat_natCast]

theorem peek_of_inside {d : α} {m : List α} {a n : Nat} (h : a + n ≤ m.length) :
    peek d m a n = (m.drop a).take n := by
  induction n generalizing a with
  | zero => rfl
  | succ n ih =>
      have ha : a < m.length := by omega
      have hcast : (a : Int) + 1 = ((a + 1 : Nat) : Int) := by push_cast; rfl
      rw [peek, if_pos (by omega), Int.toNat_natCast, List.getElem?_eq_getElem ha, hcast,
        ih (by omega), List.drop_eq_getElem_cons ha, List.take_succ_cons]
      rfl

/-- Padding with the default changes nothing one can see. -/
theorem peek_takeD {d : α} {m : List α} {n a k : Nat} (h : a + k ≤ n) :
    peek d (m.takeD n d) a k = peek d m a k := by
  have hcell : ∀ (n : Nat) (m : List α) (i : Nat), i < n →
      (m.takeD n d)[i]?.getD d = m[i]?.getD d := by
    intro n
    induction n with
    | zero => intro m i hi; omega
    | succ n ih =>
        intro m i hi
        cases m with
        | nil => cases i with
          | zero => rfl
          | succ i => exact ih [] i (by omega)
        | cons x m => cases i with
          | zero => rfl
          | succ i => exact ih m i (by omega)
  induction k generalizing a with
  | zero => rfl
  | succ k ih =>
      have hcast : (a : Int) + 1 = ((a + 1 : Nat) : Int) := by push_cast; rfl
      rw [peek, peek, hcast, ih (by omega), Int.toNat_natCast, hcell n m a (by omega)]

/-! ## Blocks that agree on a range -/

/-- The two blocks are of one size and hold the same cells on `[lo, hi)`. -/
def SameOn (lo : Nat) (hi : Int) (m m' : List α) : Prop :=
  m.length = m'.length ∧ ∀ i : Nat, lo ≤ i → (i : Int) < hi → m[i]? = m'[i]?

namespace SameOn

variable {lo : Nat} {hi : Int} {m m' m'' : List α}

theorem refl (lo : Nat) (hi : Int) (m : List α) : SameOn lo hi m m := ⟨rfl, fun _ _ _ => rfl⟩

theorem symm (h : SameOn lo hi m m') : SameOn lo hi m' m :=
  ⟨h.1.symm, fun i hl hr => (h.2 i hl hr).symm⟩

theorem trans (h : SameOn lo hi m m') (h' : SameOn lo hi m' m'') : SameOn lo hi m m'' :=
  ⟨h.1.trans h'.1, fun i hl hr => (h.2 i hl hr).trans (h'.2 i hl hr)⟩

theorem mono {lo' : Nat} {hi' : Int} (hl : lo ≤ lo') (hh : hi' ≤ hi) (h : SameOn lo hi m m') :
    SameOn lo' hi' m m' :=
  ⟨h.1, fun i hi₁ hi₂ => h.2 i (by omega) (by omega)⟩

/-- A range the blocks agree on is one slice. -/
theorem slice (h : SameOn lo hi m m') {a k : Nat} (ha : lo ≤ a) (hk : (a + k : Int) ≤ hi) :
    (m.drop a).take k = (m'.drop a).take k := by
  apply List.ext_getElem?
  intro i
  by_cases hi : i < k
  · rw [List.getElem?_take_of_lt hi, List.getElem?_take_of_lt hi, List.getElem?_drop,
      List.getElem?_drop]
    exact h.2 (a + i) (by omega) (by omega)
  · rw [List.getElem?_eq_none (by rw [List.length_take]; omega),
      List.getElem?_eq_none (by rw [List.length_take]; omega)]

/-- What one block holds at the start of the range, the other holds too. -/
theorem drop_append {xs : List α} (h : SameOn lo hi m m')
    (hm : m.drop lo = xs ++ m.drop (lo + xs.length)) (hhi : ((lo + xs.length : Nat) : Int) ≤ hi) :
    m'.drop lo = xs ++ m'.drop (lo + xs.length) := by
  have htake : (m'.drop lo).take xs.length = xs := by
    rw [← h.slice (Nat.le_refl lo) (by omega), hm, List.take_left]
  rw [← List.drop_drop]
  exact (List.take_append_drop xs.length (m'.drop lo)).symm.trans (by rw [htake])

/-- Agreement up to the end of the block is agreement of the whole rest. -/
theorem drop_eq (h : SameOn lo hi m m') {a : Nat} (ha : lo ≤ a) (hend : (m.length : Int) ≤ hi) :
    m.drop a = m'.drop a := by
  apply List.ext_getElem?
  intro i
  rw [List.getElem?_drop, List.getElem?_drop]
  by_cases hi : a + i < m.length
  · exact h.2 (a + i) (by omega) (by omega)
  · have := h.1
    rw [List.getElem?_eq_none (by omega), List.getElem?_eq_none (by omega)]

end SameOn

/-- A store that starts past the range leaves it alone. -/
theorem sameOn_patch_above (lo : Nat) {hi a : Int} (m bs : List α) (h : hi ≤ a) :
    SameOn lo hi m (patch m a bs) :=
  ⟨(length_patch m a bs).symm, fun _ _ hi' =>
    (getElem?_patch_of_outside (Or.inl (lt_of_lt_of_le hi' h))).symm⟩

/-- A store that ends before the range leaves it alone. -/
theorem sameOn_patch_below {lo : Nat} (hi : Int) {a : Int} (m bs : List α)
    (h : a + bs.length ≤ lo) : SameOn lo hi m (patch m a bs) :=
  ⟨(length_patch m a bs).symm, fun _ hl _ =>
    (getElem?_patch_of_outside (Or.inr (h.trans (Int.ofNat_le.mpr hl)))).symm⟩

/-! ## Sequences of stores -/

/-- One store: where, and what. -/
structure Store (α : Type) where
  addr : Int
  cells : List α
deriving DecidableEq, Repr

/-- Every cell the store writes is inside a block of `n` cells. -/
def Store.Inside (s : Store α) (n : Nat) : Prop := 0 ≤ s.addr ∧ s.addr + s.cells.length ≤ n

instance (s : Store α) (n : Nat) : Decidable (s.Inside n) :=
  inferInstanceAs (Decidable (_ ∧ _))

/-- What a sequence of stores leaves in the block. -/
def replay (m : List α) : List (Store α) → List α
  | [] => m
  | s :: ss => replay (patch m s.addr s.cells) ss

@[simp] theorem length_replay (m : List α) (ss : List (Store α)) :
    (replay m ss).length = m.length := by
  induction ss generalizing m with
  | nil => rfl
  | cons s ss ih => rw [replay, ih, length_patch]

theorem replay_append (m : List α) (ss ts : List (Store α)) :
    replay m (ss ++ ts) = replay (replay m ss) ts := by
  induction ss generalizing m with
  | nil => rfl
  | cons s ss ih => rw [List.cons_append, replay, replay, ih]

/-- Stores that all start past the range leave it alone. -/
theorem sameOn_replay_above (lo : Nat) {hi : Int} (m : List α) (ss : List (Store α))
    (h : ∀ s ∈ ss, hi ≤ s.addr) : SameOn lo hi m (replay m ss) := by
  induction ss generalizing m with
  | nil => exact SameOn.refl lo hi m
  | cons s ss ih =>
      have hs : hi ≤ s.addr := h s (List.mem_cons_self ..)
      have hss : ∀ t ∈ ss, hi ≤ t.addr := fun t ht => h t (List.mem_cons_of_mem _ ht)
      exact (sameOn_patch_above lo m s.cells hs).trans (ih (patch m s.addr s.cells) hss)

/-- The same cells stored one at a time, in address order. -/
def cellwise (a : Int) : List α → List (Store α)
  | [] => []
  | x :: xs => ⟨a, [x]⟩ :: cellwise (a + 1) xs

theorem replay_cellwise (m : List α) (a : Int) (xs : List α) :
    replay m (cellwise a xs) = patch m a xs := by
  induction xs generalizing m a with
  | nil => exact (patch_nil m a).symm
  | cons x xs ih =>
      rw [cellwise, replay, ih]
      exact (patch_append m a [x] xs).symm

theorem cellwise_append (a : Int) (xs ys : List α) :
    cellwise a (xs ++ ys) = cellwise a xs ++ cellwise (a + xs.length) ys := by
  induction xs generalizing a with
  | nil => simp [cellwise]
  | cons x xs ih =>
      have hadd : a + 1 + (xs.length : Int) = a + ((x :: xs).length : Nat) := by
        rw [List.length_cons]; push_cast; ring
      rw [List.cons_append, cellwise, cellwise, ih, hadd, List.cons_append]

theorem mem_cellwise {a : Int} {xs : List α} {s : Store α} (h : s ∈ cellwise a xs) :
    a ≤ s.addr ∧ s.addr + s.cells.length ≤ a + xs.length := by
  induction xs generalizing a with
  | nil => exact absurd h (by simp [cellwise])
  | cons x xs ih =>
      rw [cellwise] at h
      rcases List.mem_cons.mp h with rfl | h
      · simp
      · obtain ⟨h1, h2⟩ := ih h
        rw [List.length_cons]
        omega

end Region
