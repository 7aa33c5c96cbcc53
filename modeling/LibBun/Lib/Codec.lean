import Mathlib.Data.List.TakeDrop
import Mathlib.Data.List.TakeWhile
import Mathlib.Logic.Equiv.Defs

/-!
# Prefix codecs

A codec writes values as strings of symbols and reads one value off the front of
a string. The two laws say that reading undoes writing in front of any
continuation, and that whatever is read was written: the grammar has exactly one
string for each value. Together they make the set of encodings prefix-free,
which is why values can be laid end to end with nothing between them.

The combinators build codecs from smaller ones and carry the laws along, so a
format assembled from them needs no round-trip proof of its own. The last
section is about streams: values laid end to end, and a reader that walks them
for as long as a gate, which sees only the position, stays open.
-/

/-- A writer and a reader that are exact inverses on prefixes. -/
structure Codec (β α : Type) where
  /-- The symbols that stand for a value. -/
  encode : α → List β
  /-- The value at the front of a string, and what follows it. -/
  decode : List β → Option (α × List β)
  decode_encode : ∀ a rest, decode (encode a ++ rest) = some (a, rest)
  /-- Only what writing produces is read. -/
  decode_sound : ∀ {l a rest}, decode l = some (a, rest) → l = encode a ++ rest

namespace Codec

variable {α β γ : Type}

/-! ## What the laws give -/

/-- **No encoding is a proper prefix of another.** -/
theorem prefix_free (c : Codec β α) {a b : α} {r s : List β}
    (h : c.encode a ++ r = c.encode b ++ s) : a = b ∧ r = s := by
  have ha := c.decode_encode a r
  rw [h, c.decode_encode] at ha
  simp only [Option.some.injEq, Prod.mk.injEq] at ha
  exact ⟨ha.1.symm, ha.2.symm⟩

/-- Half an encoding cannot be read. -/
theorem decode_of_proper_prefix (c : Codec β α) {p q : List β} {a : α} (h : c.encode a = p ++ q)
    (hq : q ≠ []) : c.decode p = none := by
  cases hd : c.decode p with
  | none => rfl
  | some x =>
      have hp : p = c.encode x.1 ++ x.2 := c.decode_sound hd
      have hsame : x.2 ++ q = [] := (c.prefix_free (a := x.1) (b := a) (r := x.2 ++ q) (s := [])
        (by rw [List.append_nil, h, hp, List.append_assoc])).2
      exact absurd (List.append_eq_nil_iff.mp hsame).2 hq

/-- A string is readable exactly when some value's encoding starts it. -/
theorem decode_isSome_iff (c : Codec β α) (l : List β) :
    (c.decode l).isSome ↔ ∃ a, c.encode a <+: l := by
  constructor
  · intro h
    obtain ⟨⟨a, rest⟩, hd⟩ := Option.isSome_iff_exists.mp h
    exact ⟨a, rest, (c.decode_sound hd).symm⟩
  · rintro ⟨a, rest, rfl⟩
    rw [c.decode_encode]
    rfl

/-! ## Building codecs -/

/-- The same strings, read as another type. -/
def equiv (c : Codec β α) (e : α ≃ γ) : Codec β γ where
  encode x := c.encode (e.symm x)
  decode l := (c.decode l).map (fun p => (e p.1, p.2))
  decode_encode := by
    intro x rest
    rw [c.decode_encode, Option.map_some, e.apply_symm_apply]
  decode_sound := by
    intro l x rest h
    obtain ⟨⟨a, r⟩, hd, he⟩ := Option.map_eq_some_iff.mp h
    simp only [Prod.mk.injEq] at he
    obtain ⟨rfl, rfl⟩ := he
    rw [e.symm_apply_apply]
    exact c.decode_sound hd

/-- One value after another. -/
def pair (c : Codec β α) (d : Codec β γ) : Codec β (α × γ) where
  encode x := c.encode x.1 ++ d.encode x.2
  decode l := (c.decode l).bind fun p => (d.decode p.2).map fun q => ((p.1, q.1), q.2)
  decode_encode := by
    intro x rest
    rw [List.append_assoc, c.decode_encode, Option.bind_some, d.decode_encode, Option.map_some]
  decode_sound := by
    intro l x rest h
    obtain ⟨⟨a, r⟩, hc, h⟩ := Option.bind_eq_some_iff.mp h
    obtain ⟨⟨g, r'⟩, hd, he⟩ := Option.map_eq_some_iff.mp h
    simp only [Prod.mk.injEq] at he
    obtain ⟨rfl, rfl⟩ := he
    have hr : r = d.encode g ++ r' := d.decode_sound hd
    rw [c.decode_sound hc, hr, List.append_assoc]

/-- A value, and then one whose format depends on it: a count and what it counts. -/
def sigma {γ : α → Type} (c : Codec β α) (d : (a : α) → Codec β (γ a)) :
    Codec β ((a : α) × γ a) where
  encode x := c.encode x.1 ++ (d x.1).encode x.2
  decode l := (c.decode l).bind fun p => ((d p.1).decode p.2).map fun q => (⟨p.1, q.1⟩, q.2)
  decode_encode := by
    intro x rest
    rw [List.append_assoc, c.decode_encode, Option.bind_some, (d x.1).decode_encode,
      Option.map_some]
  decode_sound := by
    intro l x rest h
    obtain ⟨⟨a, r⟩, hc, h⟩ := Option.bind_eq_some_iff.mp h
    obtain ⟨⟨g, r'⟩, hd, he⟩ := Option.map_eq_some_iff.mp h
    simp only [Prod.mk.injEq] at he
    obtain ⟨rfl, rfl⟩ := he
    have hr : r = (d a).encode g ++ r' := (d a).decode_sound hd
    rw [c.decode_sound hc, hr, List.append_assoc]

/-- A run of exactly `n` symbols. -/
def block (β : Type) (n : Nat) : Codec β { l : List β // l.length = n } where
  encode x := x.1
  decode l := if h : n ≤ l.length then
    some (⟨l.take n, List.length_take_of_le h⟩, l.drop n) else none
  decode_encode := by
    intro ⟨x, hx⟩ rest
    subst hx
    rw [dif_pos (by simp)]
    simp
  decode_sound := by
    intro l x rest h
    split at h
    · injection h with h
      injection h with h1 h2
      subst h1; subst h2
      exact (List.take_append_drop n l).symm
    · exact absurd h (by simp)

/-- A value stored in a fixed number of symbols, every string of that length being some value. -/
def fixed (n : Nat) (enc : α → List β) (dec : List β → α) (hlen : ∀ a, (enc a).length = n)
    (hdec : ∀ a, dec (enc a) = a) (henc : ∀ l, l.length = n → enc (dec l) = l) : Codec β α :=
  (block β n).equiv
    { toFun := fun x => dec x.1
      invFun := fun a => ⟨enc a, hlen a⟩
      left_inv := fun x => Subtype.ext (henc x.1 x.2)
      right_inv := hdec }

/-- Strings in which `t` does not occur. -/
abbrev Without (t : β) : Type := { l : List β // t ∉ l }

variable [DecidableEq β]

/-- The symbols up to the first `t`. -/
def upTo (t : β) (l : List β) : Without t :=
  ⟨l.takeWhile (fun x => x != t), fun h => by simpa using List.mem_takeWhile_imp h⟩

theorem takeWhile_ne_append {t : β} {xs : List β} (h : t ∉ xs) (rest : List β) :
    (xs ++ t :: rest).takeWhile (fun x => x != t) = xs := by
  induction xs with
  | nil => simp
  | cons x xs ih =>
      have hx : x ≠ t := fun he => h (he ▸ List.mem_cons_self ..)
      have hxs : t ∉ xs := fun hm => h (List.mem_cons_of_mem _ hm)
      rw [List.cons_append, List.takeWhile_cons, if_pos (by simpa using hx), ih hxs]

theorem upTo_append {t : β} (s : Without t) (rest : List β) : upTo t (s.1 ++ t :: rest) = s :=
  Subtype.ext (takeWhile_ne_append s.2 rest)

/-- A string that holds a terminator splits at the first one. -/
theorem eq_upTo_append {t : β} {l : List β} (h : t ∈ l) :
    l = (upTo t l).1 ++ t :: l.drop ((upTo t l).1.length + 1) := by
  obtain ⟨xs, ys, rfl, hxs⟩ := List.eq_append_cons_of_mem h
  have hup : (upTo t (xs ++ t :: ys)).1 = xs := takeWhile_ne_append hxs ys
  rw [hup, List.drop_append]
  simp

/-- A string closed by a terminator it does not contain. -/
def terminated (t : β) : Codec β (Without t) where
  encode s := s.1 ++ [t]
  decode l := if t ∈ l then some (upTo t l, l.drop ((upTo t l).1.length + 1)) else none
  decode_encode := by
    intro s rest
    have hl : s.1 ++ [t] ++ rest = s.1 ++ t :: rest := by simp
    rw [hl, if_pos (by simp), upTo_append, List.drop_append]
    simp
  decode_sound := by
    intro l s rest h
    split at h
    · rename_i hm
      injection h with h
      injection h with h1 h2
      subst h1; subst h2
      have := eq_upTo_append hm
      rw [List.append_assoc, List.singleton_append]
      exact this
    · exact absurd h (by simp)

omit [DecidableEq β]

/-! ## Streams -/

/-- Values laid end to end. -/
def encodeAll (c : Codec β α) : List α → List β
  | [] => []
  | a :: as => c.encode a ++ encodeAll c as

theorem encodeAll_append (c : Codec β α) (as bs : List α) :
    c.encodeAll (as ++ bs) = c.encodeAll as ++ c.encodeAll bs := by
  induction as with
  | nil => rfl
  | cons a as ih => rw [List.cons_append, encodeAll, encodeAll, ih, List.append_assoc]

/--
Read values from position `off` on for as long as the gate is open there and
there is a value to read. The first argument bounds the number of values.
-/
def collect (c : Codec β α) (gate : Nat → Bool) : Nat → Nat → List β → List α
  | 0, _, _ => []
  | fuel + 1, off, l =>
      if gate off then
        match c.decode l with
        | none => []
        | some (a, rest) => a :: collect c gate fuel (off + (c.encode a).length) rest
      else []

/-- The walk ends here: the gate is shut or there is nothing to read. -/
def Stops (c : Codec β α) (gate : Nat → Bool) (off : Nat) (l : List β) : Prop :=
  gate off = false ∨ c.decode l = none

theorem collect_of_stops {c : Codec β α} {gate : Nat → Bool} {off : Nat} {l : List β}
    (h : c.Stops gate off l) (fuel : Nat) : c.collect gate fuel off l = [] := by
  cases fuel with
  | zero => rfl
  | succ fuel =>
      rw [collect]
      rcases h with h | h
      · rw [h]; rfl
      · rw [h]; split <;> rfl

/--
**A walk over a stream sees a prefix of it**, provided it stops at the end. The
gate may cut it short; it never makes the walk see anything else.
-/
theorem collect_prefix {c : Codec β α} {gate : Nat → Bool} {as : List α} {off : Nat}
    {tail : List β} (h : c.Stops gate (off + (c.encodeAll as).length) tail) (fuel : Nat) :
    c.collect gate fuel off (c.encodeAll as ++ tail) <+: as := by
  induction as generalizing off fuel with
  | nil =>
      rw [encodeAll, List.length_nil, Nat.add_zero] at h
      have hnone : c.collect gate fuel off tail = [] := collect_of_stops h fuel
      rw [encodeAll, List.nil_append]
      exact hnone.symm ▸ List.nil_prefix
  | cons a as ih =>
      cases fuel with
      | zero => exact List.nil_prefix
      | succ fuel =>
          rw [encodeAll, List.length_append, ← Nat.add_assoc] at h
          rw [encodeAll, List.append_assoc, collect, c.decode_encode]
          split
          · exact (List.prefix_cons_inj a).mpr (ih h fuel)
          · exact List.nil_prefix

/-- The gate is open where each value of the stream starts. -/
def OpenAt (c : Codec β α) (gate : Nat → Bool) : Nat → List α → Prop
  | _, [] => True
  | off, a :: as => gate off = true ∧ OpenAt c gate (off + (c.encode a).length) as

theorem openAt_append {c : Codec β α} {gate : Nat → Bool} {as bs : List α} {off : Nat} :
    c.OpenAt gate off (as ++ bs) ↔
      c.OpenAt gate off as ∧ c.OpenAt gate (off + (c.encodeAll as).length) bs := by
  induction as generalizing off with
  | nil => simp [OpenAt, encodeAll]
  | cons a as ih =>
      rw [List.cons_append, OpenAt, OpenAt, ih, encodeAll, List.length_append, Nat.add_assoc,
        and_assoc]

/-- A gate is open all along if it is wherever the stream can be cut in front of a value. -/
theorem openAt_of_cuts {c : Codec β α} {gate : Nat → Bool} {as : List α} {off : Nat}
    (h : ∀ xs a ys, as = xs ++ a :: ys → gate (off + (c.encodeAll xs).length) = true) :
    c.OpenAt gate off as := by
  induction as generalizing off with
  | nil => trivial
  | cons a as ih =>
      refine ⟨h [] a as rfl, ih fun xs b ys hsplit => ?_⟩
      have := h (a :: xs) b ys (by rw [hsplit, List.cons_append])
      rwa [encodeAll, List.length_append, ← Nat.add_assoc] at this

theorem collect_eq {c : Codec β α} {gate : Nat → Bool} {as : List α} {off : Nat} {tail : List β}
    (hopen : c.OpenAt gate off as) (h : c.Stops gate (off + (c.encodeAll as).length) tail)
    {fuel : Nat} (hf : as.length ≤ fuel) :
    c.collect gate fuel off (c.encodeAll as ++ tail) = as := by
  induction as generalizing off fuel with
  | nil =>
      rw [encodeAll, List.length_nil, Nat.add_zero] at h
      rw [encodeAll, List.nil_append, collect_of_stops h]
  | cons a as ih =>
      obtain ⟨fuel, rfl⟩ : ∃ f, fuel = f + 1 := ⟨fuel - 1, by rw [List.length_cons] at hf; omega⟩
      rw [encodeAll, List.length_append, ← Nat.add_assoc] at h
      rw [List.length_cons] at hf
      rw [encodeAll, List.append_assoc, collect, hopen.1, c.decode_encode]
      exact congrArg (a :: ·) (ih hopen.2 h (by omega))

/-- The values of a stream up to the first that starts behind a shut gate. -/
def openPart (c : Codec β α) (gate : Nat → Bool) : Nat → List α → List α
  | _, [] => []
  | off, a :: as =>
      if gate off then a :: openPart c gate (off + (c.encode a).length) as else []

/-- **Exactly what a walk sees** of a stream at the end of which it stops. -/
theorem collect_eq_openPart {c : Codec β α} {gate : Nat → Bool} {as : List α} {off : Nat}
    {tail : List β} (h : c.Stops gate (off + (c.encodeAll as).length) tail) {fuel : Nat}
    (hf : as.length ≤ fuel) :
    c.collect gate fuel off (c.encodeAll as ++ tail) = c.openPart gate off as := by
  induction as generalizing off fuel with
  | nil =>
      rw [encodeAll, List.length_nil, Nat.add_zero] at h
      rw [encodeAll, List.nil_append, collect_of_stops h, openPart]
  | cons a as ih =>
      obtain ⟨fuel, rfl⟩ : ∃ f, fuel = f + 1 := ⟨fuel - 1, by rw [List.length_cons] at hf; omega⟩
      rw [encodeAll, List.length_append, ← Nat.add_assoc] at h
      rw [List.length_cons] at hf
      rw [encodeAll, List.append_assoc, collect, openPart, c.decode_encode]
      dsimp only
      rw [ih h (by omega)]

/-- **What a walk sees is there**, from where it started, each value behind an open gate. -/
theorem collect_sound (c : Codec β α) (gate : Nat → Bool) (fuel off : Nat) (l : List β) :
    ∃ tail, l = c.encodeAll (c.collect gate fuel off l) ++ tail ∧
      c.OpenAt gate off (c.collect gate fuel off l) := by
  induction fuel generalizing off l with
  | zero => exact ⟨l, rfl, trivial⟩
  | succ fuel ih =>
      rw [collect]
      split
      · rename_i hg
        cases hd : c.decode l with
        | none => exact ⟨l, rfl, trivial⟩
        | some p =>
            obtain ⟨tail, ht, hopen⟩ := ih (off + (c.encode p.1).length) p.2
            refine ⟨tail, ?_, hg, hopen⟩
            rw [encodeAll, List.append_assoc, ← ht]
            exact c.decode_sound hd
      · exact ⟨l, rfl, trivial⟩

end Codec
