import LibBun.Lib.Codec
import Mathlib.Data.Nat.Digits.Lemmas

/-!
# Text

A numeral is the digits of a number, most significant first, perhaps with zeros in
front to fill a field. Whatever the digits look like, the number can be told from it as
long as the digits can be told apart.

A text is made of such pieces laid end to end. It can be taken apart again if no piece
is a prefix of what stands for something else: `PrefixFree` is this property of a way to
write values, and it carries over to values written one after the other.
-/

namespace Text

variable {α β : Type}

/-! ## Numerals -/

section Numeral

variable {digit : Nat → β} {value : β → Nat} {b : Nat}

/-- The digits of a number, least significant first. There is at least one. -/
def digits (b n : Nat) : List Nat := if n = 0 then [0] else Nat.digits b n

/-- The numeral of a number in base `b`. -/
def numeral (digit : Nat → β) (b n : Nat) : List β := ((digits b n).map digit).reverse

/-- The numeral, with zeros in front of it if it is shorter than the field. -/
def padded (width : Nat) (digit : Nat → β) (b n : Nat) : List β :=
  List.replicate (width - (numeral digit b n).length) (digit 0) ++ numeral digit b n

/-- The number a numeral stands for. -/
def number (value : β → Nat) (b : Nat) (l : List β) : Nat := Nat.ofDigits b (l.reverse.map value)

theorem ofDigits_digits (b n : Nat) : Nat.ofDigits b (digits b n) = n := by
  unfold digits
  split
  · rename_i hzero
    rw [hzero, Nat.ofDigits_singleton]
  · exact Nat.ofDigits_digits b n

theorem lt_of_mem_digits (hb : 1 < b) {n d : Nat} (hd : d ∈ digits b n) : d < b := by
  unfold digits at hd
  split at hd
  · rw [List.mem_singleton.mp hd]
    omega
  · exact Nat.digits_lt_base hb hd

/-- A numeral is made of digits. -/
theorem mem_numeral (hb : 1 < b) {n : Nat} {x : β} (hx : x ∈ numeral digit b n) :
    ∃ d < b, digit d = x := by
  rw [numeral, List.mem_reverse] at hx
  obtain ⟨d, hd, rfl⟩ := List.mem_map.mp hx
  exact ⟨d, lt_of_mem_digits hb hd, rfl⟩

theorem mem_padded (hb : 1 < b) {width n : Nat} {x : β} (hx : x ∈ padded width digit b n) :
    ∃ d < b, digit d = x := by
  rcases List.mem_append.mp hx with hx | hx
  · rw [List.eq_of_mem_replicate hx]
    exact ⟨0, by omega, rfl⟩
  · exact mem_numeral hb hx

/-- **A numeral stands for one number**, with zeros in front of it or without. -/
theorem number_replicate_numeral (hb : 1 < b) (hvalue : ∀ d < b, value (digit d) = d) (k n : Nat) :
    number value b (List.replicate k (digit 0) ++ numeral digit b n) = n := by
  have hdigits : (digits b n).map (value ∘ digit) = digits b n := by
    have hid : ∀ d ∈ digits b n, (value ∘ digit) d = id d :=
      fun d hd => hvalue d (lt_of_mem_digits hb hd)
    rw [List.map_congr_left hid, List.map_id]
  rw [number, numeral, List.reverse_append, List.reverse_reverse, List.reverse_replicate,
    List.map_append, List.map_map, List.map_replicate, hvalue 0 (by omega), hdigits,
    Nat.ofDigits_append_replicate_zero, ofDigits_digits]

theorem numeral_injective (hb : 1 < b) (hvalue : ∀ d < b, value (digit d) = d) :
    Function.Injective (numeral digit b) := by
  intro m n heq
  have hm := number_replicate_numeral hb hvalue 0 m
  have hn := number_replicate_numeral hb hvalue 0 n
  rw [heq] at hm
  exact hm.symm.trans hn

theorem padded_injective (hb : 1 < b) (hvalue : ∀ d < b, value (digit d) = d) (width : Nat) :
    Function.Injective (padded width digit b) := by
  intro m n heq
  have hm := number_replicate_numeral hb hvalue (width - (numeral digit b m).length) m
  have hn := number_replicate_numeral hb hvalue (width - (numeral digit b n).length) n
  rw [padded, padded] at heq
  rw [heq] at hm
  exact hm.symm.trans hn

end Numeral

/-! ## Pieces laid end to end -/

/-- A piece that ends in front of the first `t` can be told from what follows. -/
theorem append_cons_inj [DecidableEq β] {t : β} {xs ys r s : List β} (hx : t ∉ xs) (hy : t ∉ ys)
    (heq : xs ++ t :: r = ys ++ t :: s) : xs = ys ∧ r = s := by
  have hcodec : (Codec.terminated t).encode ⟨xs, hx⟩ ++ r
      = (Codec.terminated t).encode ⟨ys, hy⟩ ++ s := by
    show xs ++ [t] ++ r = ys ++ [t] ++ s
    rw [List.append_assoc, List.append_assoc]
    exact heq
  obtain ⟨hxy, hrs⟩ := (Codec.terminated t).prefix_free hcodec
  exact ⟨congrArg Subtype.val hxy, hrs⟩

/--
What is written for one value, with anything behind it, is not what is written for
another. Only values with the property `P` count.
-/
def PrefixFree (P : α → Prop) (write : α → List β) : Prop :=
  ∀ {a b : α} {r s : List β}, P a → P b → write a ++ r = write b ++ s → a = b ∧ r = s

namespace PrefixFree

variable {P : α → Prop} {write : α → List β}

/-- Equally many values, one after the other. -/
theorem flatMap (hw : PrefixFree P write) {l m : List α} (hl : ∀ a ∈ l, P a) (hm : ∀ a ∈ m, P a)
    (hlen : l.length = m.length) {r s : List β}
    (heq : l.flatMap write ++ r = m.flatMap write ++ s) : l = m ∧ r = s := by
  induction l generalizing m with
  | nil =>
      obtain rfl : m = [] := List.length_eq_zero_iff.mp hlen.symm
      exact ⟨rfl, heq⟩
  | cons a l ih =>
      cases m with
      | nil => exact absurd hlen (Nat.succ_ne_zero _)
      | cons b m =>
          rw [List.flatMap_cons, List.flatMap_cons, List.append_assoc, List.append_assoc] at heq
          obtain ⟨rfl, hrest⟩ :=
            hw (hl a (List.mem_cons_self ..)) (hm b (List.mem_cons_self ..)) heq
          obtain ⟨rfl, hrs⟩ := ih (fun x hx => hl x (List.mem_cons_of_mem _ hx))
            (fun x hx => hm x (List.mem_cons_of_mem _ hx)) (Nat.succ.inj hlen) hrest
          exact ⟨rfl, hrs⟩

/-- **A whole text can be read in one way only**, if no value is written as nothing. -/
theorem flatMap_inj (hw : PrefixFree P write) (hne : ∀ a, write a ≠ []) {l m : List α}
    (hl : ∀ a ∈ l, P a) (hm : ∀ a ∈ m, P a) (heq : l.flatMap write = m.flatMap write) : l = m := by
  induction l generalizing m with
  | nil =>
      cases m with
      | nil => rfl
      | cons b m =>
          rw [List.flatMap_cons] at heq
          exact absurd (List.append_eq_nil_iff.mp heq.symm).1 (hne b)
  | cons a l ih =>
      cases m with
      | nil =>
          rw [List.flatMap_cons] at heq
          exact absurd (List.append_eq_nil_iff.mp heq).1 (hne a)
      | cons b m =>
          rw [List.flatMap_cons, List.flatMap_cons] at heq
          obtain ⟨rfl, hrest⟩ :=
            hw (hl a (List.mem_cons_self ..)) (hm b (List.mem_cons_self ..)) heq
          rw [ih (fun x hx => hl x (List.mem_cons_of_mem _ hx))
            (fun x hx => hm x (List.mem_cons_of_mem _ hx)) hrest]

end PrefixFree

end Text
