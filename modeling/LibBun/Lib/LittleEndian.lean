import Mathlib.Tactic.Ring

/-!
# Integers as byte strings

A fixed-width unsigned integer is stored as a run of bytes, least significant
byte first. This module has the two directions and what ties them together; the
big-endian order is the same string reversed, so it needs no theory of its own.

Nothing here knows about any particular format. Widths are byte counts, values
are naturals, and a value too large for its width loses its high bytes, the way
a C conversion to an unsigned type does.
-/

namespace LittleEndian

/-- The low `w` bytes of `n`, least significant first. -/
def encode : Nat → Nat → List UInt8
  | 0, _ => []
  | w + 1, n => UInt8.ofNat n :: encode w (n / 256)

/-- The number a byte string stands for. -/
def decode : List UInt8 → Nat
  | [] => 0
  | b :: bs => b.toNat + 256 * decode bs

@[simp] theorem length_encode (w n : Nat) : (encode w n).length = w := by
  induction w generalizing n with
  | zero => rfl
  | succ w ih => rw [encode, List.length_cons, ih]

theorem decode_lt (bs : List UInt8) : decode bs < 256 ^ bs.length := by
  induction bs with
  | nil => simp [decode]
  | cons b bs ih =>
      have hb : b.toNat < 256 := b.toNat_lt
      rw [decode, List.length_cons, pow_succ]
      omega

/-- Reading back what was stored keeps exactly the bytes that fitted. -/
theorem decode_encode (w n : Nat) : decode (encode w n) = n % 256 ^ w := by
  induction w generalizing n with
  | zero => simp [encode, decode, Nat.mod_one]
  | succ w ih =>
      have hbyte : (UInt8.ofNat n).toNat = n % 256 := UInt8.toNat_ofNat'
      rw [encode, decode, ih, hbyte, pow_succ', Nat.mod_mul]

theorem decode_encode_of_lt {w n : Nat} (h : n < 256 ^ w) : decode (encode w n) = n := by
  rw [decode_encode, Nat.mod_eq_of_lt h]

/-- Every byte string is the encoding of the number it stands for. -/
theorem encode_decode (bs : List UInt8) : encode bs.length (decode bs) = bs := by
  induction bs with
  | nil => rfl
  | cons b bs ih =>
      have hb : b.toNat < 256 := b.toNat_lt
      have hhead : UInt8.ofNat (b.toNat + 256 * decode bs) = b := by
        apply UInt8.toNat_inj.mp
        rw [UInt8.toNat_ofNat']
        omega
      have htail : (b.toNat + 256 * decode bs) / 256 = decode bs := by omega
      rw [List.length_cons, decode, encode, hhead, htail, ih]

theorem encode_decode_of_length {w : Nat} {bs : List UInt8} (h : bs.length = w) :
    encode w (decode bs) = bs := by
  subst h; exact encode_decode bs

/-- Storing only looks at the value modulo the width. -/
theorem encode_mod (w n : Nat) : encode w (n % 256 ^ w) = encode w n := by
  have h := encode_decode_of_length (length_encode w n)
  rwa [decode_encode] at h

/-- A value of which not everything is lost has a byte that is not zero. -/
theorem exists_byte_ne_zero {w n : Nat} (h : n % 256 ^ w ≠ 0) :
    ∃ (j : Nat) (c : UInt8), (encode w n)[j]? = some c ∧ c ≠ 0 := by
  induction w generalizing n with
  | zero => exact absurd (Nat.mod_one n) h
  | succ w ih =>
      by_cases hlow : UInt8.ofNat n = 0
      · have hbyte : n % 256 = 0 := by
          rw [← UInt8.toNat_ofNat', hlow]
          rfl
        rw [pow_succ', Nat.mod_mul, hbyte, Nat.zero_add] at h
        obtain ⟨j, c, hj, hc⟩ := ih (n := n / 256) (fun hz => h (by rw [hz, Nat.mul_zero]))
        exact ⟨j + 1, c, hj, hc⟩
      · exact ⟨0, UInt8.ofNat n, rfl, hlow⟩

theorem encode_zero (w : Nat) : encode w 0 = List.replicate w 0 := by
  induction w with
  | zero => rfl
  | succ w ih => rw [encode, Nat.zero_div, ih, List.replicate_succ]; rfl

/-- High bytes that are zero add nothing. -/
theorem decode_append_zeros (bs : List UInt8) (n : Nat) :
    decode (bs ++ List.replicate n 0) = decode bs := by
  induction bs with
  | nil =>
      induction n with
      | zero => rfl
      | succ n ih =>
          rw [List.nil_append] at ih ⊢
          have hcons : decode (0 :: List.replicate n 0) = 256 * decode (List.replicate n 0) :=
            Nat.zero_add _
          rw [List.replicate_succ, hcons, ih]
          rfl
  | cons b bs ih => rw [List.cons_append, decode, decode, ih]

/-- The value with its `w` bytes in the opposite order. -/
def swap (w n : Nat) : Nat := decode (encode w n).reverse

theorem encode_swap (w n : Nat) : encode w (swap w n) = (encode w n).reverse :=
  encode_decode_of_length (by simp)

end LittleEndian
