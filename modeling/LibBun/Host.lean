import LibBun.Lib.LittleEndian

/-!
# The host a build runs on

The library is compiled for 32- and 64-bit targets of either byte order, and
`bun_stream.c` has a branch for the first (`BUN_32BIT`). What a build inherits
from its target is the width of `size_t` and `ptrdiff_t`, and the order in which
an integer object lies in memory. Everything else in the model is the same on
every host, so a host is just these two choices, and every function that depends
on one takes the host as its first argument.

Values of type `size_t` are naturals below `sizeMod`. Arithmetic on them is
ordinary arithmetic followed by `toSizeT`, and a conversion to `ptrdiff_t` or
`ssize_t` is `toPtrdiffT`.
-/

namespace LibBun

/-- The width of a machine word. -/
inductive WordSize where
  | w32
  | w64
deriving DecidableEq, Repr

/-- The order of the bytes of an integer object. -/
inductive Endian where
  | little
  | big
deriving DecidableEq, Repr

/-- A compilation target. -/
structure Host where
  word : WordSize
  endian : Endian
deriving DecidableEq, Repr

namespace Host

/-- `sizeof(size_t)`. -/
def sizeofSizeT (h : Host) : Nat :=
  match h.word with
  | .w32 => 4
  | .w64 => 8

/-- One past the largest `size_t`. -/
def sizeMod (h : Host) : Nat :=
  match h.word with
  | .w32 => 2 ^ 32
  | .w64 => 2 ^ 64

/-- `PTRDIFF_MAX`, which is also the largest size an object can have. -/
def ptrdiffMax (h : Host) : Nat :=
  match h.word with
  | .w32 => 2 ^ 31 - 1
  | .w64 => 2 ^ 63 - 1

/-- Conversion to `size_t`. -/
def toSizeT (h : Host) (z : Int) : Nat := (z % h.sizeMod).toNat

/-- Conversion to `ptrdiff_t` or `ssize_t`. -/
def toPtrdiffT (h : Host) (z : Int) : Int := Int.bmod z h.sizeMod

/-- The two hosts, in numbers. -/
theorem sizes (h : Host) :
    (h.sizeofSizeT = 4 ∧ h.sizeMod = 4294967296 ∧ h.ptrdiffMax = 2147483647) ∨
    (h.sizeofSizeT = 8 ∧ h.sizeMod = 18446744073709551616
      ∧ h.ptrdiffMax = 9223372036854775807) := by
  obtain ⟨word, endian⟩ := h
  cases word
  · exact Or.inl ⟨rfl, rfl, rfl⟩
  · exact Or.inr ⟨rfl, rfl, rfl⟩

theorem ptrdiffMax_lt_sizeMod (h : Host) : h.ptrdiffMax < h.sizeMod := by
  rcases h.sizes with ⟨_, hm, hp⟩ | ⟨_, hm, hp⟩ <;> omega

theorem toSizeT_lt (h : Host) (z : Int) : h.toSizeT z < h.sizeMod := by
  unfold toSizeT
  rcases h.sizes with ⟨_, hm, _⟩ | ⟨_, hm, _⟩ <;> rw [hm] <;> omega

theorem toSizeT_of_lt {h : Host} {z : Int} (h0 : 0 ≤ z) (h1 : z < h.sizeMod) :
    (h.toSizeT z : Int) = z := by
  rw [toSizeT, Int.emod_eq_of_lt h0 h1, Int.toNat_of_nonneg h0]

/-- A difference that went below zero comes out near the top of the range. -/
theorem toSizeT_of_neg {h : Host} {z : Int} (h0 : z < 0) (h1 : -(h.sizeMod : Int) ≤ z) :
    (h.toSizeT z : Int) = z + h.sizeMod := by
  unfold toSizeT
  rcases h.sizes with ⟨_, hm, _⟩ | ⟨_, hm, _⟩ <;> rw [hm] at h1 ⊢ <;> omega

theorem toPtrdiffT_of_le {h : Host} {z : Int} (h0 : -(h.ptrdiffMax : Int) - 1 ≤ z)
    (h1 : z ≤ h.ptrdiffMax) : h.toPtrdiffT z = z := by
  unfold toPtrdiffT
  rcases h.sizes with ⟨_, hm, hp⟩ | ⟨_, hm, hp⟩ <;> rw [hm] <;> rw [hp] at h0 h1 <;>
    exact Int.bmod_eq_of_le (by omega) (by omega)

/-! ## Objects and byte order -/

/-- The bytes of a `w`-byte unsigned object with value `v`, in memory order. -/
def bytesOf (h : Host) (w v : Nat) : List UInt8 :=
  match h.endian with
  | .little => LittleEndian.encode w v
  | .big => (LittleEndian.encode w v).reverse

/-- The value of an unsigned object with these bytes. -/
def valueOf (h : Host) (bs : List UInt8) : Nat :=
  match h.endian with
  | .little => LittleEndian.decode bs
  | .big => LittleEndian.decode bs.reverse

/-- `htole16`, `htole64`: the value whose object bytes are little-endian. -/
def htole (h : Host) (w v : Nat) : Nat :=
  match h.endian with
  | .little => v
  | .big => LittleEndian.swap w v

/-- `le16toh`, `le64toh`. -/
def letoh (h : Host) (w v : Nat) : Nat :=
  match h.endian with
  | .little => v
  | .big => LittleEndian.swap w v

@[simp] theorem length_bytesOf (h : Host) (w v : Nat) : (h.bytesOf w v).length = w := by
  unfold bytesOf
  split <;> simp

/-- An object converted with `htole` lies in memory least significant byte first. -/
theorem bytesOf_htole (h : Host) (w v : Nat) :
    h.bytesOf w (h.htole w v) = LittleEndian.encode w v := by
  unfold bytesOf htole
  cases h.endian with
  | little => rfl
  | big =>
      dsimp only
      rw [LittleEndian.encode_swap, List.reverse_reverse]

/-- Reading little-endian bytes into an object and converting it gives their value. -/
theorem letoh_valueOf (h : Host) {w : Nat} {bs : List UInt8} (hw : bs.length = w) :
    h.letoh w (h.valueOf bs) = LittleEndian.decode bs := by
  unfold letoh valueOf
  cases h.endian with
  | little => rfl
  | big =>
      dsimp only
      have hrev : bs.reverse.length = w := by rw [List.length_reverse, hw]
      rw [LittleEndian.swap, LittleEndian.encode_decode_of_length hrev, List.reverse_reverse]

end Host

end LibBun
