import LibBun.Lib.BoundedList
import LibBun.Proof.Stream

/-!
# The register block is a bounded list

`bun_frame_register_append` and `bun_frame_register_get` share ten bytes for each
register and a count. To a caller on a little-endian host they are a list of at most
`register_buffer_size / 10` registers, and `Represents` is what it takes: the count is
the length of the list, the entry at every index is the item, and whatever lies behind
the buffer is what it was.

An append is a push (`Represents.append`), so any run of appends is a run of pushes.
-/

namespace LibBun

variable {h : Host}

/-- What `register_data` points to. -/
def BunFrame.dataBytes (f : BunFrame) : List UInt8 := (f.registerData.map DataPtr.bytes).getD []

/-! ## One entry -/

/-- The ten bytes of a register. -/
def registerBytes (reg : Nat × UInt64) : List UInt8 :=
  LittleEndian.encode 2 reg.1 ++ LittleEndian.encode 8 reg.2.toNat

theorem length_registerBytes (reg : Nat × UInt64) : (registerBytes reg).length = registerSize := by
  rw [registerBytes, List.length_append, LittleEndian.length_encode, LittleEndian.length_encode,
    registerSize]

/-- A few bytes copied to an object that was zero, as in `bun_frame_register_get`. -/
theorem decode_patch_zero {w k v : Nat} (hk : k ≤ w) :
    LittleEndian.decode (Region.patch (LittleEndian.encode w 0) 0 (LittleEndian.encode k v))
      = v % 256 ^ k := by
  have hfits : 0 + (LittleEndian.encode k v).length ≤ (LittleEndian.encode w 0).length := by
    simpa using hk
  have hpatch := Region.drop_patch_of_fits hfits
  rw [LittleEndian.encode_zero, List.drop_zero, Nat.zero_add, List.drop_replicate] at hpatch
  rw [LittleEndian.encode_zero]
  exact (congrArg LittleEndian.decode hpatch).trans
    ((LittleEndian.decode_append_zeros ..).trans (LittleEndian.decode_encode ..))

/-- An entry that holds the bytes of a register is that register. -/
theorem registerAt_of_bytes (hend : h.endian = .little) {data : List UInt8} {i : Nat}
    {reg : Nat × UInt64} (hid : reg.1 < 65536)
    (hdata : (data.drop (registerSize * i)).take registerSize = registerBytes reg) :
    registerAt h data i = reg := by
  have hin : registerSize * i + registerSize ≤ data.length := by
    have hlen := congrArg List.length hdata
    rw [length_registerBytes, List.length_take, List.length_drop] at hlen
    rw [registerSize] at hlen ⊢
    omega
  have hlow : Region.peek 0 data ((registerSize * i : Nat) : Int) 2
      = LittleEndian.encode 2 reg.1 := by
    rw [Region.peek_of_inside (by rw [registerSize] at hin ⊢; omega)]
    have htake := congrArg (List.take 2) hdata
    rw [List.take_take] at htake
    exact htake.trans (List.take_left' (LittleEndian.length_encode ..))
  have hhigh : Region.peek 0 data ((registerSize * i + 2 : Nat) : Int) 8
      = LittleEndian.encode 8 reg.2.toNat := by
    rw [Region.peek_of_inside (by rw [registerSize] at hin ⊢; omega)]
    have hdrop := congrArg (List.drop 2) hdata
    rw [List.drop_take, List.drop_drop] at hdrop
    exact hdrop.trans (List.drop_left' (LittleEndian.length_encode ..))
  have hid' : reg.1 % 256 ^ 2 = reg.1 := Nat.mod_eq_of_lt hid
  have hvalue : reg.2.toNat % 256 ^ 8 = reg.2.toNat := Nat.mod_eq_of_lt reg.2.toNat_lt
  rw [registerAt_eq, hlow, hhigh]
  simp only [Host.valueOf, Host.bytesOf, hend]
  rw [decode_patch_zero (by omega), decode_patch_zero (by omega), hid', hvalue,
    UInt64.ofNat_toNat]

/-- An entry of a block is told by its ten bytes. -/
theorem registerAt_congr {data data' : List UInt8} {hi : Int} {i : Nat}
    (hsame : Region.SameOn 0 hi data data') (hhi : (registerSize * (i + 1) : Nat) ≤ hi)
    (hin : registerSize * (i + 1) ≤ data.length) : registerAt h data i = registerAt h data' i := by
  rw [registerSize] at hhi hin
  have hlen := hsame.1
  rw [registerAt_eq, registerAt_eq, registerSize, Region.peek_of_inside (by omega),
    Region.peek_of_inside (by omega), Region.peek_of_inside (by omega),
    Region.peek_of_inside (by omega), hsame.slice (Nat.zero_le _) (by omega),
    hsame.slice (Nat.zero_le _) (by omega)]

/-- The bytes of a register, stored at an index of the block, are the entry there. -/
theorem registerAt_patch_self (hend : h.endian = .little) {data : List UInt8} {n : Nat}
    {reg : Nat × UInt64} (hid : reg.1 < 65536) (hfits : registerSize * (n + 1) ≤ data.length) :
    registerAt h (Region.patch data (registerSize * n : Nat) (registerBytes reg)) n = reg := by
  refine registerAt_of_bytes hend hid ?_
  rw [Region.drop_patch_of_fits (by rw [length_registerBytes]; exact hfits)]
  exact List.take_left' (length_registerBytes reg)

/-- Earlier entries lie before the bytes that are stored. -/
theorem registerAt_patch_of_lt {data : List UInt8} {i n : Nat} (hi : i < n)
    (hfits : registerSize * (n + 1) ≤ data.length) (reg : Nat × UInt64) :
    registerAt h (Region.patch data (registerSize * n : Nat) (registerBytes reg)) i
      = registerAt h data i := by
  have hsame := Region.sameOn_patch_above 0 data (registerBytes reg)
    (Int.le_refl ((registerSize * n : Nat) : Int))
  refine (registerAt_congr hsame ?_ ?_).symm
  · rw [registerSize]
    omega
  · rw [registerSize] at hfits ⊢
    omega

/-! ## One append -/

/-- Only a full block turns a register away. -/
theorem append_eq_false {f : BunFrame} {reg : Nat} {value : UInt64}
    (hno : (bunFrameRegisterAppend h f reg value).1 = false) :
    (bunFrameRegisterAppend h f reg value).2 = f := by
  by_cases hfull : f.registerBufferSize / registerSize ≤ f.registerCount
  · rw [bunFrameRegisterAppend_of_full hfull]
  · obtain ⟨data, heq⟩ :=
      bunFrameRegisterAppend_of_room (h := h) (Nat.lt_of_not_le hfull) reg value
    rw [heq] at hno
    exact Bool.noConfusion hno

theorem append_of_room (hend : h.endian = .little) {f : BunFrame}
    (hroom : f.registerCount < f.registerBufferSize / registerSize) {p : DataPtr}
    (hdata : f.registerData = some p) (reg : Nat × UInt64) :
    bunFrameRegisterAppend h f reg.1 reg.2 =
      (true, { f with
        registerData := some { p with
          bytes := Region.patch p.bytes (registerSize * f.registerCount : Nat) (registerBytes reg) }
        registerCount := f.registerCount + 1 }) := by
  have hlow : (LittleEndian.encode 4 (reg.1 % 2 ^ 16)).take 2 = LittleEndian.encode 2 reg.1 := by
    rw [← LittleEndian.encode_mod 2 reg.1]
    rfl
  rw [bunFrameRegisterAppend, maxRegisters_eq, if_neg (by omega), hdata, registerBytes,
    Region.patch_append, LittleEndian.length_encode]
  simp only [Host.htole, Host.bytesOf, hend, Option.map_some, hlow, Nat.cast_mul, Nat.cast_ofNat]

/-! ## A run of appends -/

/-- The registers a block has room for. -/
abbrev RegisterList (b : Nat) : Type := BoundedList (Nat × UInt64) (b / registerSize)

/-- The frame's block, which `f₀` had at first, is now the list. -/
structure Represents (h : Host) (f₀ f : BunFrame) (l : RegisterList f₀.registerBufferSize) :
    Prop where
  count : f.registerCount = l.items.length
  size : f.registerBufferSize = f₀.registerBufferSize
  addr : f.registerData.map DataPtr.addr = f₀.registerData.map DataPtr.addr
  entry : ∀ i reg, l.items[i]? = some reg → registerAt h f.dataBytes i = reg
  /-- The bytes behind the buffer are what they were. -/
  behind : Region.SameOn f₀.registerBufferSize f₀.dataBytes.length f₀.dataBytes f.dataBytes

namespace Represents

variable {f₀ f : BunFrame} {l : RegisterList f₀.registerBufferSize}

theorem empty (hcount : f₀.registerCount = 0) : Represents h f₀ f₀ BoundedList.empty :=
  ⟨hcount, rfl, rfl, fun _ _ hi => absurd hi (by simp [BoundedList.empty]),
    Region.SameOn.refl ..⟩

/-- As long as there is room in the list, there is room for ten more bytes in the block. -/
theorem block_of_room (hdata : f₀.registerBufferSize ≤ f₀.dataBytes.length)
    (hrep : Represents h f₀ f l) (hroom : 0 < l.room) :
    f.registerCount < f.registerBufferSize / registerSize
      ∧ ∃ p, f.registerData = some p ∧ f.dataBytes = p.bytes
        ∧ registerSize * (f.registerCount + 1) ≤ p.bytes.length := by
  have hlt : f.registerCount < f.registerBufferSize / registerSize := by
    rw [hrep.count, hrep.size]
    rw [BoundedList.room] at hroom
    omega
  have hfits : registerSize * (f.registerCount + 1) ≤ f.dataBytes.length := by
    have hlen := hrep.behind.1
    have hsize := hrep.size
    rw [registerSize] at hlt ⊢
    omega
  refine ⟨hlt, ?_⟩
  cases hd : f.registerData with
  | none =>
      -- `NULL` has no bytes
      rw [BunFrame.dataBytes, hd, registerSize] at hfits
      exact absurd hfits (by simp)
  | some p =>
      have hbytes : f.dataBytes = p.bytes := by
        rw [BunFrame.dataBytes, hd]
        rfl
      exact ⟨p, rfl, hbytes, hbytes ▸ hfits⟩

/-- **An append is a push.** -/
theorem append (hend : h.endian = .little) (hdata : f₀.registerBufferSize ≤ f₀.dataBytes.length)
    (hrep : Represents h f₀ f l) {reg : Nat × UInt64} (hid : reg.1 < 65536) :
    (bunFrameRegisterAppend h f reg.1 reg.2).1 = (l.push reg).1
      ∧ Represents h f₀ (bunFrameRegisterAppend h f reg.1 reg.2).2 (l.push reg).2 := by
  by_cases hroom : 0 < l.room
  · obtain ⟨hok, hitems, _⟩ := l.push_of_room hroom reg
    obtain ⟨hlt, p, hp, hbytes, hfits⟩ := hrep.block_of_room hdata hroom
    have hend' : ((registerSize * f.registerCount : Nat) : Int) + (registerBytes reg).length
        ≤ (f₀.registerBufferSize : Nat) := by
      rw [length_registerBytes, ← hrep.size]
      rw [registerSize] at hlt ⊢
      omega
    rw [append_of_room hend hlt hp reg, hok]
    refine ⟨rfl, ?_, hrep.size, ?_, fun i reg' hi => ?_, ?_⟩
    · rw [hitems, List.length_append, hrep.count, List.length_singleton]
    · rw [← hrep.addr, hp]
      rfl
    · -- earlier entries are not hit, and the last is the one that was stored
      show registerAt h (Region.patch p.bytes _ _) i = reg'
      rw [hitems] at hi
      by_cases hold : i < l.items.length
      · rw [List.getElem?_append_left hold] at hi
        rw [registerAt_patch_of_lt (by rw [hrep.count]; exact hold) hfits, ← hbytes]
        exact hrep.entry i reg' hi
      · have hlast : i = f.registerCount := by
          have hlen := (List.getElem?_eq_some_iff.mp hi).1
          rw [List.length_append, List.length_singleton] at hlen
          rw [hrep.count]
          omega
        rw [hlast, hrep.count, List.getElem?_concat_length] at hi
        injection hi with hi
        rw [hlast, ← hi]
        exact registerAt_patch_self hend hid hfits
    · have hbelow := Region.sameOn_patch_below (f₀.dataBytes.length : Int) p.bytes
        (registerBytes reg) hend'
      have hbehind := hrep.behind
      rw [hbytes] at hbehind
      exact hbehind.trans hbelow
  · have hfull : f.registerBufferSize / registerSize ≤ f.registerCount := by
      rw [hrep.count, hrep.size]
      rw [BoundedList.room] at hroom
      omega
    rw [bunFrameRegisterAppend_of_full hfull, BoundedList.push_of_full (by omega)]
    exact ⟨rfl, hrep⟩

/-- `bun_frame_register_get` looks an item up. -/
theorem get (hrep : Represents h f₀ f l) (i : Nat) :
    bunFrameRegisterGet h f i = l.items[i]? := by
  by_cases hi : i < f.registerCount
  · have hlen : i < l.items.length := by rw [← hrep.count]; exact hi
    rw [bunFrameRegisterGet, if_neg (by omega), List.getElem?_eq_getElem hlen]
    exact congrArg some (hrep.entry i _ (List.getElem?_eq_getElem hlen))
  · rw [bunFrameRegisterGet, if_pos (by omega), List.getElem?_eq_none (by rw [← hrep.count]; omega)]

end Represents

/-! ## The list a caller sees -/

/-- The appends that returned true, in order. -/
def acceptedAppends (h : Host) (frame : BunFrame) (regs : List (Nat × UInt64)) :
    List (Nat × UInt64) :=
  ((regs.zip (appendResults h frame regs)).filter Prod.snd).map Prod.fst

/-- What is promised of a block of `b` bytes at `register_data` after a run of appends. -/
structure BoundedBlock (h : Host) (f : BunFrame) (b : Nat) (regs : List (Nat × UInt64)) :
    Prop where
  /-- The `k`-th call, counted from one, returns true exactly for `k ≤ b / 10`. -/
  results : ∀ k, 1 ≤ k → k ≤ regs.length →
    (appendResults h f regs)[k - 1]? = some (decide (k ≤ b / registerSize))
  /-- A further call that returns false changes nothing. -/
  refused : ∀ reg : Nat × UInt64,
    (bunFrameRegisterAppend h (appendRegisters h f regs) reg.1 reg.2).1 = false →
    (bunFrameRegisterAppend h (appendRegisters h f regs) reg.1 reg.2).2 = appendRegisters h f regs
  /-- The block is where it was, and nothing behind the buffer is touched. -/
  behind : (appendRegisters h f regs).registerData.map DataPtr.addr
      = f.registerData.map DataPtr.addr
    ∧ (appendRegisters h f regs).dataBytes.length = f.dataBytes.length
    ∧ ∀ i, b ≤ i → (appendRegisters h f regs).dataBytes[i]? = f.dataBytes[i]?
  get : ∀ i, bunFrameRegisterGet h (appendRegisters h f regs) i
    = (acceptedAppends h f regs)[i]?

/--
**The register block is a bounded list.** A frame that has no registers yet and a
block of `b` bytes at `register_data`, on a little-endian host, and any run of
appends.
-/
theorem register_block_bounded (hend : h.endian = .little) {f : BunFrame}
    (hcount : f.registerCount = 0) (hdata : f.registerBufferSize ≤ f.dataBytes.length)
    {regs : List (Nat × UInt64)} (hid : ∀ reg ∈ regs, reg.1 < 65536) :
    BoundedBlock h f f.registerBufferSize regs := by
  have hstep : ∀ s (l : RegisterList f.registerBufferSize) (reg : Nat × UInt64),
      Represents h f s l → reg.1 < 65536 →
        (bunFrameRegisterAppend h s reg.1 reg.2).1 = (l.push reg).1
          ∧ Represents h f (bunFrameRegisterAppend h s reg.1 reg.2).2 (l.push reg).2 :=
    fun s l reg hs hreg => hs.append hend hdata hreg
  obtain ⟨hresults, hrep⟩ := Run.simulates hstep (Represents.empty hcount) hid
  have hroom : (BoundedList.empty : RegisterList f.registerBufferSize).room
      = f.registerBufferSize / registerSize := Nat.sub_zero _
  refine ⟨fun k h1 hk => ?_, fun reg hno => append_eq_false hno, ⟨hrep.addr, hrep.behind.1.symm,
    fun i hi => ?_⟩, fun i => ?_⟩
  · rw [appendResults, hresults, BoundedList.getElem?_outputs _ (by omega), hroom]
    congr 2
    exact propext (by omega)
  · by_cases hlt : i < f.dataBytes.length
    · exact (hrep.behind.2 i hi (by omega)).symm
    · have hlen : f.dataBytes.length = (appendRegisters h f regs).dataBytes.length :=
        hrep.behind.1
      rw [List.getElem?_eq_none (by omega), List.getElem?_eq_none (by omega)]
  · rw [acceptedAppends, appendResults, hresults]
    exact (hrep.get i).trans (by rw [BoundedList.items_final]; rfl)

/-- Two registers go into 25 bytes, a third does not. -/
theorem register_block_bounded_three :
    BoundedBlock ⟨.w64, .little⟩
      { BunFrame.zero with
        registerBufferSize := 25
        registerData := some ⟨0, List.replicate 30 0⟩ } 25 [(1, 10), (2, 20), (3, 30)] :=
  register_block_bounded rfl rfl (by decide) (by decide)

end LibBun
