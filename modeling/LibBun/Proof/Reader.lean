import LibBun.Grammar

/-!
# What `bun_frame_read` does

A reader inside its payload stands at an offset, and what it can read is the
rest of the payload from there. Every guarded step of the decoder has two
outcomes, told apart by the length of that rest or by a NUL in it, and the seven
steps together are exactly one step of `frameCodec` on the rest. That is
`bunFrameRead_cases`, the only statement about the decoder the rest of the
development uses.
-/

namespace LibBun

/-- Inside the payload, reading a header field is trusting it. -/
theorem HeaderField.read_eq_get {f : HeaderField} {mem : List UInt8}
    (h : f.start + f.width ≤ mem.length) : f.read mem 0 = some (f.get mem 0) := by
  rw [HeaderField.read, HeaderField.get, Int.zero_add, Region.load_of_inside h,
    Region.peek_of_inside h, Option.map_some]

/-- The reader is inside the payload, `off` bytes from its start. -/
structure ReaderAt (h : Host) (mem : List UInt8) (r : BunReader) (off : Nat) : Prop where
  buffer : r.data.buffer = 0
  size : r.data.size = mem.length
  cursor : r.data.cursor = off
  off_le : off ≤ mem.length
  mem_le : mem.length ≤ h.ptrdiffMax

theorem isSafeAccess_of_room {h : Host} {base : WriterReaderBase} {room : Nat}
    (hroom : base.buffer + base.size - base.cursor = room) (hlt : room < h.sizeMod) (n : Nat) :
    isSafeAccess h base n = (!base.overflow && decide (n ≤ room)) := by
  have hleft : h.toSizeT (base.buffer + base.size - base.cursor) = room := by
    have := Host.toSizeT_of_lt (h := h) (z := (room : Int)) (by omega) (by omega)
    rw [hroom]
    omega
  unfold isSafeAccess
  dsimp only
  rw [hleft]
  cases base.overflow <;> simp

namespace ReaderAt

variable {h : Host} {mem : List UInt8} {r : BunReader} {off : Nat}

/-- `cursor - buffer`, as a `size_t`. -/
theorem offset (hr : ReaderAt h mem r off) :
    h.toSizeT (r.data.cursor - r.data.buffer) = off := by
  have hle := hr.off_le
  have hmem := hr.mem_le
  have hmod := h.ptrdiffMax_lt_sizeMod
  have hexact := Host.toSizeT_of_lt (h := h) (z := (off : Int)) (by omega) (by omega)
  rw [hr.buffer, hr.cursor, Int.sub_zero]
  omega

/-- `data.size - offset`, as a `size_t`. -/
theorem left (hr : ReaderAt h mem r off) :
    h.toSizeT ((r.data.size : Int) - off) = mem.length - off := by
  have hle := hr.off_le
  have hmem := hr.mem_le
  have hmod := h.ptrdiffMax_lt_sizeMod
  have hexact := Host.toSizeT_of_lt (h := h) (z := ((mem.length : Nat) : Int) - off)
    (by omega) (by omega)
  rw [hr.size]
  omega

theorem setOverflow (hr : ReaderAt h mem r off) : ReaderAt h mem r.setOverflow off :=
  ⟨hr.buffer, hr.size, hr.cursor, hr.off_le, hr.mem_le⟩

theorem advance (hr : ReaderAt h mem r off) {n : Nat} (hn : off + n ≤ mem.length) :
    ReaderAt h mem (r.advance n) (off + n) where
  buffer := hr.buffer
  size := hr.size
  cursor := by
    have := hr.cursor
    show r.data.cursor + n = ((off + n : Nat) : Int)
    omega
  off_le := hn
  mem_le := hr.mem_le

theorem isSafeAccess (hr : ReaderAt h mem r off) (n : Nat) :
    isSafeAccess h r.data n = (!r.data.overflow && decide (off + n ≤ mem.length)) := by
  have hroom : r.data.buffer + r.data.size - r.data.cursor = ((mem.length - off : Nat) : Int) := by
    have := hr.off_le
    rw [hr.buffer, hr.size, hr.cursor]
    omega
  have hlt : mem.length - off < h.sizeMod := by
    have := hr.mem_le
    have := h.ptrdiffMax_lt_sizeMod
    omega
  have hiff : n ≤ mem.length - off ↔ off + n ≤ mem.length := by
    have := hr.off_le
    omega
  rw [isSafeAccess_of_room hroom hlt]
  simp only [hiff]

theorem charPtrAt (hr : ReaderAt h mem r off) :
    charPtrAt mem r.data.cursor = ⟨off, Codec.upTo 0 (mem.drop off)⟩ := by
  rw [hr.cursor]
  rfl

theorem dataPtrAt (hr : ReaderAt h mem r off) :
    dataPtrAt mem r.data.cursor = ⟨off, mem.drop off⟩ := by
  rw [hr.cursor]
  rfl

end ReaderAt

section Steps

variable {h : Host} {mem : List UInt8} {r : BunReader} {off : Nat}

/-! ## The guarded steps -/

theorem readLe_of_fits (hr : ReaderAt h mem r off) (hov : r.data.overflow = false) {w : Nat}
    (hw : off + w ≤ mem.length) :
    readLe h w mem r
      = some (LittleEndian.decode ((mem.drop off).take w), r.advance w) := by
  have hlen : ((mem.drop off).take w).length = w := by
    rw [List.length_take, List.length_drop]
    omega
  have hload : Region.load mem r.data.cursor w = some ((mem.drop off).take w) := by
    rw [hr.cursor, Region.load_of_inside hw]
  rw [readLe, hr.isSafeAccess, hov, decide_eq_true hw, hload]
  simp [h.letoh_valueOf hlen]

/-- `r'` is `r` with the flag set and the cursor moved. -/
structure Failed (r r' : BunReader) : Prop where
  overflow : r'.data.overflow = true
  /-- Putting the cursor back undoes the rest. -/
  seek : r'.seek r.data.cursor = r.setOverflow

theorem readLe_of_short (hr : ReaderAt h mem r off) {w : Nat}
    (hw : r.data.overflow = true ∨ mem.length < off + w) :
    readLe h w mem r = some (0, r.setOverflow) := by
  have hsafe : LibBun.isSafeAccess h r.data w = false := by
    rw [hr.isSafeAccess]
    rcases hw with hw | hw
    · rw [hw]; rfl
    · rw [decide_eq_false (by omega), Bool.and_false]
  rw [readLe, if_pos hsafe]

theorem advance_advance (r : BunReader) (m n : Int) :
    (r.advance m).advance n = r.advance (m + n) := by
  simp only [BunReader.advance, Int.add_assoc]

/-- Three integers in a row: all of them are there, or the flag is set at the end. -/
theorem readLe64_thrice (hr : ReaderAt h mem r off) :
    ∃ a b c ra rb rc, readLe64 h mem r = some (a, ra) ∧ readLe64 h mem ra = some (b, rb)
      ∧ readLe64 h mem rb = some (c, rc)
      ∧ (((r.data.overflow = true ∨ mem.length < off + 24) ∧ Failed r rc) ∨
        (r.data.overflow = false ∧ off + 24 ≤ mem.length
          ∧ a = LittleEndian.decode ((mem.drop off).take 8)
          ∧ b = LittleEndian.decode ((mem.drop (off + 8)).take 8)
          ∧ c = LittleEndian.decode ((mem.drop (off + 16)).take 8) ∧ rc = r.advance 24)) := by
  by_cases hov : r.data.overflow = true
  · refine ⟨0, 0, 0, _, _, _, readLe_of_short hr (Or.inl hov),
      readLe_of_short hr.setOverflow (Or.inl rfl),
      readLe_of_short hr.setOverflow.setOverflow (Or.inl rfl), Or.inl ⟨Or.inl hov, rfl, rfl⟩⟩
  have hov : r.data.overflow = false := by simpa using hov
  by_cases h8 : off + 8 ≤ mem.length
  case neg =>
    refine ⟨0, 0, 0, _, _, _, readLe_of_short hr (Or.inr (by omega)),
      readLe_of_short hr.setOverflow (Or.inl rfl),
      readLe_of_short hr.setOverflow.setOverflow (Or.inl rfl),
      Or.inl ⟨Or.inr (by omega), rfl, rfl⟩⟩
  have hr8 := hr.advance h8
  by_cases h16 : off + 8 + 8 ≤ mem.length
  case neg =>
    refine ⟨_, 0, 0, _, _, _, readLe_of_fits hr hov h8, readLe_of_short hr8 (Or.inr (by omega)),
      readLe_of_short hr8.setOverflow (Or.inl rfl), Or.inl ⟨Or.inr (by omega), rfl, rfl⟩⟩
  have hr16 := hr8.advance h16
  by_cases h24 : off + 8 + 8 + 8 ≤ mem.length
  case neg =>
    refine ⟨_, _, 0, _, _, _, readLe_of_fits hr hov h8, readLe_of_fits hr8 hov h16,
      readLe_of_short hr16 (Or.inr (by omega)), Or.inl ⟨Or.inr (by omega), rfl, rfl⟩⟩
  refine ⟨_, _, _, _, _, _, readLe_of_fits hr hov h8, readLe_of_fits hr8 hov h16,
    readLe_of_fits hr16 hov h24, Or.inr ⟨hov, h24, rfl, rfl, rfl, ?_⟩⟩
  rw [advance_advance, advance_advance]
  rfl

/-- `strnlen` inside the payload counts the bytes before the first NUL. -/
theorem strnlen_eq {n : Nat} (hn : off + n ≤ mem.length) :
    strnlen mem off n
      = some (((mem.drop off).take n).takeWhile (fun x => x != 0)).length := by
  induction n generalizing off with
  | zero => rfl
  | succ n ih =>
      have hoff : off < mem.length := by omega
      have hcast : (off : Int) + 1 = ((off + 1 : Nat) : Int) := by push_cast; rfl
      have hload : Region.load mem off 1 = some [mem[off]] := by
        rw [Region.load_of_inside (by omega), List.drop_eq_getElem_cons hoff]
        rfl
      rw [strnlen, hload, hcast, ih (by omega), List.drop_eq_getElem_cons hoff,
        List.take_succ_cons, List.takeWhile_cons]
      by_cases hc : mem[off] = 0
      · simp [hc]
      · simp [hc]

theorem length_upTo_lt {l : List UInt8} (h0 : (0 : UInt8) ∈ l) :
    (Codec.upTo 0 l).1.length < l.length := by
  have := congrArg List.length (Codec.eq_upTo_append h0)
  rw [List.length_append, List.length_cons] at this
  omega

theorem upTo_eq_self {l : List UInt8} (h0 : (0 : UInt8) ∉ l) : (Codec.upTo 0 l).1 = l := by
  refine List.takeWhile_eq_self_iff.mpr (fun x hx => ?_)
  have : x ≠ 0 := fun he => h0 (he ▸ hx)
  simpa using this

/-- The test `len == max_length` of `safe_strlen` asks for a NUL before the end. -/
theorem safeStrlen_eq (hr : ReaderAt h mem r off) (hov : r.data.overflow = false) :
    safeStrlen h mem r =
      if (0 : UInt8) ∈ mem.drop off then
        some (((Codec.upTo 0 (mem.drop off)).1.length : Int), r)
      else some (-1, r.setOverflow) := by
  have hle := hr.off_le
  have hmax : h.toSizeT (r.data.buffer + r.data.size - r.data.cursor) = mem.length - off := by
    have hm := hr.mem_le
    have hp := h.ptrdiffMax_lt_sizeMod
    have := Host.toSizeT_of_lt (h := h) (z := ((mem.length - off : Nat) : Int))
      (by omega) (by omega)
    rw [hr.buffer, hr.size, hr.cursor]
    have hz : (0 : Int) + mem.length - off = ((mem.length - off : Nat) : Int) := by omega
    rw [hz]
    omega
  have hlen : (mem.drop off).length = mem.length - off := List.length_drop ..
  have hstr : strnlen mem r.data.cursor (mem.length - off)
      = some (Codec.upTo 0 (mem.drop off)).1.length := by
    rw [hr.cursor, strnlen_eq (by omega), List.take_of_length_le (by omega)]
    rfl
  rw [safeStrlen, hmax, hstr, if_neg (by rw [hov]; simp)]
  by_cases h0 : (0 : UInt8) ∈ mem.drop off
  · have hlt := length_upTo_lt h0
    have hconv : h.toPtrdiffT ((Codec.upTo 0 (mem.drop off)).1.length : Int)
        = ((Codec.upTo 0 (mem.drop off)).1.length : Int) := by
      have := hr.mem_le
      exact Host.toPtrdiffT_of_le (by omega) (by omega)
    rw [if_pos h0]
    simp only [Option.bind_eq_bind, Option.bind_some]
    rw [if_neg (by omega), hconv]
    rfl
  · have hself := upTo_eq_self h0
    rw [if_neg h0]
    simp only [Option.bind_eq_bind, Option.bind_some]
    rw [hself, if_pos hlen]
    rfl

end Steps

/-! ## The grammar, one field at a time -/

theorem u64Codec_decode_of_fits {l : List UInt8} (hl : 8 ≤ l.length) :
    u64Codec.decode l
      = some (UInt64.ofNat (LittleEndian.decode (l.take 8)), l.drop 8) := by
  simp [u64Codec, Codec.fixed, Codec.equiv, Codec.block, hl]

theorem u64Codec_decode_of_short {l : List UInt8} (hl : l.length < 8) :
    u64Codec.decode l = none := by
  simp [u64Codec, Codec.fixed, Codec.equiv, Codec.block, hl]

theorem stringCodec_decode (l : List UInt8) :
    stringCodec.decode l =
      if (0 : UInt8) ∈ l then some (Codec.upTo 0 l, l.drop ((Codec.upTo 0 l).1.length + 1))
      else none := rfl

theorem registersCodec_decode_of_short {l : List UInt8} (hl : l.length < 2) :
    registersCodec.decode l = none := by
  simp [registersCodec, Codec.sigma, u16Codec, Codec.fixed, Codec.equiv, Codec.block, hl]

/-- A decoded count is the little-endian value of two bytes. -/
theorem registersCodec_decode_of_fits {l : List UInt8} (hl : 2 ≤ l.length) {n : Nat}
    (hn : n = LittleEndian.decode (l.take 2)) (hlt : n < 2 ^ 16) :
    registersCodec.decode l =
      if h : registerSize * n ≤ l.length - 2 then
        some (⟨⟨n, hlt⟩, (l.drop 2).take (registerSize * n),
          List.length_take_of_le (by rwa [List.length_drop])⟩, (l.drop 2).drop (registerSize * n))
      else none := by
  subst hn
  have hfin : Fin.ofNat (2 ^ 16) (LittleEndian.decode (l.take 2))
      = ⟨LittleEndian.decode (l.take 2), hlt⟩ := Fin.ext (Nat.mod_eq_of_lt hlt)
  simp only [registersCodec, Codec.sigma, u16Codec, Codec.fixed, Codec.equiv, Codec.block,
    Equiv.coe_fn_mk, dif_pos hl, Option.map_some, Option.bind_some, hfin, List.length_drop]
  split <;> rfl

theorem u64_toNat (l : List UInt8) :
    (UInt64.ofNat (LittleEndian.decode (l.take 8))).toNat = LittleEndian.decode (l.take 8) := by
  refine UInt64.toNat_ofNat_of_lt' (Nat.lt_of_lt_of_le (LittleEndian.decode_lt _) ?_)
  exact Nat.pow_le_pow_right (by decide) (List.length_take_le 8 l)

/-- The frame format as a chain of reads. -/
theorem frameCodec_decode (l : List UInt8) :
    frameCodec.decode l =
      (u64Codec.decode l).bind fun a => (u64Codec.decode a.2).bind fun b =>
        (u64Codec.decode b.2).bind fun c => (stringCodec.decode c.2).bind fun s =>
          (stringCodec.decode s.2).bind fun t => (registersCodec.decode t.2).map fun g =>
            (⟨a.1, b.1, c.1, s.1, t.1, g.1⟩, g.2) := by
  simp only [frameCodec, Codec.equiv, Codec.pair, Option.map_bind, Function.comp_def,
    Option.map_map, Record.equivFields, Equiv.coe_fn_mk]

theorem decode_eq_none_of_short {l : List UInt8} (hl : l.length < 24) :
    frameCodec.decode l = none := by
  cases hd : frameCodec.decode l with
  | none => rfl
  | some p =>
      have hsound : _ = frameCodec.encode p.1 ++ p.2 := frameCodec.decode_sound hd
      have hlen := congrArg List.length hsound
      have := p.1.length_ge
      rw [List.length_append, Record.length_encode] at hlen
      omega

/-- With the three integers there, what is left is the strings and the registers. -/
theorem decode_after_ints {mem : List UInt8} {off : Nat} (h24 : off + 24 ≤ mem.length) :
    frameCodec.decode (mem.drop off) =
      (stringCodec.decode (mem.drop (off + 24))).bind fun s =>
        (stringCodec.decode s.2).bind fun t =>
          (registersCodec.decode t.2).map fun g =>
            (⟨UInt64.ofNat (LittleEndian.decode ((mem.drop off).take 8)),
              UInt64.ofNat (LittleEndian.decode ((mem.drop (off + 8)).take 8)),
              UInt64.ofNat (LittleEndian.decode ((mem.drop (off + 16)).take 8)),
              s.1, t.1, g.1⟩, g.2) := by
  rw [frameCodec_decode, u64Codec_decode_of_fits (by rw [List.length_drop]; omega),
    Option.bind_some]
  dsimp only
  rw [List.drop_drop, u64Codec_decode_of_fits (by rw [List.length_drop]; omega), Option.bind_some]
  dsimp only
  rw [List.drop_drop, u64Codec_decode_of_fits (by rw [List.length_drop]; omega), Option.bind_some,
    List.drop_drop]

/-! ## One call -/

/-- `buffer_available > 0` in `bun_frame_read`: the frame starts before the declared end. -/
def gate (h : Host) (size off : Nat) : Bool := decide (0 < h.toPtrdiffT ((size : Int) - off))

/-- The structure a successful read at offset `off` leaves, given what was in it before. -/
def deliver (h : Host) (mem : List UInt8) (off : Nat) (f : BunFrame) (rec : Record) : BunFrame :=
  let symbolAt := off + 24
  let filenameAt := symbolAt + rec.symbol.1.length + 1
  let dataAt := filenameAt + rec.filename.1.length + 3
  { addr := rec.addr
    symbol := some ⟨symbolAt, rec.symbol⟩
    symbolLength := f.symbolLength
    filename := some ⟨filenameAt, rec.filename⟩
    filenameLength := f.filenameLength
    lineNo := h.toSizeT rec.lineNo.toNat
    offset := h.toSizeT rec.offset.toNat
    registerCount := rec.registers.1
    registerBufferSize :=
      if 0 < rec.registers.1.1 then registerSize * rec.registers.1 else f.registerBufferSize
    registerData :=
      if 0 < rec.registers.1.1 then some ⟨dataAt, mem.drop dataAt⟩ else f.registerData }

/-- The bytes of a count of registers do not wrap. -/
theorem toSizeT_registers (h : Host) {n : Nat} (hn : n < 2 ^ 16) :
    h.toSizeT ((n : Int) * registerSize) = registerSize * n := by
  have hmul : (n : Int) * registerSize = ((registerSize * n : Nat) : Int) := by
    push_cast
    ring
  have hsmall : registerSize * n < 655360 := by
    rw [registerSize]
    omega
  have hmod := h.sizes
  have hexact := Host.toSizeT_of_lt (h := h) (z := ((registerSize * n : Nat) : Int))
    (by omega) (by omega)
  rw [hmul]
  omega

/--
The last part of `bun_frame_read`, behind the strings; `initial` is what the cursor is
put back to.
-/
def readRegisterBlock (h : Host) (mem : List UInt8) (initial : Int) (reader : BunReader)
    (frame : BunFrame) : Option (Bool × BunReader × BunFrame) := do
  let (count, reader) ← readLe16 h mem reader
  let frame := { frame with registerCount := count }
  if reader.data.overflow = true then
    return (false, reader.seek initial, frame)
  else if isSafeAccess h reader.data (h.toSizeT (count * registerSize)) = false then
    return (false, reader.setOverflow.seek initial, frame)
  else if count > 0 then
    let frame := { frame with
      registerData := some (dataPtrAt mem reader.data.cursor)
      registerBufferSize := h.toSizeT (count * registerSize) }
    return (true, reader.advance frame.registerBufferSize, frame)
  else
    return (true, reader, frame)

/-- The registers are there and are stepped over, or the flag is set. -/
theorem readRegisterBlock_cases {h : Host} {mem : List UInt8} {r : BunReader} {off : Nat}
    (hr : ReaderAt h mem r off) (hov : r.data.overflow = false) (initial : Int) (f : BunFrame) :
    (∃ n, readRegisterBlock h mem initial r f
        = some (false, r.setOverflow.seek initial, { f with registerCount := n })
      ∧ registersCodec.decode (mem.drop off) = none) ∨
    (∃ g rest, registersCodec.decode (mem.drop off) = some (g, rest)
      ∧ readRegisterBlock h mem initial r f = some (true, r.advance (2 + registerSize * g.1.1),
        { f with
          registerCount := g.1.1
          registerBufferSize :=
            if 0 < g.1.1 then registerSize * g.1.1 else f.registerBufferSize
          registerData :=
            if 0 < g.1.1 then some ⟨(off + 2 : Nat), mem.drop (off + 2)⟩
            else f.registerData })) := by
  rw [readRegisterBlock, readLe16]
  by_cases h2 : off + 2 ≤ mem.length
  case neg =>
    -- the count does not fit
    rw [readLe_of_short hr (Or.inr (by omega)),
      registersCodec_decode_of_short (by rw [List.length_drop]; omega)]
    exact Or.inl ⟨_, rfl, rfl⟩
  rw [readLe_of_fits hr hov h2]
  generalize hn : LittleEndian.decode ((mem.drop off).take 2) = n
  have hnlt : n < 2 ^ 16 := by
    have hlt := LittleEndian.decode_lt ((mem.drop off).take 2)
    rw [List.length_take_of_le (by rw [List.length_drop]; omega), hn] at hlt
    exact hlt
  have hrn : ReaderAt h mem (r.advance (2 : Nat)) (off + 2) := hr.advance h2
  have hnov : (r.advance (2 : Nat)).data.overflow = false := hov
  rw [registersCodec_decode_of_fits (by rw [List.length_drop]; omega) hn.symm hnlt]
  simp only [Option.bind_eq_bind, Option.bind_some, toSizeT_registers h hnlt, List.length_drop,
    List.drop_drop]
  rw [if_neg (by rw [hnov]; simp), hrn.isSafeAccess]
  by_cases hregs : off + 2 + registerSize * n ≤ mem.length
  case neg =>
    -- the registers do not fit
    rw [dif_neg (by omega), decide_eq_false hregs, Bool.and_false, if_pos rfl]
    exact Or.inl ⟨_, rfl, rfl⟩
  rw [dif_pos (by omega), decide_eq_true hregs]
  refine Or.inr ⟨_, _, rfl, ?_⟩
  rw [if_neg (by rw [hnov]; simp)]
  by_cases hn0 : n > 0
  · rw [if_pos hn0, hrn.dataPtrAt]
    simp only [if_pos hn0, advance_advance]
    rfl
  · have hzero : n = 0 := by omega
    rw [if_neg hn0]
    simp only [hzero]
    rfl

/-- The walk is over at `off`: the declared end is reached or no frame follows. -/
def Ended (h : Host) (mem : List UInt8) (size off : Nat) : Prop :=
  frameCodec.Stops (gate h size) off (mem.drop off)

/--
**One call of `bun_frame_read`.** It refuses at once, and then the walk is over
at this offset; or it fails on the way, which sets the overflow flag and puts the
cursor back, and then the flag was set before or no frame follows; or a frame
follows, and exactly that frame is delivered and stepped over. It never reads
outside the payload, and it never touches the two lengths of the structure.
-/
theorem bunFrameRead_cases {h : Host} {mem : List UInt8} {r : BunReader} {off : Nat}
    (hr : ReaderAt h mem r off) (hhead : headerSize ≤ mem.length) (f : BunFrame) :
    (bunFrameRead h mem r f = some (false, r, f)
      ∧ Ended h mem (HeaderField.size.get mem 0) off) ∨
    (∃ f', bunFrameRead h mem r f = some (false, r.setOverflow, f')
      ∧ (r.data.overflow = true ∨ frameCodec.decode (mem.drop off) = none)
      ∧ f'.symbolLength = f.symbolLength ∧ f'.filenameLength = f.filenameLength) ∨
    (∃ rec rest, frameCodec.decode (mem.drop off) = some (rec, rest)
      ∧ r.data.overflow = false ∧ gate h (HeaderField.size.get mem 0) off = true
      ∧ bunFrameRead h mem r f
          = some (true, r.advance rec.length, deliver h mem off f rec)) := by
  have hsize : HeaderField.size.read mem r.data.buffer = some (HeaderField.size.get mem 0) := by
    rw [hr.buffer]
    exact HeaderField.read_eq_get (hhead.trans' (by decide))
  rw [bunFrameRead]
  simp only [hsize, hr.offset, hr.left, Option.bind_eq_bind, Option.bind_some]
  by_cases hend : mem.length - off ≤ 0
  · -- nothing is left to read
    have hnil : mem.drop off = [] := List.drop_eq_nil_iff.mpr (by omega)
    refine Or.inl ⟨by rw [if_pos hend]; rfl, Or.inr ?_⟩
    rw [hnil, frameCodec_decode, u64Codec_decode_of_short (by simp), Option.bind_none]
  rw [if_neg hend]
  by_cases hgate : h.toPtrdiffT ((HeaderField.size.get mem 0 : Int) - off) ≤ 0
  · exact Or.inl ⟨by rw [if_pos hgate]; rfl, Or.inl (decide_eq_false (by omega))⟩
  rw [if_neg hgate]
  have hopen : gate h (HeaderField.size.get mem 0) off = true := decide_eq_true (by omega)
  refine Or.inr ?_
  obtain ⟨a, b, c, ra, rb, rc, h1, h2, h3, hints⟩ := readLe64_thrice hr
  simp only [h1, h2, h3, Option.bind_some]
  rcases hints with ⟨hbad, hfail⟩ | ⟨hov, h24, rfl, rfl, rfl, rfl⟩
  · -- one of the three integers did not fit
    refine Or.inl ⟨{ f with
      addr := UInt64.ofNat a
      lineNo := h.toSizeT b
      offset := h.toSizeT c }, by rw [if_pos hfail.overflow, hfail.seek]; rfl,
      hbad.imp_right fun hlt => ?_, rfl, rfl⟩
    exact decode_eq_none_of_short (by rw [List.length_drop]; omega)
  rw [if_neg (by show ¬r.data.overflow = true; rw [hov]; simp), decode_after_ints h24]
  have hr24 : ReaderAt h mem (r.advance 24) (off + 24) := hr.advance h24
  rw [safeStrlen_eq hr24 hov, stringCodec_decode]
  by_cases hs : (0 : UInt8) ∈ mem.drop (off + 24)
  case neg =>
    -- the symbol is not closed
    rw [if_neg hs, if_neg hs]
    exact Or.inl ⟨_, rfl, Or.inr rfl, rfl, rfl⟩
  have hslt := length_upTo_lt hs
  rw [List.length_drop] at hslt
  rw [if_pos hs, if_pos hs]
  simp only [Option.bind_some, List.drop_drop]
  rw [if_neg (by show ¬r.data.overflow = true; rw [hov]; simp)]
  generalize hsym : Codec.upTo 0 (mem.drop (off + 24)) = sym at hslt ⊢
  have hsfit : off + 24 + (sym.1.length + 1) ≤ mem.length := by omega
  have hrs : ReaderAt h mem ((r.advance 24).advance (sym.1.length + 1))
      (off + 24 + (sym.1.length + 1)) := hr24.advance hsfit
  generalize hsOff : off + 24 + (sym.1.length + 1) = sOff at hrs ⊢
  rw [safeStrlen_eq hrs hov, stringCodec_decode]
  by_cases ht : (0 : UInt8) ∈ mem.drop sOff
  case neg =>
    -- the file name is not closed
    rw [if_neg ht, if_neg ht]
    exact Or.inl ⟨_, rfl, Or.inr rfl, rfl, rfl⟩
  have htlt := length_upTo_lt ht
  rw [List.length_drop] at htlt
  rw [if_pos ht, if_pos ht]
  simp only [Option.bind_some, List.drop_drop]
  rw [if_neg (by show ¬r.data.overflow = true; rw [hov]; simp)]
  generalize hfil : Codec.upTo 0 (mem.drop sOff) = fil at htlt ⊢
  have htfit : sOff + (fil.1.length + 1) ≤ mem.length := by omega
  have hrt : ReaderAt h mem
      (((r.advance 24).advance (sym.1.length + 1)).advance (fil.1.length + 1))
      (sOff + (fil.1.length + 1)) := hrs.advance htfit
  generalize htOff : sOff + (fil.1.length + 1) = tOff at hrt ⊢
  -- what is left of the function runs on the structure with all else filled in
  rcases readRegisterBlock_cases hrt hov r.data.cursor
      { f with
        addr := UInt64.ofNat (LittleEndian.decode ((mem.drop off).take 8))
        lineNo := h.toSizeT (LittleEndian.decode ((mem.drop (off + 8)).take 8))
        offset := h.toSizeT (LittleEndian.decode ((mem.drop (off + 16)).take 8))
        symbol := some (charPtrAt mem (r.advance 24).data.cursor)
        filename := some
          (charPtrAt mem ((r.advance 24).advance (sym.1.length + 1)).data.cursor) } with
    ⟨n, hread, hdec⟩ | ⟨g, rest, hdec, hread⟩
  · exact Or.inl ⟨_, hread, Or.inr (by rw [hdec]; rfl), rfl, rfl⟩
  rw [hdec]
  refine Or.inr ⟨_, _, rfl, hov, hopen, hread.trans ?_⟩
  have hfit : (tOff + 2 : Nat) = off + 24 + sym.1.length + 1 + fil.1.length + 3 := by omega
  have hsEq : sOff = off + 24 + sym.1.length + 1 := by omega
  rw [hr24.charPtrAt, hsym, hrs.charPtrAt, hfil]
  refine congrArg some (congrArg₂ Prod.mk rfl (congrArg₂ Prod.mk ?_ ?_))
  · simp only [advance_advance, Record.length]
    congr 1
    push_cast
    ring
  · simp only [deliver, u64_toNat, hfit, hsEq]

/-- The next call will return the record. -/
structure Follows (h : Host) (mem : List UInt8) (r : BunReader) (off : Nat) (rec : Record) :
    Prop where
  clear : r.data.overflow = false
  open_ : gate h (HeaderField.size.get mem 0) off = true
  decoded : ∃ rest, frameCodec.decode (mem.drop off) = some (rec, rest)

section

variable {h : Host} {mem : List UInt8} {r : BunReader} {off : Nat}

/-- A call that has a record before it returns it, whatever the structure held. -/
theorem Follows.read {rec : Record} (hrec : Follows h mem r off rec) (hr : ReaderAt h mem r off)
    (hhead : headerSize ≤ mem.length) (f : BunFrame) :
    bunFrameRead h mem r f = some (true, r.advance rec.length, deliver h mem off f rec) := by
  obtain ⟨hov, hgate, rest, hdec⟩ := hrec
  rcases bunFrameRead_cases hr hhead f with ⟨_, hend⟩ | ⟨_, _, hbad, _⟩ |
    ⟨rec', rest', hdec', _, _, heq⟩
  · rcases hend with hshut | hnone
    · rw [hgate] at hshut
      exact Bool.noConfusion hshut
    · rw [hdec] at hnone
      exact absurd hnone (Option.some_ne_none _)
  · rcases hbad with hset | hnone
    · rw [hov] at hset
      exact Bool.noConfusion hset
    · rw [hdec] at hnone
      exact absurd hnone (Option.some_ne_none _)
  · rw [hdec] at hdec'
    obtain ⟨rfl, _⟩ : rec = rec' ∧ rest = rest' := by simpa using hdec'
    exact heq

/-- Only then does a call return true. -/
theorem follows_of_read (hr : ReaderAt h mem r off) (hhead : headerSize ≤ mem.length)
    {f f' : BunFrame} {r' : BunReader} (hcall : bunFrameRead h mem r f = some (true, r', f')) :
    ∃ rec, Follows h mem r off rec ∧ r' = r.advance rec.length
      ∧ f' = deliver h mem off f rec := by
  rcases bunFrameRead_cases hr hhead f with ⟨heq, _⟩ | ⟨_, heq, _⟩ |
    ⟨rec, rest, hdec, hov, hgate, heq⟩ <;>
    rw [heq] at hcall <;>
    simp only [Option.some.injEq, Prod.mk.injEq, Bool.false_eq_true, false_and, true_and] at hcall
  exact ⟨rec, ⟨hov, hgate, rest, hdec⟩, hcall.1.symm, hcall.2.symm⟩

end

end LibBun
