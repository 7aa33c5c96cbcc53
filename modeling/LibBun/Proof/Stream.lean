import LibBun.Proof.Reader

/-!
# What a walk over a stream delivers

`bun_frame_read` hands out structures full of pointers; what a caller sees through
them is their content. Here the content of a delivered structure is the content of
the record it was decoded from, and the loop of `bun_reader_print` is the walk
`Codec.collect` over the bytes behind the header, gated by the declared size.

From here on nothing about streams needs a cursor any more.
-/

namespace LibBun

variable {h : Host}

/-! ## Content -/

/-- The entry at an index of a register block, as `bun_frame_register_get` reads it. -/
def registerAt (h : Host) (data : List UInt8) (index : Nat) : Nat × UInt64 :=
  let buffer : Int := registerSize * index
  (h.valueOf (Region.patch (h.bytesOf 4 0) 0 (Region.peek 0 data buffer 2)),
    UInt64.ofNat (h.valueOf (Region.patch (h.bytesOf 8 0) 0 (Region.peek 0 data (buffer + 2) 8))))

/-- The same, with the places as natural numbers. -/
theorem registerAt_eq (data : List UInt8) (i : Nat) :
    registerAt h data i =
      (h.valueOf (Region.patch (h.bytesOf 4 0) 0 (Region.peek 0 data (registerSize * i : Nat) 2)),
        UInt64.ofNat (h.valueOf (Region.patch (h.bytesOf 8 0) 0
          (Region.peek 0 data (registerSize * i + 2 : Nat) 8)))) := by
  rw [registerAt]
  push_cast
  rfl

/-- What a caller would see of a frame that says what the record says. -/
def Record.content (h : Host) (rec : Record) : FrameContent where
  addr := rec.addr
  lineNo := h.toSizeT rec.lineNo.toNat
  offset := h.toSizeT rec.offset.toNat
  symbol := rec.symbol.1
  filename := rec.filename.1
  registers := (List.range rec.registers.1.1).map fun i => some (registerAt h rec.registers.2.1 i)

/-- The registers of a frame are in its block and nowhere else. -/
theorem bunFrameRegisterGet_eq {f : BunFrame} {i : Nat} (hi : i < f.registerCount) :
    bunFrameRegisterGet h f i = some (registerAt h f.registerBlock i) := by
  have hget : bunFrameRegisterGet h f i
      = some (registerAt h ((f.registerData.map DataPtr.bytes).getD []) i) := by
    rw [bunFrameRegisterGet, if_neg (by omega)]
    rfl
  have hin : registerSize * i + 10 ≤ registerSize * f.registerCount := by
    rw [registerSize]
    omega
  rw [hget, registerAt_eq, registerAt_eq, BunFrame.registerBlock, Region.peek_takeD (by omega),
    Region.peek_takeD (by omega)]

theorem BunFrame.content_eq (f : BunFrame) :
    f.content h =
      { addr := f.addr
        lineNo := f.lineNo
        offset := f.offset
        symbol := f.symbolStr.1
        filename := f.filenameStr.1
        registers := (List.range f.registerCount).map
          fun i => some (registerAt h f.registerBlock i) } := by
  rw [content]
  congr 1
  exact List.map_congr_left fun i hi => bunFrameRegisterGet_eq (List.mem_range.mp hi)

theorem toSizeT_ofNat {v : Nat} (hv : v < h.sizeMod) :
    h.toSizeT ((UInt64.ofNat v).toNat : Int) = v := by
  have hsizes := h.sizes
  have hlt : v < 2 ^ 64 := by omega
  rw [UInt64.toNat_ofNat_of_lt' hlt]
  have := Host.toSizeT_of_lt (h := h) (z := (v : Int)) (by omega) (by omega)
  omega

/-- A record says what the frame it was made from says. -/
theorem BunFrame.content_record {f : BunFrame} (hf : f.WellFormed h) :
    (f.record hf).content h = f.content h := by
  rw [content_eq, Record.content, record]
  dsimp only
  rw [toSizeT_ofNat hf.lineNo_lt, toSizeT_ofNat hf.offset_lt]

/-! ## Where the fields of a delivered frame are -/

section

variable {mem : List UInt8} {off : Nat}

/-- The pointer is to a string in the payload, its NUL included. -/
def CharPtr.InPayload (mem : List UInt8) (p : CharPtr) : Prop :=
  ∃ a : Nat, p.addr = a ∧ a + p.str.1.length < mem.length
    ∧ (mem.drop a).take (p.str.1.length + 1) = p.str.1 ++ [0]

/-- Everything the frame points to is in the payload. -/
structure BunFrame.InPayload (mem : List UInt8) (f : BunFrame) : Prop where
  symbol : ∃ p, f.symbol = some p ∧ p.InPayload mem
  filename : ∃ p, f.filename = some p ∧ p.InPayload mem
  registers : 0 < f.registerCount → ∃ (p : DataPtr) (a : Nat), f.registerData = some p
    ∧ p.addr = a ∧ p.bytes = mem.drop a ∧ a + registerSize * f.registerCount ≤ mem.length

theorem Record.drop_symbol (rec : Record) (rest : List UInt8) :
    (frameCodec.encode rec ++ rest).drop 24 =
      (rec.symbol.1 ++ [0]) ++ ((rec.filename.1 ++ [0]) ++
        (LittleEndian.encode 2 rec.registers.1.1 ++ (rec.registers.2.1 ++ rest))) := by
  have hsplit : frameCodec.encode rec ++ rest =
      (LittleEndian.encode 8 rec.addr.toNat ++ (LittleEndian.encode 8 rec.lineNo.toNat ++
        LittleEndian.encode 8 rec.offset.toNat)) ++ ((rec.symbol.1 ++ [0]) ++
          ((rec.filename.1 ++ [0]) ++
            (LittleEndian.encode 2 rec.registers.1.1 ++ (rec.registers.2.1 ++ rest)))) := by
    rw [Record.encode_eq]
    simp only [List.append_assoc]
  rw [hsplit]
  exact List.drop_left' (by simp)

theorem Record.drop_filename (rec : Record) (rest : List UInt8) :
    (frameCodec.encode rec ++ rest).drop (24 + (rec.symbol.1.length + 1)) =
      (rec.filename.1 ++ [0]) ++
        (LittleEndian.encode 2 rec.registers.1.1 ++ (rec.registers.2.1 ++ rest)) := by
  rw [← List.drop_drop, rec.drop_symbol]
  exact List.drop_left' (by simp)

theorem Record.drop_registers (rec : Record) (rest : List UInt8) :
    (frameCodec.encode rec ++ rest).drop
        (24 + (rec.symbol.1.length + 1) + (rec.filename.1.length + 1) + 2) =
      rec.registers.2.1 ++ rest := by
  rw [← List.drop_drop, ← List.drop_drop, rec.drop_filename, List.drop_left' (by simp)]
  exact List.drop_left' (by simp)

theorem CharPtr.inPayload_of_drop {s : CString} {a : Nat} {rest : List UInt8}
    (h : mem.drop a = (s.1 ++ [0]) ++ rest) : CharPtr.InPayload mem ⟨a, s⟩ := by
  have hlen := congrArg List.length h
  simp only [List.length_drop, List.length_append, List.length_cons, List.length_nil] at hlen
  refine ⟨a, rfl, by show a + s.1.length < mem.length; omega, ?_⟩
  rw [h]
  exact List.take_left' (by simp)

/-- A frame is delivered with every pointer into the bytes it was decoded from. -/
theorem deliver_inPayload {rec : Record} {rest : List UInt8}
    (hdec : mem.drop off = frameCodec.encode rec ++ rest) (f : BunFrame) :
    (deliver h mem off f rec).InPayload mem := by
  have hsym := rec.drop_symbol rest
  have hfil := rec.drop_filename rest
  rw [← hdec, List.drop_drop] at hsym hfil
  refine ⟨⟨_, rfl, CharPtr.inPayload_of_drop hsym⟩, ⟨_, rfl, ?_⟩, fun hn => ?_⟩
  · exact CharPtr.inPayload_of_drop
      (show mem.drop (off + 24 + rec.symbol.1.length + 1) = _ by
        rw [← hfil]; congr 1; omega)
  · have hn : 0 < rec.registers.1.1 := hn
    have hfit := Record.end_le hdec
    rw [Record.length] at hfit
    refine ⟨⟨((off + 24 + rec.symbol.1.length + 1 + rec.filename.1.length + 3 : Nat) : Int),
      mem.drop (off + 24 + rec.symbol.1.length + 1 + rec.filename.1.length + 3)⟩, _,
      by simp only [deliver, if_pos hn], rfl, rfl, ?_⟩
    show off + 24 + rec.symbol.1.length + 1 + rec.filename.1.length + 3
      + registerSize * rec.registers.1.1 ≤ mem.length
    omega

/-- The registers of a delivered frame are those of the record. -/
theorem registerBlock_deliver {rec : Record} {rest : List UInt8}
    (hdec : mem.drop off = frameCodec.encode rec ++ rest) (f : BunFrame) :
    (deliver h mem off f rec).registerBlock = rec.registers.2.1 := by
  have hregs := rec.drop_registers rest
  rw [← hdec, List.drop_drop] at hregs
  have hlen := rec.registers.2.2
  have hn : (deliver h mem off f rec).registerCount = rec.registers.1.1 := rfl
  rw [BunFrame.registerBlock, hn]
  by_cases hpos : 0 < rec.registers.1.1
  · have hat : off + 24 + rec.symbol.1.length + 1 + rec.filename.1.length + 3
        = off + (24 + (rec.symbol.1.length + 1) + (rec.filename.1.length + 1) + 2) := by omega
    simp only [deliver, if_pos hpos, Option.map_some, Option.getD_some, hat, hregs]
    exact List.takeD_left' hlen
  · have hzero : rec.registers.1.1 = 0 := by omega
    have hnil : rec.registers.2.1 = [] :=
      List.eq_nil_of_length_eq_zero (by rw [hlen, hzero, Nat.mul_zero])
    rw [hnil, hzero, Nat.mul_zero, List.takeD_zero]

/-- A delivered frame says what the record it was decoded from says. -/
theorem content_deliver {rec : Record} {rest : List UInt8}
    (hdec : mem.drop off = frameCodec.encode rec ++ rest) (f : BunFrame) :
    (deliver h mem off f rec).content h = rec.content h := by
  rw [BunFrame.content_eq, registerBlock_deliver hdec]
  rfl

end

/-! ## Opening a reader -/

theorem bunReaderInit_at {buf : BunBuffer h} {r₀ : BunReader} {handle : Option HandleRef}
    (hinit : bunReaderInit r₀ buf handle = some (true, r)) :
    ReaderAt h buf.payload r headerSize ∧ r.data.overflow = false
      ∧ bunBufferPayloadHeaderSize ≤ buf.size := by
  have hlen := buf.payload_length
  have hle := buf.size_le
  rw [bunReaderInit] at hinit
  split at hinit
  · exact absurd hinit (by simp)
  · rename_i hsize
    obtain ⟨magic, hmagic, hinit⟩ := Option.bind_eq_some_iff.mp hinit
    split at hinit
    · exact absurd hinit (by simp)
    · have heq := congrArg Prod.snd (Option.some.inj hinit)
      dsimp only at heq
      subst heq
      -- the magic number was read, so there are bytes behind the prefix
      have hpos : 8 ≤ buf.payload.length := by
        obtain ⟨bs, hbs, _⟩ := Option.map_eq_some_iff.mp hmagic
        rw [Region.load] at hbs
        split at hbs
        · rename_i hin
          simp only [HeaderField.magic] at hin
          omega
        · exact absurd hbs (by simp)
      have hps : bunBufferPayloadSize buf = buf.payload.length := by
        have hprefix : payloadOffset ≤ buf.size := by omega
        have hexact := bunBufferPayloadSize_eq hprefix
        omega
      rw [hps] at hsize ⊢
      have hhead : headerSize ≤ buf.payload.length := by omega
      refine ⟨⟨rfl, rfl, rfl, hhead, by omega⟩, rfl, ?_⟩
      rw [bunBufferPayloadHeaderSize]
      simp only [payloadOffset, headerSize] at hlen hhead
      omega

theorem bunReaderInit_of_magic {buf : BunBuffer h} (hbuf : bunBufferPayloadHeaderSize ≤ buf.size)
    (hmagic : HeaderField.magic.get buf.payload 0 = bunHeaderMagic) (r₀ : BunReader)
    (handle : Option HandleRef) : ∃ r, bunReaderInit r₀ buf handle = some (true, r) := by
  obtain ⟨hhead, _, hsize⟩ := buf.payload_room hbuf
  have hread : HeaderField.magic.read buf.payload 0 = some bunHeaderMagic := by
    rw [HeaderField.read_eq_get (le_trans (by decide) hhead), hmagic]
  refine ⟨⟨⟨0, headerSize, buf.payload.length, handle, false⟩⟩, ?_⟩
  rw [bunReaderInit, hsize, if_neg (by omega), hread, Option.bind_eq_bind, Option.bind_some,
    if_neg (by simp)]
  rfl

/-! ## The loop over the frames -/

/-- The test on the declared size, without the conversion to `ptrdiff_t`. -/
theorem gate_eq_true_iff {size off : Nat} (hoff : off ≤ h.ptrdiffMax) (hsize : size < 2 ^ 32) :
    gate h size off = true ↔ off < size ∧ size - off ≤ h.ptrdiffMax := by
  rw [gate, decide_eq_true_iff]
  by_cases hfits : size ≤ off + h.ptrdiffMax
  · rw [Host.toPtrdiffT_of_le (by omega) (by omega)]
    omega
  · -- only a 32-bit host gets here, and there the difference wraps once
    have hneg : ¬0 < h.toPtrdiffT ((size : Int) - off) := by
      unfold Host.toPtrdiffT
      rcases h.sizes with ⟨_, hm, hp⟩ | ⟨_, hm, hp⟩ <;> rw [hm] <;> rw [hp] at hfits hoff
      · rw [Int.bmod_def]
        omega
      · omega
    exact ⟨fun hpos => absurd hpos hneg, fun hle => absurd hle.2 (by omega)⟩

/-- Once the declared size is behind, the gate is shut. -/
theorem gate_eq_false {size off : Nat} (hoff : off ≤ h.ptrdiffMax) (hsize : size < 2 ^ 32)
    (hle : size ≤ off) : gate h size off = false := by
  rw [← Bool.not_eq_true, gate_eq_true_iff hoff hsize]
  omega


/--
**The loop of `bun_reader_print` is a walk over the stream.** With enough calls it
ends, and the frames it went through say what the records of the walk say.
-/
theorem readFrames_content {mem : List UInt8} {r : BunReader} {off : Nat}
    (hr : ReaderAt h mem r off) (hhead : headerSize ≤ mem.length)
    (hov : r.data.overflow = false) (f : BunFrame) {fuel : Nat}
    (hfuel : (mem.length - off) / 28 < fuel) :
    ∃ frames, readFrames h mem fuel r f = some frames
      ∧ frames.map (BunFrame.content h)
        = (frameCodec.collect (gate h (HeaderField.size.get mem 0)) fuel off (mem.drop off)).map
          (Record.content h) := by
  induction fuel generalizing off r f with
  | zero => exact absurd hfuel (Nat.not_lt_zero _)
  | succ fuel ih =>
      rcases bunFrameRead_cases hr hhead f with ⟨heq, hend⟩ | ⟨f₁, heq, hbad, _⟩ |
        ⟨rec, rest, hdec, _, hgate, heq⟩
      · refine ⟨[], by rw [readFrames, heq]; rfl, ?_⟩
        rw [Codec.collect_of_stops hend]
        rfl
      · refine ⟨[], by rw [readFrames, heq]; rfl, ?_⟩
        have hend := hbad.resolve_left (by rw [hov]; simp)
        rw [Codec.collect_of_stops (Or.inr hend)]
        rfl
      · have hsound := frameCodec.decode_sound hdec
        have hfit := Record.end_le hsound
        have hge := rec.length_ge
        have hrest : mem.drop (off + rec.length) = rest := by
          rw [← List.drop_drop, hsound]
          exact List.drop_left' rec.length_encode
        obtain ⟨frames, hframes, hmap⟩ := ih (hr.advance hfit) hov (deliver h mem off f rec)
          (by omega)
        refine ⟨deliver h mem off f rec :: frames, ?_, ?_⟩
        · rw [readFrames, heq]
          simp only [Option.bind_eq_bind, Option.bind_some, if_pos, hframes]
          rfl
        · have hstep : frameCodec.collect (gate h (HeaderField.size.get mem 0)) (fuel + 1) off
              (mem.drop off) = rec :: frameCodec.collect (gate h (HeaderField.size.get mem 0)) fuel
                (off + rec.length) (mem.drop (off + rec.length)) := by
            rw [Codec.collect, hgate, hdec, hrest, ← rec.length_encode]
            rfl
          rw [hstep, List.map_cons, List.map_cons, content_deliver hsound, hmap]

/-- A loop that ended would have ended with just one call more than it went through frames. -/
theorem readFrames_of_length_lt {mem : List UInt8} {fuel : Nat} {r : BunReader} {f : BunFrame}
    {frames : List BunFrame} (hread : readFrames h mem fuel r f = some frames) {fuel' : Nat}
    (hlt : frames.length < fuel') : readFrames h mem fuel' r f = some frames := by
  induction fuel generalizing r f frames fuel' with
  | zero => exact absurd hread (by simp [readFrames])
  | succ fuel ih =>
      obtain ⟨fuel', rfl⟩ : ∃ n, fuel' = n + 1 := ⟨fuel' - 1, by omega⟩
      rw [readFrames] at hread ⊢
      obtain ⟨⟨more, r', f'⟩, hcall, hread⟩ := Option.bind_eq_some_iff.mp hread
      rw [hcall]
      cases more with
      | false => exact hread
      | true =>
          simp only [if_pos] at hread
          obtain ⟨rest, hrest, hcons⟩ := Option.bind_eq_some_iff.mp hread
          have hframes : f' :: rest = frames := Option.some.inj hcons
          subst hframes
          have hlt' : rest.length < fuel' := by rw [List.length_cons] at hlt; omega
          have htail := ih hrest hlt'
          simp only [Option.bind_eq_bind, Option.bind_some, if_pos, htail]
          rfl

end LibBun
