import Mathlib.Algebra.Order.BigOperators.Group.List
import LibBun.Proof.RoundTrip

/-!
# One format on four hosts

A frame whose numbers fit 32 bits can be written on every host. What is asked here
is whether the hosts write the same bytes and read one another's. They would: the
integers go through `htole64`, the strings are bytes, and the header is declared
little-endian. But the value added to the size in the header is made from
`sizeof(size_t)`, so the first frame already puts a different size into the header
on a 32-bit and on a 64-bit host, and no stream with a frame in it is portable.
-/

namespace LibBun

/-! ## Frames any host can write -/

/--
A frame by its values, with what the caller provides for it: the addresses of the
strings do not matter, the memory for the registers is the caller's.
-/
structure PortableFrame where
  addr : UInt32
  lineNo : UInt32
  offset : UInt32
  symbol : Option CString
  /-- The caller sets `symbol_length`, to the right value. -/
  symbolGiven : Bool
  filename : Option CString
  filenameGiven : Bool
  /-- Ids and values, in the order they are appended. -/
  registers : List (UInt16 × UInt64)
  /-- What `register_data` points to before the first register is appended. -/
  block : List UInt8
  registers_lt : registers.length < 2 ^ 16
  block_room : registerSize * registers.length ≤ block.length

namespace PortableFrame

/-- The characters of a string; there are none if it is `NULL`. -/
def chars (s : Option CString) : CString := s.getD CString.empty

/-- The frame before the registers are appended. -/
def base (p : PortableFrame) : BunFrame where
  addr := p.addr.toUInt64
  symbol := p.symbol.map fun s => ⟨0, s⟩
  symbolLength := if p.symbolGiven then (chars p.symbol).1.length else 0
  filename := p.filename.map fun s => ⟨0, s⟩
  filenameLength := if p.filenameGiven then (chars p.filename).1.length else 0
  lineNo := p.lineNo.toNat
  offset := p.offset.toNat
  registerCount := 0
  registerBufferSize := p.block.length
  registerData := some ⟨0, p.block⟩

/-- The frame a caller on the host builds. -/
def build (h : Host) (p : PortableFrame) : BunFrame :=
  appendRegisters h p.base (p.registers.map fun reg => (reg.1.toNat, reg.2))

/-- The values that were put in. -/
def content (p : PortableFrame) : FrameContent where
  addr := p.addr.toUInt64
  lineNo := p.lineNo.toNat
  offset := p.offset.toNat
  symbol := (chars p.symbol).1
  filename := (chars p.filename).1
  registers := p.registers.map fun reg => some (reg.1.toNat, reg.2)

/-- The bytes the encoding of the frame takes, on every host. -/
def length (p : PortableFrame) : Nat :=
  28 + (chars p.symbol).1.length + (chars p.filename).1.length
    + registerSize * p.registers.length

variable {h : Host}

/-- As long as there is room, every call appends a register and changes nothing else. -/
theorem appendRegisters_eq {f : BunFrame} {regs : List (Nat × UInt64)}
    (hroom : registerSize * (f.registerCount + regs.length) ≤ f.registerBufferSize) :
    ∃ data, appendRegisters h f regs =
      { f with registerCount := f.registerCount + regs.length, registerData := data } := by
  induction regs generalizing f with
  | nil => exact ⟨f.registerData, rfl⟩
  | cons reg regs ih =>
      rw [List.length_cons, registerSize] at hroom
      have hlt : f.registerCount < f.registerBufferSize / registerSize := by
        rw [registerSize]
        omega
      obtain ⟨data, hstep⟩ := bunFrameRegisterAppend_of_room (h := h) hlt reg.1 reg.2
      have hnext : appendRegisters h f (reg :: regs) = appendRegisters h
          { f with registerData := data, registerCount := f.registerCount + 1 } regs := by
        rw [appendRegisters, List.foldl_cons, hstep]
        rfl
      have hleft : registerSize * (f.registerCount + 1 + regs.length) ≤ f.registerBufferSize := by
        rw [registerSize]
        omega
      obtain ⟨data', hrest⟩ := ih
        (f := { f with registerData := data, registerCount := f.registerCount + 1 }) hleft
      refine ⟨data', ?_⟩
      rw [hnext, hrest, List.length_cons]
      simp only [Nat.add_assoc, Nat.add_comm 1]

theorem build_eq (p : PortableFrame) :
    ∃ data, p.build h =
      { p.base with registerCount := p.registers.length, registerData := data } := by
  have hroom : registerSize * (p.base.registerCount
      + (p.registers.map fun reg => (reg.1.toNat, reg.2)).length) ≤ p.base.registerBufferSize := by
    rw [List.length_map, base, Nat.zero_add]
    exact p.block_room
  obtain ⟨data, heq⟩ := appendRegisters_eq (h := h) hroom
  exact ⟨data, by rw [build, heq, List.length_map, base, Nat.zero_add]⟩

theorem symbolStr_build (p : PortableFrame) : (p.build h).symbolStr = chars p.symbol := by
  obtain ⟨data, heq⟩ := p.build_eq (h := h)
  rw [heq, BunFrame.symbolStr, base, chars, Option.map_map]
  exact congrArg (fun o => Option.getD o CString.empty) (Option.map_id' ..)

theorem filenameStr_build (p : PortableFrame) : (p.build h).filenameStr = chars p.filename := by
  obtain ⟨data, heq⟩ := p.build_eq (h := h)
  rw [heq, BunFrame.filenameStr, base, chars, Option.map_map]
  exact congrArg (fun o => Option.getD o CString.empty) (Option.map_id' ..)

theorem encodedLength_build (p : PortableFrame) : (p.build h).encodedLength = p.length := by
  obtain ⟨data, heq⟩ := p.build_eq (h := h)
  rw [BunFrame.encodedLength, p.symbolStr_build, p.filenameStr_build, heq, length]

/-- A frame short enough for some buffer of every host is one the interface allows. -/
theorem build_wellFormed (p : PortableFrame) (hp : p.length < 2 ^ 31) :
    (p.build h).WellFormed h := by
  have hsizes := h.sizes
  have hline : p.lineNo.toNat < 2 ^ 32 := p.lineNo.toNat_lt
  have hoffset : p.offset.toNat < 2 ^ 32 := p.offset.toNat_lt
  have hcount := p.registers_lt
  have hsymbol := p.symbolStr_build (h := h)
  have hfilename := p.filenameStr_build (h := h)
  rw [length] at hp
  obtain ⟨data, heq⟩ := p.build_eq (h := h)
  refine ⟨?_, ?_, ?_, ?_, ?_, ?_, ?_⟩
  · rw [heq]
    show p.lineNo.toNat < h.sizeMod
    omega
  · rw [heq]
    show p.offset.toNat < h.sizeMod
    omega
  · rw [hsymbol]
    omega
  · rw [hfilename]
    omega
  · rw [hsymbol, heq]
    show (if p.symbolGiven then _ else 0) = 0 ∨ (if p.symbolGiven then _ else 0) = _
    split
    · exact Or.inr rfl
    · exact Or.inl rfl
  · rw [hfilename, heq]
    show (if p.filenameGiven then _ else 0) = 0 ∨ (if p.filenameGiven then _ else 0) = _
    split
    · exact Or.inr rfl
    · exact Or.inl rfl
  · rw [heq]
    exact hcount

theorem totalLength_build (frames : List PortableFrame) :
    totalLength (frames.map (build h)) = (frames.map length).sum := by
  rw [totalLength, List.map_map]
  exact congrArg List.sum (List.map_congr_left fun p _ => p.encodedLength_build)

end PortableFrame

/-! ## Streams -/

/--
`s` is where a caller ends up that initialises a buffer of `n` bytes on the host,
opens it, sets the backend and writes the frames.
-/
inductive Produces (h : Host) (n : Nat) (arch : BunArchitecture) (tid : UInt32)
    (backend : BunUnwindBackend) (frames : List PortableFrame) : WriterState → Prop
  | intro {data : CObject h} {buf buf' : BunBuffer h} {handles : HandleRef → BunHandle}
      {w₀ w : BunWriter} {handle : Option HandleRef} (hn : data.1.length = n)
      (hbuf : bunBufferInit data = some buf)
      (hinit : bunWriterInit handles tid w₀ buf arch handle = (true, w, buf')) :
      Produces h n arch tid backend frames
        (writeFrames h (bunHeaderBackendSet ⟨w, buf'.memory⟩ backend)
          (frames.map (PortableFrame.build h))).2

/-- The payload up to the cursor: the header and the frames. -/
def WriterState.stream (s : WriterState) : List UInt8 :=
  s.mem.bytes.take s.writer.data.cursor.toNat

/-- A fresh reader on the buffer goes through frames with these values and then stops. -/
def Recovers (h : Host) (buf : BunBuffer h) (frames : List PortableFrame) : Prop :=
  ∀ r₀ handle f₀, ∃ r frames', bunReaderInit r₀ buf handle = some (true, r)
    ∧ readFrames h buf.payload (frames.length + 1) r f₀ = some frames'
    ∧ frames'.map (BunFrame.content h) = frames.map PortableFrame.content

/--
Whatever hosts write the frames, they write the same stream, and whatever host is
given a payload that starts with it recovers the values.
-/
structure Portable (n : Nat) (arch : BunArchitecture) (tid : UInt32)
    (backend : BunUnwindBackend) (frames : List PortableFrame) : Prop where
  same : ∀ {h h' : Host} {s s' : WriterState}, Produces h n arch tid backend frames s →
    Produces h' n arch tid backend frames s' → s.stream = s'.stream
  recovers : ∀ {h h' : Host} {s : WriterState}, Produces h n arch tid backend frames s →
    ∀ buf : BunBuffer h', s.stream <+: buf.payload → Recovers h' buf frames

variable {h : Host} {n : Nat} {arch : BunArchitecture} {tid : UInt32}
  {backend : BunUnwindBackend} {frames : List PortableFrame} {s : WriterState}

/-- Every host that can have a buffer of the size can produce a stream in it. -/
theorem exists_produces (h : Host) (arch : BunArchitecture) (tid : UInt32)
    (backend : BunUnwindBackend) (frames : List PortableFrame) (hn : n < 2 ^ 31)
    (hroom : bunBufferPayloadHeaderSize ≤ n) : ∃ s, Produces h n arch tid backend frames s := by
  have hlen : (zeroedObject h n hn).1.length = n := List.length_replicate
  obtain ⟨buf, hbuf⟩ : ∃ buf, bunBufferInit (zeroedObject h n hn) = some buf := by
    unfold bunBufferInit
    rw [if_neg (by omega)]
    exact ⟨_, rfl⟩
  have hlarge : headerSize ≤ buf.size :=
    headerSize_le_payloadHeaderSize.trans (bunBufferInit_size hbuf)
  obtain ⟨w, buf', hinit⟩ := bunWriterInit_admits hlarge tid unopenedWriter arch
  exact ⟨_, Produces.intro hlen hbuf hinit⟩

/-- **In ample room** the size in the header falls short of the cursor by the shortfall a frame. -/
theorem Produces.size (hs : Produces h n arch tid backend frames s) (hn : n < 2 ^ 31)
    (hroom : bunBufferPayloadHeaderSize + (frames.map PortableFrame.length).sum ≤ n) :
    headerSize ≤ s.mem.bytes.length
      ∧ s.writer.data.cursor = (headerSize + (frames.map PortableFrame.length).sum : Nat)
      ∧ HeaderField.size.get s.mem.bytes 0 + h.shortfall * frames.length
        = headerSize + (frames.map PortableFrame.length).sum := by
  rcases hs with @⟨data, buf, buf', handles, w₀, w, handle, hdata, hbuf, hinit⟩
  obtain ⟨_, hsize, _⟩ := bunBufferInit_eq_some hbuf
  obtain ⟨_, hsize', _⟩ := bunWriterInit_eq_true hinit
  obtain ⟨_, _, _, hdeclared⟩ := bunWriterInit_at (bunBufferInit_size hbuf) hinit
  have hopen := Live.start (bunBufferInit_size hbuf) hinit
  have hlive : Live h (bunHeaderBackendSet ⟨w, buf'.memory⟩ backend) [] :=
    hopen.setField .backend backend.toUInt16 (by decide) (by decide)
  have hkept : HeaderField.size.get
      (bunHeaderBackendSet ⟨w, buf'.memory⟩ backend).mem.bytes 0 = headerSize := by
    rw [← hdeclared, bunHeaderBackendSet, hopen.at_.mem_setField]
    exact HeaderField.get_setField_of_disjoint _ (by decide) hopen.at_.head _ (Or.inl (by decide))
  have hlen : (bunHeaderBackendSet ⟨w, buf'.memory⟩ backend).mem.bytes.length
      = n - payloadOffset := by
    rw [bunHeaderBackendSet, WriterState.length_setField]
    show buf'.payload.length = _
    rw [buf'.payload_length, hsize', hsize, hdata]
  rw [bunBufferPayloadHeaderSize] at hroom
  rw [payloadOffset] at hlen
  have htotal := PortableFrame.totalLength_build (h := h) frames
  have hwf : ∀ f ∈ frames.map (PortableFrame.build h), f.WellFormed h := fun f hf => by
    obtain ⟨p, hp, rfl⟩ := List.mem_map.mp hf
    have hle := List.le_sum_of_mem (List.mem_map_of_mem (f := PortableFrame.length) hp)
    exact p.build_wellFormed (by omega)
  obtain ⟨new, hl, hcontent, hgap⟩ := hlive.run (by omega) hwf
    (by rw [streamEnd_nil, headerSize, htotal]; omega)
  have hend : streamEnd ([] ++ new) = headerSize + (frames.map PortableFrame.length).sum := by
    rw [List.nil_append, streamEnd, length_encodeAll_of_content hcontent, htotal]
  refine ⟨hl.at_.head, hl.at_.cursor.trans (congrArg Nat.cast hend), ?_⟩
  rw [List.length_map, htotal] at hgap
  exact hgap.trans (congrArg (· + _) hkept)

theorem get_eq_of_stream {f : HeaderField} (hf : f.start + f.width ≤ headerSize)
    (hlen : headerSize ≤ s.mem.bytes.length) {c : Nat} (hcur : s.writer.data.cursor = c)
    (hc : headerSize ≤ c) :
    f.get s.mem.bytes 0 = LittleEndian.decode ((s.stream.drop f.start).take f.width) := by
  rw [HeaderField.get_of_head hf hlen, WriterState.stream, hcur, Int.toNat_natCast,
    List.drop_take, List.take_take, Nat.min_eq_left (by omega)]

/-- A 32-bit and a 64-bit host declare different sizes for the same frames. -/
theorem not_portable (hn : n < 2 ^ 31)
    (hroom : bunBufferPayloadHeaderSize + (frames.map PortableFrame.length).sum ≤ n)
    (hne : frames ≠ []) : ¬Portable n arch tid backend frames := by
  intro hport
  have hmin : bunBufferPayloadHeaderSize ≤ n := le_trans (Nat.le_add_right _ _) hroom
  obtain ⟨s, hs⟩ := exists_produces ⟨.w32, .little⟩ arch tid backend frames hn hmin
  obtain ⟨s', hs'⟩ := exists_produces ⟨.w64, .little⟩ arch tid backend frames hn hmin
  obtain ⟨hlen, hcur, hsize⟩ := hs.size hn hroom
  obtain ⟨hlen', hcur', hsize'⟩ := hs'.size hn hroom
  rw [get_eq_of_stream (by decide) hlen hcur (Nat.le_add_right _ _), hport.same hs hs',
    ← get_eq_of_stream (by decide) hlen' hcur' (Nat.le_add_right _ _)] at hsize
  have h32 : Host.shortfall ⟨.w32, .little⟩ = 10 := rfl
  have h64 : Host.shortfall ⟨.w64, .little⟩ = 2 := rfl
  have hpos : 0 < frames.length := List.length_pos_of_ne_nil hne
  rw [h32] at hsize
  rw [h64] at hsize'
  omega

/-! ## The stream of no frames -/

/-- The header of a stream of no frames. -/
def emptyStream (arch : BunArchitecture) (tid : UInt32) (backend : BunUnwindBackend) : List UInt8 :=
  ((initHeader ⟨List.replicate headerSize 0, []⟩ arch tid).setField 0 .backend
    backend.toUInt16).bytes

theorem length_emptyStream : (emptyStream arch tid backend).length = headerSize := by
  rw [emptyStream, Memory.setField_bytes, Region.length_patch, length_initHeader,
    List.length_replicate]

/-- The header is filled in without a look at what is behind it. -/
theorem take_initHeader (m : Memory) (k : Nat) :
    (initHeader m arch tid).bytes.take k = (initHeader ⟨m.bytes.take k, []⟩ arch tid).bytes := by
  simp only [initHeader, Memory.setField, Memory.store, Region.take_patch]

/-- **No host does anything of its own** before the first frame. -/
theorem Produces.stream_nil (hs : Produces h n arch tid backend [] s) :
    s.stream = emptyStream arch tid backend := by
  rcases hs with @⟨data, buf, buf', handles, w₀, w, handle, hdata, hbuf, hinit⟩
  obtain ⟨_, _, _, _, hzero⟩ := bunBufferInit_eq_some hbuf
  obtain ⟨hhead, _⟩ := buf.payload_room (bunBufferInit_size hbuf)
  obtain ⟨rfl, _, hpay⟩ := bunWriterInit_eq_true hinit
  have hcleared : buf.payload.take headerSize = List.replicate headerSize 0 := by
    have hfit : 0 + (List.replicate headerSize (0 : UInt8)).length
        ≤ (data.1.drop payloadOffset).length := by
      rw [List.length_replicate, Nat.zero_add]
      rwa [hzero, Region.length_patch] at hhead
    have hfits := Region.drop_patch_of_fits hfit
    rw [List.drop_zero] at hfits
    rw [hzero]
    exact (congrArg (List.take headerSize) hfits).trans (List.take_left' List.length_replicate)
  show ((buf'.memory.setField 0 .backend backend.toUInt16).bytes).take headerSize = _
  rw [Memory.setField_bytes, Region.take_patch, BunBuffer.memory, hpay, take_initHeader,
    BunBuffer.memory, hcleared, emptyStream, Memory.setField_bytes]

/-- Any payload that starts with the header of no frames is read as no frames. -/
theorem recovers_nil {buf : BunBuffer h}
    (hstream : emptyStream arch tid backend <+: buf.payload) : Recovers h buf [] := by
  have hlen := hstream.length_le
  rw [length_emptyStream] at hlen
  have hbuf : bunBufferPayloadHeaderSize ≤ buf.size := by
    rw [buf.payload_length, headerSize, payloadOffset] at hlen
    rw [bunBufferPayloadHeaderSize]
    omega
  have hfield : ∀ f : HeaderField, f.start + f.width ≤ headerSize →
      f.get buf.payload 0 = f.get (emptyStream arch tid backend) 0 := fun f hf => by
    obtain ⟨rest, hrest⟩ := hstream
    rw [HeaderField.get_of_head hf hlen,
      HeaderField.get_of_head hf (Nat.le_of_eq length_emptyStream.symm), ← hrest,
      List.drop_append_of_le_length (by rw [length_emptyStream]; omega),
      List.take_append_of_le_length (by rw [List.length_drop, length_emptyStream]; omega)]
  have hhead : headerSize
      ≤ (initHeader ⟨List.replicate headerSize 0, []⟩ arch tid).bytes.length := by
    rw [length_initHeader, List.length_replicate]
  obtain ⟨hmagic, hsize, _⟩ := initHeader_fields ⟨List.replicate headerSize 0, []⟩
    (Nat.le_of_eq List.length_replicate.symm) arch tid
  have hread : Readable h buf.payload [] := by
    refine ⟨?_, rfl, Or.inl ?_⟩
    · rw [hfield _ (by decide), emptyStream,
        HeaderField.get_setField_of_disjoint _ (by decide) hhead _ (Or.inl (by decide))]
      exact hmagic
    · refine gate_eq_false ?_ (HeaderField.size.get_lt _ _) ?_
      · exact hlen.trans (buf.payload_room hbuf).2.1
      · rw [hfield _ (by decide), emptyStream,
          HeaderField.get_setField_of_disjoint _ (by decide) hhead _ (Or.inl (by decide)), hsize]
        exact Nat.le_refl _
  intro r₀ handle f₀
  obtain ⟨r, frames, hinit, hframes, hcontent⟩ := hread.read hbuf r₀ handle f₀ (Nat.lt_succ_self _)
  have hnone : frames = [] := List.map_eq_nil_iff.mp (List.prefix_nil.mp hcontent)
  subst hnone
  exact ⟨r, [], hinit, readFrames_of_length_lt hframes (Nat.lt_succ_self _), rfl⟩

/-! ## The result -/

/--
**Only the stream of no frames is the same on every host.** The buffer is any size a
32-bit host can have, with room for the header and the frames.
-/
theorem portable_iff (hn : n < 2 ^ 31)
    (hroom : bunBufferPayloadHeaderSize + (frames.map PortableFrame.length).sum ≤ n) :
    Portable n arch tid backend frames ↔ frames = [] := by
  constructor
  · intro hport
    by_contra hne
    exact not_portable hn hroom hne hport
  · rintro rfl
    refine ⟨fun hs hs' => hs.stream_nil.trans hs'.stream_nil.symm, fun hs buf hstream => ?_⟩
    rw [hs.stream_nil] at hstream
    exact recovers_nil hstream

/-- `main`, with one register. -/
def PortableFrame.main : PortableFrame where
  addr := 0x401136
  lineNo := 12
  offset := 22
  symbol := some mainName
  symbolGiven := true
  filename := some sourceName
  filenameGiven := false
  registers := [(16, 0x401136)]
  block := List.replicate 10 0
  registers_lt := by decide
  block_room := Nat.le_refl _

/-- No frames, in the smallest buffer there is; and a frame, in ample room. -/
theorem portable_onlyNone : Portable 40 .arm 7 .libunwind []
    ∧ ¬Portable 200 .arm 7 .libunwind [PortableFrame.main] := by
  constructor
  · exact (portable_iff (by decide) (by decide)).mpr rfl
  · exact fun hport =>
      List.cons_ne_nil _ _ ((portable_iff (by decide) (by decide)).mp hport)

/-- A frame of nothing but zeros. -/
def PortableFrame.zero : PortableFrame where
  addr := 0
  lineNo := 0
  offset := 0
  symbol := none
  symbolGiven := false
  filename := none
  filenameGiven := false
  registers := []
  block := []
  registers_lt := by decide
  block_room := Nat.le_refl _

/-- One empty frame in a buffer of 100 bytes: the declared sizes are 42 and 50. -/
theorem portable_fails :
    (∃ s, Produces ⟨.w32, .little⟩ 100 .arm 7 .libunwind [PortableFrame.zero] s
        ∧ HeaderField.size.get s.mem.bytes 0 = 42)
      ∧ (∃ s, Produces ⟨.w64, .little⟩ 100 .arm 7 .libunwind [PortableFrame.zero] s
        ∧ HeaderField.size.get s.mem.bytes 0 = 50)
      ∧ ¬Portable 100 .arm 7 .libunwind [PortableFrame.zero] := by
  have hsum : ([PortableFrame.zero].map PortableFrame.length).sum = 28 := rfl
  have hroom : bunBufferPayloadHeaderSize + ([PortableFrame.zero].map PortableFrame.length).sum
      ≤ 100 := by decide
  refine ⟨?_, ?_, not_portable (by decide) hroom (List.cons_ne_nil _ _)⟩
  · obtain ⟨s, hs⟩ := exists_produces ⟨.w32, .little⟩ .arm 7 .libunwind [PortableFrame.zero]
      (by decide : 100 < 2 ^ 31) (by decide)
    have hsize := (hs.size (by decide) hroom).2.2
    rw [hsum, headerSize] at hsize
    exact ⟨s, hs, Nat.add_right_cancel hsize⟩
  · obtain ⟨s, hs⟩ := exists_produces ⟨.w64, .little⟩ .arm 7 .libunwind [PortableFrame.zero]
      (by decide : 100 < 2 ^ 31) (by decide)
    have hsize := (hs.size (by decide) hroom).2.2
    rw [hsum, headerSize] at hsize
    exact ⟨s, hs, Nat.add_right_cancel hsize⟩

end LibBun
