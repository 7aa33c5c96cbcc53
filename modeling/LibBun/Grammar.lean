import LibBun.Buffer

/-!
# What a stream is

The meaning of the format, stated without cursors. A **record** is what one frame
says: three 64-bit integers, two strings, and a block of registers whose count
fits sixteen bits. A record has exactly one encoding, `frameCodec` is that
encoding and its inverse, and a stream is a header followed by encodings laid
end to end.

The functions of `bun_stream.c` are not mentioned in the definitions of this
file; that the writer produces this format and that the reader accepts it, and
where they do not, is what the proofs are about. What is here of the structures
is only the reading of a `struct bun_frame` as the record it describes.
-/

namespace LibBun

/-- A register count and that many ten-byte entries. -/
abbrev RegisterBlock := (n : Fin (2 ^ 16)) × { l : List UInt8 // l.length = registerSize * n }

/-- What one frame says. -/
structure Record where
  addr : UInt64
  lineNo : UInt64
  offset : UInt64
  symbol : CString
  filename : CString
  registers : RegisterBlock

/-- A 64-bit integer, least significant byte first. -/
def u64Codec : Codec UInt8 UInt64 :=
  Codec.fixed 8 (fun v => LittleEndian.encode 8 v.toNat)
    (fun bs => UInt64.ofNat (LittleEndian.decode bs))
    (fun v => LittleEndian.length_encode 8 v.toNat)
    (fun v => by
      rw [LittleEndian.decode_encode_of_lt (by exact v.toNat_lt), UInt64.ofNat_toNat])
    (fun bs hbs => by
      have hlt : LittleEndian.decode bs < 2 ^ 64 := by
        have := LittleEndian.decode_lt bs
        rw [hbs] at this
        exact this
      rw [UInt64.toNat_ofNat_of_lt' hlt, LittleEndian.encode_decode_of_length hbs])

/-- A 16-bit integer, least significant byte first. -/
def u16Codec : Codec UInt8 (Fin (2 ^ 16)) :=
  Codec.fixed 2 (fun v => LittleEndian.encode 2 v.1)
    (fun bs => Fin.ofNat (2 ^ 16) (LittleEndian.decode bs))
    (fun v => LittleEndian.length_encode 2 v.1)
    (fun v => by
      apply Fin.ext
      rw [LittleEndian.decode_encode_of_lt (by exact v.2), Fin.val_ofNat, Nat.mod_eq_of_lt v.2])
    (fun bs hbs => by
      have hlt : LittleEndian.decode bs < 2 ^ 16 := by
        have := LittleEndian.decode_lt bs
        rw [hbs] at this
        exact this
      rw [Fin.val_ofNat, Nat.mod_eq_of_lt hlt, LittleEndian.encode_decode_of_length hbs])

/-- A string closed by its NUL. -/
def stringCodec : Codec UInt8 CString := Codec.terminated 0

/-- A count and what it counts. -/
def registersCodec : Codec UInt8 RegisterBlock :=
  u16Codec.sigma fun n => Codec.block UInt8 (registerSize * n)

/-- The fields of a record in stream order. -/
def Record.equivFields :
    UInt64 × UInt64 × UInt64 × CString × CString × RegisterBlock ≃ Record where
  toFun := fun (a, l, o, s, f, r) => ⟨a, l, o, s, f, r⟩
  invFun r := (r.addr, r.lineNo, r.offset, r.symbol, r.filename, r.registers)
  left_inv _ := rfl
  right_inv _ := rfl

/-- The format of one frame. -/
def frameCodec : Codec UInt8 Record :=
  Codec.equiv
    (u64Codec.pair <| u64Codec.pair <| u64Codec.pair <|
      stringCodec.pair <| stringCodec.pair registersCodec)
    Record.equivFields

namespace Record

/-- The number of bytes a record takes. -/
def length (r : Record) : Nat :=
  28 + r.symbol.1.length + r.filename.1.length + registerSize * r.registers.1

/-- The encoding of a record, written out. -/
theorem encode_eq (r : Record) :
    frameCodec.encode r =
      LittleEndian.encode 8 r.addr.toNat ++ (LittleEndian.encode 8 r.lineNo.toNat ++
        (LittleEndian.encode 8 r.offset.toNat ++ ((r.symbol.1 ++ [0]) ++ ((r.filename.1 ++ [0]) ++
          (LittleEndian.encode 2 r.registers.1.1 ++ r.registers.2.1))))) := rfl

@[simp] theorem length_encode (r : Record) : (frameCodec.encode r).length = r.length := by
  have hr := r.registers.2.2
  rw [encode_eq, length]
  simp only [List.length_append, LittleEndian.length_encode, List.length_cons, List.length_nil, hr]
  omega

theorem length_ge (r : Record) : 28 ≤ r.length := by
  rw [length]
  omega

/-- Where there is a record in some bytes, they do not end before it. -/
theorem end_le {mem : List UInt8} {off : Nat} {r : Record} {rest : List UInt8}
    (hdec : mem.drop off = frameCodec.encode r ++ rest) : off + r.length ≤ mem.length := by
  have hlen := congrArg List.length hdec
  rw [List.length_append, length_encode, List.length_drop] at hlen
  have hge := r.length_ge
  omega

end Record

/-! ## Reading a structure as a record -/

/-- What a caller can see of a frame, strings by their characters and registers by their values. -/
structure FrameContent where
  addr : UInt64
  lineNo : Nat
  offset : Nat
  symbol : List UInt8
  filename : List UInt8
  registers : List (Option (Nat × UInt64))
deriving DecidableEq, Repr

namespace BunFrame

/-- The content of a structure; a `NULL` string counts as the empty one. -/
def content (h : Host) (f : BunFrame) : FrameContent where
  addr := f.addr
  lineNo := f.lineNo
  offset := f.offset
  symbol := f.symbolStr.1
  filename := f.filenameStr.1
  registers := (List.range f.registerCount).map (bunFrameRegisterGet h f)

/--
A frame as the interface asks for it. The `size_t` fields that are stored hold
`size_t` values, strings are C objects, the lengths are 0 or those of the
strings, and the registers can be counted in sixteen bits.
-/
structure WellFormed (h : Host) (f : BunFrame) : Prop where
  lineNo_lt : f.lineNo < h.sizeMod
  offset_lt : f.offset < h.sizeMod
  /-- The symbol, with its NUL, is an object. -/
  symbol_lt : f.symbolStr.1.length < h.ptrdiffMax
  /-- The file name, with its NUL, is an object. -/
  filename_lt : f.filenameStr.1.length < h.ptrdiffMax
  /-- An explicit symbol length is the right one. -/
  symbolLength : f.symbolLength = 0 ∨ f.symbolLength = f.symbolStr.1.length
  /-- An explicit file name length is the right one. -/
  filenameLength : f.filenameLength = 0 ∨ f.filenameLength = f.filenameStr.1.length
  /-- The registers can be counted. -/
  registerCount_lt : f.registerCount < 2 ^ 16

theorem zero_wellFormed (h : Host) : zero.WellFormed h := by
  have hsizes := h.sizes
  refine ⟨?_, ?_, ?_, ?_, Or.inl rfl, Or.inl rfl, by decide⟩
  · show 0 < h.sizeMod; omega
  · show 0 < h.sizeMod; omega
  · show 0 < h.ptrdiffMax; omega
  · show 0 < h.ptrdiffMax; omega

theorem length_registerBlock (f : BunFrame) :
    f.registerBlock.length = registerSize * f.registerCount := by
  rw [registerBlock, List.takeD_length]

/-- The record a well-formed frame describes. -/
def record {h : Host} (f : BunFrame) (hf : f.WellFormed h) : Record where
  addr := f.addr
  lineNo := UInt64.ofNat f.lineNo
  offset := UInt64.ofNat f.offset
  symbol := f.symbolStr
  filename := f.filenameStr
  registers := ⟨⟨f.registerCount, hf.registerCount_lt⟩, f.registerBlock, f.length_registerBlock⟩

/-- The bytes the encoding of the frame takes. -/
def encodedLength (f : BunFrame) : Nat :=
  28 + f.symbolStr.1.length + f.filenameStr.1.length + registerSize * f.registerCount

@[simp] theorem length_record {h : Host} {f : BunFrame} (hf : f.WellFormed h) :
    (f.record hf).length = f.encodedLength := rfl

end BunFrame

/-! ## Two frames -/

/-- "main". -/
def mainName : CString := ⟨[109, 97, 105, 110], by decide⟩

/-- "f". -/
def leafName : CString := ⟨[102], by decide⟩

/-- "a.c". -/
def sourceName : CString := ⟨[97, 46, 99], by decide⟩

/-- `main`, with two registers. -/
def mainFrame : BunFrame where
  addr := 0x401136
  symbol := some ⟨0, mainName⟩
  symbolLength := 4
  filename := some ⟨0, sourceName⟩
  filenameLength := 0
  lineNo := 12
  offset := 22
  registerCount := 2
  registerBufferSize := 20
  registerData := some ⟨0, [16, 0, 54, 17, 64, 0, 0, 0, 0, 0,
    7, 0, 240, 223, 255, 255, 127, 0, 0, 0]⟩

/-- `f`, nobody knows where, with one register. -/
def leafFrame : BunFrame where
  addr := 0x401106
  symbol := some ⟨0, leafName⟩
  symbolLength := 0
  filename := none
  filenameLength := 0
  lineNo := 0
  offset := 4
  registerCount := 1
  registerBufferSize := 10
  registerData := some ⟨0, [16, 0, 6, 17, 64, 0, 0, 0, 0, 0]⟩

theorem mainFrame_wellFormed (h : Host) : mainFrame.WellFormed h := by
  have hsizes := h.sizes
  refine ⟨?_, ?_, ?_, ?_, Or.inr rfl, Or.inl rfl, by decide⟩
  · show 12 < h.sizeMod; omega
  · show 22 < h.sizeMod; omega
  · show 4 < h.ptrdiffMax; omega
  · show 3 < h.ptrdiffMax; omega

theorem leafFrame_wellFormed (h : Host) : leafFrame.WellFormed h := by
  have hsizes := h.sizes
  refine ⟨?_, ?_, ?_, ?_, Or.inl rfl, Or.inl rfl, by decide⟩
  · show 0 < h.sizeMod; omega
  · show 4 < h.sizeMod; omega
  · show 1 < h.ptrdiffMax; omega
  · show 0 < h.ptrdiffMax; omega

theorem bothFrames_wellFormed (h : Host) : ∀ f ∈ [mainFrame, leafFrame], f.WellFormed h := by
  rintro f (_ | ⟨_, _ | ⟨_, hf⟩⟩)
  · exact mainFrame_wellFormed h
  · exact leafFrame_wellFormed h
  · exact absurd hf List.not_mem_nil

end LibBun
