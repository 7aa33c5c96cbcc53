import LibBun.Proof.Layout
import LibBun.Proof.Stream

/-!
# Lengths given for strings

A frame may say how long its strings are. `bun_frame_write` believes it: the estimate
and the cursor go by the lengths. But it copies with `strcpy`, which goes by the NUL. A
length that is too short leaves the end of the string in the stream, with the NUL
overwritten by what comes next; one that is too long leaves a gap behind the NUL, and
what was in the buffer shows through.

Either way the reader is out of step from there on. `lengths_honoured_iff` says that
lengths are honoured only where they say nothing new.
-/

namespace LibBun

variable {h : Host}

/-- The writer with other bytes in its payload. -/
def WriterState.withBytes (s : WriterState) (m : List UInt8) : WriterState :=
  { s with mem := { s.mem with bytes := m } }

namespace BunFrame

/-- The content of a frame whose lengths are honoured: each string is cut to its length. -/
def cutContent (h : Host) (f : BunFrame) : FrameContent :=
  { f.content h with
    symbol := f.symbolStr.1.take f.symbolLength
    filename := f.filenameStr.1.take f.filenameLength }

/-- The bytes that say so, from the symbol to the register count. -/
def cutBytes (f : BunFrame) : List UInt8 :=
  (f.symbolStr.1.take f.symbolLength ++ [0]) ++ ((f.filenameStr.1.take f.filenameLength ++ [0])
    ++ LittleEndian.encode 2 f.registerCount)

end BunFrame

namespace BunFrame

variable (f : BunFrame)

/-- The symbol, cut to its length, is closed. -/
theorem cutBytes_symbol : f.cutBytes[(f.symbolStr.1.take f.symbolLength).length]? = some 0 := by
  rw [cutBytes, List.getElem?_append_left (by simp), List.getElem?_concat_length]

/-- So is the file name. -/
theorem cutBytes_filename : f.cutBytes[(f.symbolStr.1.take f.symbolLength ++ [0]).length
    + (f.filenameStr.1.take f.filenameLength).length]? = some 0 := by
  rw [cutBytes, List.getElem?_append_right (Nat.le_add_right _ _), Nat.add_sub_cancel_left,
    List.getElem?_append_left (by simp), List.getElem?_concat_length]

theorem length_cutBytes : f.cutBytes.length = min f.symbolLength f.symbolStr.1.length + 1
    + (min f.filenameLength f.filenameStr.1.length + 1 + 2) := by
  simp only [cutBytes, List.length_append, List.length_take, List.length_singleton,
    LittleEndian.length_encode]

end BunFrame

/-- The call on a payload `m`, and what a reader then finds where the cursor was. -/
structure Honoured (h : Host) (s : WriterState) (off : Nat) (f : BunFrame) (m : List UInt8) :
    Prop where
  returned : (bunFrameWrite h (s.withBytes m) f).1 ≠ 0
  /-- No byte is stored behind the final cursor. -/
  inside : ∀ st ∈ (bunFrameWrite h (s.withBytes m) f).2.mem.log.drop s.mem.log.length,
    st.addr + st.cells.length ≤ (bunFrameWrite h (s.withBytes m) f).2.writer.data.cursor
  read : ∀ r, ReaderAt h (bunFrameWrite h (s.withBytes m) f).2.mem.bytes r off →
    r.data.overflow = false → ∀ f₀, ∃ r' f',
      bunFrameRead h (bunFrameWrite h (s.withBytes m) f).2.mem.bytes r f₀ = some (true, r', f')
        ∧ f'.content h = f.cutContent h

/-- The lengths are honoured whatever the buffer held from the cursor on. -/
def LengthsHonoured (h : Host) (s : WriterState) (off : Nat) (f : BunFrame) : Prop :=
  ∀ m, Region.SameOn 0 off s.mem.bytes m → Honoured h s off f m

/-- Room for the frame, by the lengths and by the strings. -/
def AmpleRoom (s : WriterState) (f : BunFrame) : Prop :=
  s.writer.data.cursor - s.writer.data.buffer
    + (28 + max f.symbolLength f.symbolStr.1.length
      + max f.filenameLength f.filenameStr.1.length + registerSize * f.registerCount : Nat)
    ≤ s.writer.data.size

instance (s : WriterState) (f : BunFrame) : Decidable (AmpleRoom s f) :=
  inferInstanceAs (Decidable (_ ≤ _))

/-- A frame with explicit lengths; the two fields of type `size_t` that are stored hold one. -/
structure ExplicitLengths (h : Host) (f : BunFrame) : Prop where
  symbol : f.symbolLength ≠ 0
  filename : f.filenameLength ≠ 0
  lineNo_lt : f.lineNo < h.sizeMod
  offset_lt : f.offset < h.sizeMod

section

variable {s : WriterState} {off : Nat} {f : BunFrame} {m : List UInt8}

theorem WriterAt.withBytes (hs : WriterAt h s off) (hm : Region.SameOn 0 off s.mem.bytes m) :
    WriterAt h (s.withBytes m) off :=
  ⟨hs.buffer, hm.1 ▸ hs.size, hm.1 ▸ hs.mem_le, hm.1 ▸ hs.head, hs.cursor, hs.start,
    fun hov => hm.1 ▸ hs.tight hov⟩

theorem effectiveLength_of_ne_zero {length : Nat} (hne : length ≠ 0) (str : Option CharPtr) :
    effectiveLength h length str = length := by
  cases str with
  | none => rfl
  | some p => rw [effectiveLength, if_neg hne]

/-- With room for it, a call with explicit lengths goes by them and is accepted. -/
theorem places (hs : WriterAt h s off) (hf : ExplicitLengths h f) (hroom : AmpleRoom s f) :
    filenameAt h off f = off + 24 + (f.symbolLength + 1)
      ∧ countAt h off f = off + 24 + (f.symbolLength + 1) + (f.filenameLength + 1)
      ∧ countAt h off f + 2 ≤ s.mem.bytes.length
      ∧ wouldWrite h f ≠ 0 ∧ ¬writerAvailable h s.writer < wouldWrite h f := by
  have hmem := hs.mem_le
  have hmod := h.sizes
  rw [AmpleRoom, hs.cursor, hs.buffer, hs.size] at hroom
  have hsym := Host.toSizeT_of_lt (h := h) (z := (f.symbolLength : Int) + 1) (by omega) (by omega)
  have hfil := Host.toSizeT_of_lt (h := h) (z := (f.filenameLength : Int) + 1) (by omega)
    (by omega)
  have hname : filenameAt h off f = off + 24 + (f.symbolLength + 1) := by
    rw [filenameAt, effectiveLength_of_ne_zero hf.symbol]
    omega
  have hcount : countAt h off f = off + 24 + (f.symbolLength + 1) + (f.filenameLength + 1) := by
    rw [countAt, hname, effectiveLength_of_ne_zero hf.filename]
    omega
  have hest : wouldWrite h f = f.symbolLength + f.filenameLength + 2 + 8 + h.sizeofSizeT
      + h.sizeofSizeT + registerSize * f.registerCount := by
    have hmul : f.registerCount * registerSize = registerSize * f.registerCount := Nat.mul_comm ..
    rw [wouldWrite, effectiveLength_of_ne_zero hf.symbol, effectiveLength_of_ne_zero hf.filename,
      h.toSizeT_natCast, hmul, Nat.mod_eq_of_lt (by omega)]
  refine ⟨hname, hcount, by omega, by omega, ?_⟩
  rw [hs.writerAvailable, hs.toSizeT_room (by omega)]
  omega

/-- A reader whose cursor is where the writer's was. -/
theorem readerAt_exists (hs : WriterAt h s off) (hoff : off ≤ s.mem.bytes.length)
    {M : List UInt8} (hM : M.length = s.mem.bytes.length) :
    ∃ r, ReaderAt h M r off ∧ r.data.overflow = false :=
  ⟨⟨⟨0, off, M.length, none, false⟩⟩, ⟨rfl, rfl, rfl, hM ▸ hoff, hM ▸ hs.mem_le⟩, rfl⟩

/-- What is read back says which bytes the call must have left, and that its registers count. -/
theorem Honoured.layout_eq (hm : Region.SameOn 0 off s.mem.bytes m) (hs : WriterAt h s off)
    (hf : ExplicitLengths h f) (hroom : AmpleRoom s f) (hh : Honoured h s off f m) :
    (∀ i, i < f.cutBytes.length → (layout h m off f)[off + 24 + i]? = f.cutBytes[i]?)
      ∧ f.registerCount < 2 ^ 16
      ∧ gate h ((HeaderField.size.get m 0 + wouldWrite h f) % 2 ^ 32) off = true := by
  obtain ⟨_, _, hfit, _, hacc⟩ := places hs hf hroom
  have hsm := hs.withBytes hm
  have hfit : countAt h off f + 2 ≤ (s.withBytes m).mem.bytes.length := hm.1 ▸ hfit
  have hlen : (frameStep h (s.withBytes m) f).mem.bytes.length = m.length :=
    length_bunFrameWrite ..
  have hoff : off ≤ s.mem.bytes.length := by
    rw [AmpleRoom, hs.cursor, hs.buffer, hs.size] at hroom
    omega
  -- the reader finds a record, and its content is what was asked for
  obtain ⟨r, hr, hov⟩ := readerAt_exists hs hoff (hlen.trans hm.1.symm)
  obtain ⟨r', f', hread, hcontent⟩ := hh.read r hr hov f
  obtain ⟨rec, hrec, _, rfl⟩ := follows_of_read hr (hlen ▸ hsm.head) hread
  obtain ⟨rest, hdec⟩ := hrec.decoded
  have hdec := frameCodec.decode_sound hdec
  rw [content_deliver hdec] at hcontent
  have hsym : rec.symbol.1 = f.symbolStr.1.take f.symbolLength :=
    congrArg FrameContent.symbol hcontent
  have hfil : rec.filename.1 = f.filenameStr.1.take f.filenameLength :=
    congrArg FrameContent.filename hcontent
  have hcount : rec.registers.1.1 = f.registerCount := by
    have hregs := congrArg (fun c => c.registers.length) hcontent
    simpa [Record.content, BunFrame.cutContent, BunFrame.content] using hregs
  refine ⟨fun i hi => ?_, hcount ▸ rec.registers.1.2, ?_⟩
  · -- behind the integers the record is the bytes that say so
    have hstart := hs.start
    have htail : (frameStep h (s.withBytes m) f).mem.bytes.drop (off + 24)
        = f.cutBytes ++ (rec.registers.2.1 ++ rest) := by
      have hdrop := rec.drop_symbol rest
      rw [← hdec, List.drop_drop, hsym, hfil] at hdrop
      refine hdrop.trans ?_
      rw [BunFrame.cutBytes, ← hcount]
      simp only [List.append_assoc]
    have hcell := (sameOn_layout hsm hacc hfit ((off + 24 + i + 1 : Nat) : Int)).2 (off + 24 + i)
      (by omega) (by omega)
    refine hcell.trans ?_
    rw [← List.getElem?_drop, htail, List.getElem?_append_left hi]
  · have hgate := hrec.open_
    rwa [size_frameStep hsm hacc] at hgate

/-- A byte other than a given one. -/
theorem exists_byte_ne (e : UInt8) : ∃ c : UInt8, c ≠ e := by
  by_cases he : e = 0
  · exact ⟨1, by rw [he]; decide⟩
  · exact ⟨0, Ne.symm he⟩

/-- No character of a string is a NUL. -/
theorem getElem?_ne_zero (str : CString) (i : Nat) : str.1[i]? ≠ some 0 := fun hz =>
  str.2 (List.mem_of_getElem? hz)

/-- Some contents of the buffer differ, at a given place behind the cursor, from what is asked. -/
theorem exists_content (hoff : off ≤ i) (hi : i < s.mem.bytes.length) (e : Option UInt8) :
    ∃ m, Region.SameOn 0 off s.mem.bytes m ∧ m[i]? ≠ e := by
  obtain ⟨c, hc⟩ := exists_byte_ne (e.getD 0)
  refine ⟨Region.patch s.mem.bytes i [c],
    Region.sameOn_patch_above 0 s.mem.bytes [c] (Int.ofNat_le.mpr hoff), ?_⟩
  have hcell : (Region.patch s.mem.bytes (i : Nat) [c])[i + 0]? = [c][0]? :=
    Region.getElem?_patch_of_inside (by omega) (by simp)
  rw [Nat.add_zero] at hcell
  rw [hcell]
  rintro rfl
  exact hc rfl

/-- Where a string is to be closed, the copy has no character left. -/
theorem LengthsHonoured.closed (hh : LengthsHonoured h s off f) (hs : WriterAt h s off)
    (hf : ExplicitLengths h f) (hroom : AmpleRoom s f) {j : Nat} (hj : j < f.cutBytes.length)
    (hzero : f.cutBytes[j]? = some 0) (str : CString) (k : Nat) :
    (layout h s.mem.bytes off f)[off + 24 + j]? ≠ str.1[k]? := fun hcell => by
  have hsame := Region.SameOn.refl 0 (off : Int) s.mem.bytes
  have hbyte := ((hh _ hsame).layout_eq hsame hs hf hroom).1 j hj
  rw [hzero, hcell] at hbyte
  exact getElem?_ne_zero str k hbyte

/-- No byte that is read back is what the buffer held before. -/
theorem LengthsHonoured.no_gap (hh : LengthsHonoured h s off f) (hs : WriterAt h s off)
    (hf : ExplicitLengths h f) (hroom : AmpleRoom s f) {j : Nat} (hj : j < f.cutBytes.length)
    (hin : off + 24 + j < s.mem.bytes.length) :
    ¬∀ m, (layout h m off f)[off + 24 + j]? = m[off + 24 + j]? := fun hgap => by
  have hbehind : off ≤ off + 24 + j := by omega
  obtain ⟨m, hsame, hm⟩ := exists_content hbehind hin f.cutBytes[j]?
  have hbyte := ((hh m hsame).layout_eq hsame hs hf hroom).1 j hj
  rw [hgap m] at hbyte
  exact hm hbyte

/-- **A symbol length that is not the symbol's own is not honoured.** -/
theorem symbolLength_eq (hs : WriterAt h s off) (hf : ExplicitLengths h f)
    (hroom : AmpleRoom s f) (hh : LengthsHonoured h s off f) :
    f.symbolLength = f.symbolStr.1.length := by
  obtain ⟨hname, _⟩ := places hs hf hroom
  have hlen := f.length_cutBytes
  have hroom' := hroom
  rw [AmpleRoom, hs.cursor, hs.buffer, hs.size] at hroom'
  rcases Nat.lt_trichotomy f.symbolLength f.symbolStr.1.length with hlt | heq | hgt
  · -- the character at the length is still there
    have hzero := f.cutBytes_symbol
    rw [List.length_take_of_le (Nat.le_of_lt hlt)] at hzero
    refine absurd ?_ (hh.closed hs hf hroom (by omega) hzero f.symbolStr f.symbolLength)
    rw [layout_symbol (by omega) (by rw [List.length_append]; omega) (by omega),
      List.getElem?_append_left hlt]
  · exact heq
  · -- the byte behind the NUL is not written
    have hj : f.symbolStr.1.length + 1 < f.cutBytes.length := by omega
    refine absurd (fun m => ?_) (hh.no_gap hs hf hroom hj (by omega))
    exact layout_gap (by rw [List.length_append, List.length_singleton]) (Or.inl (by omega))

/-- **Nor is such a file name length.** -/
theorem filenameLength_eq (hs : WriterAt h s off) (hf : ExplicitLengths h f)
    (hroom : AmpleRoom s f) (hh : LengthsHonoured h s off f) :
    f.filenameLength = f.filenameStr.1.length := by
  obtain ⟨hname, hcount, _⟩ := places hs hf hroom
  have hsym := symbolLength_eq hs hf hroom hh
  have hlen := f.length_cutBytes
  have hroom' := hroom
  rw [AmpleRoom, hs.cursor, hs.buffer, hs.size] at hroom'
  rcases Nat.lt_trichotomy f.filenameLength f.filenameStr.1.length with hlt | heq | hgt
  · have hzero := f.cutBytes_filename
    rw [List.length_append, List.length_take_of_le (Nat.le_of_eq hsym),
      List.length_take_of_le (Nat.le_of_lt hlt), List.length_singleton] at hzero
    have hplace : off + 24 + (f.symbolLength + 1 + f.filenameLength)
        = filenameAt h off f + f.filenameLength := by omega
    refine absurd ?_ (hh.closed hs hf hroom (by omega) hzero f.filenameStr f.filenameLength)
    rw [hplace, layout_filename (by omega) (by rw [List.length_append]; omega) (by omega),
      List.getElem?_append_left hlt]
  · exact heq
  · -- the byte behind the NUL is in front of the count, and is not written
    have hj : f.symbolLength + 1 + (f.filenameStr.1.length + 1) < f.cutBytes.length := by omega
    refine absurd (fun m => ?_) (hh.no_gap hs hf hroom hj (by omega))
    exact layout_gap (by rw [List.length_append, List.length_singleton]; omega)
      (Or.inr ⟨by rw [List.length_append, List.length_singleton]; omega, by omega⟩)

/-- Right lengths make a frame the interface allows. -/
theorem wellFormed_of_lengths (hs : WriterAt h s off) (hf : ExplicitLengths h f)
    (hroom : AmpleRoom s f) (hsym : f.symbolLength = f.symbolStr.1.length)
    (hfil : f.filenameLength = f.filenameStr.1.length) (hcount : f.registerCount < 2 ^ 16) :
    f.WellFormed h ∧ off + f.encodedLength ≤ s.mem.bytes.length := by
  have hmem := hs.mem_le
  rw [AmpleRoom, hs.cursor, hs.buffer, hs.size] at hroom
  refine ⟨⟨hf.lineNo_lt, hf.offset_lt, by omega, by omega, Or.inr hsym, Or.inr hfil, hcount⟩, ?_⟩
  rw [BunFrame.encodedLength]
  omega

/-- **Lengths that say nothing new are honoured.** -/
theorem honoured_of_lengths (hs : WriterAt h s off) (hf : ExplicitLengths h f)
    (hroom : AmpleRoom s f) (hsym : f.symbolLength = f.symbolStr.1.length)
    (hfil : f.filenameLength = f.filenameStr.1.length) (hcount : f.registerCount < 2 ^ 16)
    (hgate : gate h ((HeaderField.size.get s.mem.bytes 0 + wouldWrite h f) % 2 ^ 32) off = true)
    (hm : Region.SameOn 0 off s.mem.bytes m) : Honoured h s off f m := by
  obtain ⟨_, _, _, hne, _⟩ := places hs hf hroom
  obtain ⟨hwf, hfit⟩ := wellFormed_of_lengths hs hf hroom hsym hfil hcount
  have hsm := hs.withBytes hm
  have hstart := hs.start
  obtain ⟨hacc, _, hemit, _⟩ := emitted_of_fits hsm hwf (hm.1 ▸ hfit)
  have hret : (bunFrameWrite h (s.withBytes m) f).1 = wouldWrite h f := by
    rw [bunFrameWrite_eq, if_neg hacc]
  refine ⟨by rw [hret]; exact hne, fun st hst => ?_, fun r hr hclear f₀ => ?_⟩
  · -- the stores are those of the frame's bytes and the one to the header
    have hcur : (frameStep h (s.withBytes m) f).writer.data.cursor = _ := hemit.at_.cursor
    have hlog : (frameStep h (s.withBytes m) f).mem.log = s.mem.log ++ _ ++ _ := hemit.log
    rw [← frameStep, hlog, List.append_assoc, List.drop_left] at hst
    rw [← frameStep, hcur]
    rcases List.mem_append.mp hst with hbody | hheader
    · have := (Region.mem_cellwise hbody).2
      omega
    · rw [List.mem_singleton.mp hheader]
      have hwidth : (HeaderField.size.start + HeaderField.size.width : Nat) ≤ headerSize := by
        decide
      show ((HeaderField.size.start : Nat) : Int) + ((LittleEndian.encode _ _).length : Nat) ≤ _
      rw [LittleEndian.length_encode]
      omega
  · -- the bytes at the old cursor are the encoding of the frame
    have hsize : HeaderField.size.get m 0 = HeaderField.size.get s.mem.bytes 0 :=
      HeaderField.get_of_sameOn hm (Nat.zero_le _)
        (Int.ofNat_le.mpr (le_trans (by decide) hstart)) (by decide) hs.head
    have hbytes := hemit.drop_bytes hstart
    rw [List.take_of_length_le (by
      rw [Record.length_encode, BunFrame.length_record]
      have := hm.1
      show _ ≤ m.length - off
      omega)] at hbytes
    have hnext : Follows h (frameStep h (s.withBytes m) f).mem.bytes r off (f.record hwf) := by
      refine ⟨hclear, ?_, _, by rw [hbytes, frameCodec.decode_encode]⟩
      rw [hemit.size]
      show gate h ((HeaderField.size.get m 0 + wouldWrite h f) % 2 ^ 32) off = true
      rw [hsize]
      exact hgate
    have hhead : headerSize ≤ (frameStep h (s.withBytes m) f).mem.bytes.length := by
      rw [hemit.length_bytes]
      exact hsm.head
    refine ⟨_, _, hnext.read hr hhead f₀, ?_⟩
    rw [content_deliver hbytes, BunFrame.content_record, BunFrame.cutContent,
      List.take_of_length_le (Nat.le_of_eq hsym.symm),
      List.take_of_length_le (Nat.le_of_eq hfil.symm)]
    rfl

end

/-! ## Exactly when -/

/--
The lengths are those of the strings, the registers can be counted in sixteen bits, and
the frame starts inside the stream that the header will declare, which has fallen
behind by the shortfall for every frame.
-/
structure LengthsFit (h : Host) (s : WriterState) (off : Nat) (f : BunFrame) : Prop where
  symbol : f.symbolLength = f.symbolStr.1.length
  filename : f.filenameLength = f.filenameStr.1.length
  registers : f.registerCount < 2 ^ 16
  declared : off < (HeaderField.size.get s.mem.bytes 0 + (f.encodedLength - h.shortfall)) % 2 ^ 32
    ∧ (HeaderField.size.get s.mem.bytes 0 + (f.encodedLength - h.shortfall)) % 2 ^ 32 - off
      ≤ h.ptrdiffMax

/--
**Explicit lengths are honoured exactly when they are what the library would have
measured**, in a frame that can be read back at all. The writer is any that was opened,
after any calls, with ample room for the frame.
-/
theorem lengths_honoured_iff {data : CObject h} {buf buf' : BunBuffer h}
    (hbuf : bunBufferInit data = some buf) {handles : HandleRef → BunHandle} {tid : UInt32}
    {w₀ w : BunWriter} {arch : BunArchitecture} {handle : Option HandleRef}
    (hinit : bunWriterInit handles tid w₀ buf arch handle = (true, w, buf'))
    {ops : List WriterOp} {s : WriterState}
    (hs : s = ops.foldl (WriterOp.apply h) ⟨w, buf'.memory⟩) {f : BunFrame}
    (hf : ExplicitLengths h f) (hroom : AmpleRoom s f) :
    ∃ off : Nat, s.writer.data.cursor - s.writer.data.buffer = off
      ∧ (LengthsHonoured h s off f ↔ LengthsFit h s off f) := by
  obtain ⟨off, _, hat⟩ := (bunWriterInit_at (bunBufferInit_size hbuf) hinit).1.run ops
  rw [← hs] at hat
  have hmem := hat.mem_le
  have hoff : off ≤ s.mem.bytes.length := by
    have hroom' := hroom
    rw [AmpleRoom, hat.cursor, hat.buffer, hat.size] at hroom'
    omega
  -- the gate, in terms of the frame's length
  have hgate : f.WellFormed h → off + f.encodedLength ≤ s.mem.bytes.length →
      (gate h ((HeaderField.size.get s.mem.bytes 0 + wouldWrite h f) % 2 ^ 32) off = true ↔
        off < (HeaderField.size.get s.mem.bytes 0 + (f.encodedLength - h.shortfall)) % 2 ^ 32
          ∧ (HeaderField.size.get s.mem.bytes 0 + (f.encodedLength - h.shortfall)) % 2 ^ 32 - off
            ≤ h.ptrdiffMax) := by
    intro hwf hfit
    rw [wouldWrite_of_le hwf hmem (by omega)]
    exact gate_eq_true_iff (hoff.trans hmem) (Nat.mod_lt _ (by decide))
  refine ⟨off, by rw [hat.cursor, hat.buffer, Int.sub_zero], fun hh => ?_, fun hfits => ?_⟩
  · have hsym := symbolLength_eq hat hf hroom hh
    have hfil := filenameLength_eq hat hf hroom hh
    have hsame := Region.SameOn.refl 0 (off : Int) s.mem.bytes
    obtain ⟨_, hcount, hopen⟩ := (hh _ hsame).layout_eq hsame hat hf hroom
    obtain ⟨hwf, hfit⟩ := wellFormed_of_lengths hat hf hroom hsym hfil hcount
    exact ⟨hsym, hfil, hcount, (hgate hwf hfit).mp hopen⟩
  · obtain ⟨hsym, hfil, hcount, hopen⟩ := hfits
    obtain ⟨hwf, hfit⟩ := wellFormed_of_lengths hat hf hroom hsym hfil hcount
    exact fun m hm => honoured_of_lengths hat hf hroom hsym hfil hcount
      ((hgate hwf hfit).mpr hopen) hm

/-- The strings "ab" and "c", with a length given for each. -/
def twoStringFrame (symbolLength filenameLength : Nat) : BunFrame :=
  { BunFrame.zero with
    symbol := some ⟨0, ⟨[97, 98], by decide⟩⟩
    symbolLength := symbolLength
    filename := some ⟨0, ⟨[99], by decide⟩⟩
    filenameLength := filenameLength }

/-- Two and one, as they are. -/
theorem lengths_honoured_own :
    ∃ buf buf' w, bunBufferInit (zeroedObject ⟨.w64, .little⟩ 100 (by decide)) = some buf
      ∧ bunWriterInit (fun _ => ⟨0⟩) 7 unopenedWriter buf .x86_64 none = (true, w, buf')
      ∧ LengthsHonoured ⟨.w64, .little⟩ ⟨w, buf'.memory⟩ 24 (twoStringFrame 2 1) := by
  have hsetup : ∃ buf buf' w,
      bunBufferInit (zeroedObject ⟨.w64, .little⟩ 100 (by decide)) = some buf
      ∧ bunWriterInit (fun _ => ⟨0⟩) 7 unopenedWriter buf .x86_64 none = (true, w, buf')
      ∧ w.data.cursor - w.data.buffer = 24
      ∧ AmpleRoom ⟨w, buf'.memory⟩ (twoStringFrame 2 1)
      ∧ HeaderField.size.get buf'.memory.bytes 0 = 24 :=
    ⟨_, _, _, rfl, rfl, rfl, by decide, rfl⟩
  obtain ⟨buf, buf', w, hbuf, hinit, hcur, hroom, hsize⟩ := hsetup
  have hnone : (⟨w, buf'.memory⟩ : WriterState)
      = ([] : List WriterOp).foldl (WriterOp.apply ⟨.w64, .little⟩) ⟨w, buf'.memory⟩ := rfl
  obtain ⟨off, hoff, hiff⟩ := lengths_honoured_iff hbuf hinit hnone
    ⟨by decide, by decide, by decide, by decide⟩ hroom
  have h24 : off = 24 := by
    rw [hcur] at hoff
    omega
  subst h24
  refine ⟨buf, buf', w, hbuf, hinit, hiff.mpr ⟨rfl, rfl, by decide, ?_⟩⟩
  rw [hsize]
  decide

/-- One and one: the symbol runs on into the file name. -/
theorem symbol_not_cut :
    ∃ buf buf' w, bunBufferInit (zeroedObject ⟨.w64, .little⟩ 100 (by decide)) = some buf
      ∧ bunWriterInit (fun _ => ⟨0⟩) 7 unopenedWriter buf .x86_64 none = (true, w, buf')
      ∧ AmpleRoom ⟨w, buf'.memory⟩ (twoStringFrame 1 1)
      ∧ (bunFrameRead ⟨.w64, .little⟩
          (bunFrameWrite ⟨.w64, .little⟩ ⟨w, buf'.memory⟩ (twoStringFrame 1 1)).2.mem.bytes
          (openedReader 84) BunFrame.zero).map (fun p => (p.1, p.2.2.symbolStr.1))
        = some (true, [97, 98, 99])
      ∧ ¬LengthsHonoured ⟨.w64, .little⟩ ⟨w, buf'.memory⟩ 24 (twoStringFrame 1 1) := by
  have hsetup : ∃ buf buf' w,
      bunBufferInit (zeroedObject ⟨.w64, .little⟩ 100 (by decide)) = some buf
      ∧ bunWriterInit (fun _ => ⟨0⟩) 7 unopenedWriter buf .x86_64 none = (true, w, buf')
      ∧ AmpleRoom ⟨w, buf'.memory⟩ (twoStringFrame 1 1)
      ∧ (bunFrameRead ⟨.w64, .little⟩
          (bunFrameWrite ⟨.w64, .little⟩ ⟨w, buf'.memory⟩ (twoStringFrame 1 1)).2.mem.bytes
          (openedReader 84) BunFrame.zero).map (fun p => (p.1, p.2.2.symbolStr.1))
        = some (true, [97, 98, 99]) := ⟨_, _, _, rfl, rfl, by decide, by decide +kernel⟩
  obtain ⟨buf, buf', w, hbuf, hinit, hroom, hread⟩ := hsetup
  obtain ⟨hat, _⟩ := bunWriterInit_at (bunBufferInit_size hbuf) hinit
  refine ⟨buf, buf', w, hbuf, hinit, hroom, hread, fun hh => ?_⟩
  have hlen := symbolLength_eq hat ⟨by decide, by decide, by decide, by decide⟩ hroom hh
  exact absurd hlen (by decide)

end LibBun
