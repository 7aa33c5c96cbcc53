import LibBun.Grammar

/-!
# A call emits bytes

Seven steps make up a call of `bun_frame_write` that passes the estimate, and any
of the four integers among them may be left out. What makes the call tractable all
the same is that none of the steps leaves a gap: each one either puts bytes at the
cursor and moves the cursor to their end, or does nothing but set the overflow
flag. So a call **emits** one string of bytes, and the question is only which.

What the elementary steps keep, of one run or of two side by side, a whole call keeps;
`StepInvariant` and `StepRelation` are these two rules.
-/

namespace LibBun

/-! ## Emitting bytes -/

namespace WriterState

/-- Bytes at the cursor, and the cursor behind them. -/
def emit (s : WriterState) (bs : List UInt8) : WriterState := (s.memcpy bs).advance bs.length

variable (s : WriterState) (bs : List UInt8)

@[simp] theorem emit_overflow : (s.emit bs).writer.data.overflow = s.writer.data.overflow := rfl
@[simp] theorem emit_cursor :
    (s.emit bs).writer.data.cursor = s.writer.data.cursor + bs.length := rfl

theorem length_emit : (s.emit bs).mem.bytes.length = s.mem.bytes.length := by
  rw [emit, length_advance, length_memcpy]

@[simp] theorem setOverflow_cursor :
    s.setOverflow.writer.data.cursor = s.writer.data.cursor := rfl

@[simp] theorem setOverflow_setOverflow : s.setOverflow.setOverflow = s.setOverflow := rfl

theorem setOverflow_emit : s.setOverflow.emit bs = (s.emit bs).setOverflow := rfl

theorem setOverflow_of_overflow (h : s.writer.data.overflow = true) : s.setOverflow = s := by
  obtain ⟨⟨d⟩, m⟩ := s
  obtain ⟨b, c, n, hd, o⟩ := d
  subst h
  rfl

@[simp] theorem emit_nil : s.emit [] = s := by
  obtain ⟨⟨d⟩, m⟩ := s
  obtain ⟨b, c, n, hd, o⟩ := d
  simp [emit, memcpy, advance, Memory.memcpy, Region.cellwise]

/-- Nothing is left between one emission and the next. -/
theorem emit_emit (xs ys : List UInt8) : (s.emit xs).emit ys = s.emit (xs ++ ys) := by
  have hcur : s.writer.data.cursor + (xs.length : Int) + (ys.length : Int)
      = s.writer.data.cursor + ((xs ++ ys).length : Nat) := by
    rw [List.length_append]
    push_cast
    ring
  simp only [emit, memcpy, advance, Memory.memcpy_memcpy, hcur]

end WriterState

/-- `t` is `s` with some bytes emitted, and perhaps the flag set. -/
def Emits (s t : WriterState) : Prop := ∃ bs, t = s.emit bs ∨ t = (s.emit bs).setOverflow

namespace Emits

variable {s t u : WriterState}

theorem refl (s : WriterState) : Emits s s := ⟨[], Or.inl (s.emit_nil).symm⟩

theorem emit (s : WriterState) (bs : List UInt8) : Emits s (s.emit bs) := ⟨bs, Or.inl rfl⟩

theorem trans (hst : Emits s t) (htu : Emits t u) : Emits s u := by
  obtain ⟨xs, hst⟩ := hst
  obtain ⟨ys, htu⟩ := htu
  refine ⟨xs ++ ys, ?_⟩
  rw [← s.emit_emit]
  rcases hst with rfl | rfl <;> rcases htu with rfl | rfl
  · exact Or.inl rfl
  · exact Or.inr rfl
  · exact Or.inr rfl
  · exact Or.inr rfl

end Emits

/-! ## The steps as emissions -/

variable {h : Host}

/-- A guarded write emits the little-endian bytes of its value, or sets the flag. -/
theorem writeLe_eq (h : Host) (w : Nat) (s : WriterState) (v : Nat) :
    writeLe h w s v =
      if isSafeAccess h s.writer.data w = false then s.setOverflow
      else s.emit (LittleEndian.encode w v) := by
  have hlen := LittleEndian.length_encode w v
  rw [writeLe, h.bytesOf_htole, WriterState.emit, hlen]

theorem writeLe_emits (h : Host) (w : Nat) (s : WriterState) (v : Nat) :
    Emits s (writeLe h w s v) := by
  rw [writeLe_eq]
  split
  · exact ⟨[], Or.inr (by rw [s.emit_nil])⟩
  · exact Emits.emit s _

namespace BunFrame

variable {f : BunFrame}

/-- The bytes of the three leading integers. -/
def intBytes (f : BunFrame) : List UInt8 :=
  LittleEndian.encode 8 f.addr.toNat ++ (LittleEndian.encode 8 f.lineNo
    ++ LittleEndian.encode 8 f.offset)

/-- The bytes of the two strings. -/
def stringBytes (f : BunFrame) : List UInt8 :=
  (f.symbolStr.1 ++ [0]) ++ (f.filenameStr.1 ++ [0])

@[simp] theorem length_intBytes (f : BunFrame) : f.intBytes.length = 24 := by simp [intBytes]

@[simp] theorem length_stringBytes (f : BunFrame) :
    f.stringBytes.length = f.symbolStr.1.length + f.filenameStr.1.length + 2 := by
  simp only [stringBytes, List.length_append, List.length_cons, List.length_nil]
  omega

/-- The encoding of a frame, in the pieces the writer makes it of. -/
theorem encode_record (hf : f.WellFormed h) :
    frameCodec.encode (f.record hf) =
      f.intBytes ++ (f.stringBytes ++ (LittleEndian.encode 2 f.registerCount
        ++ f.registerBlock)) := by
  have hmod : ∀ v : Nat, LittleEndian.encode 8 (UInt64.ofNat v).toNat = LittleEndian.encode 8 v :=
    fun v => by rw [UInt64.toNat_ofNat']; exact LittleEndian.encode_mod 8 v
  rw [Record.encode_eq, intBytes, stringBytes]
  simp only [record, hmod, List.append_assoc]

/-- With well-formed lengths, the length used for a string is its own. -/
theorem effectiveLength_eq {length : Nat} {str : Option CharPtr}
    (hlt : ((str.map CharPtr.str).getD CString.empty).1.length < h.ptrdiffMax)
    (hlen : length = 0 ∨ length = ((str.map CharPtr.str).getD CString.empty).1.length) :
    effectiveLength h length str = ((str.map CharPtr.str).getD CString.empty).1.length := by
  cases str with
  | none => exact hlen.elim id id
  | some p =>
      simp only [Option.map_some, Option.getD_some] at hlt hlen ⊢
      rw [effectiveLength]
      split
      · have hmod := h.sizes
        have := Host.toSizeT_of_lt (h := h) (z := (p.str.1.length : Int)) (by omega) (by omega)
        omega
      · rename_i hne
        exact hlen.resolve_left hne

theorem effectiveLength_symbol (hf : f.WellFormed h) :
    effectiveLength h f.symbolLength f.symbol = f.symbolStr.1.length :=
  effectiveLength_eq hf.symbol_lt hf.symbolLength

theorem effectiveLength_filename (hf : f.WellFormed h) :
    effectiveLength h f.filenameLength f.filename = f.filenameStr.1.length :=
  effectiveLength_eq hf.filename_lt hf.filenameLength

end BunFrame

/-- A copied string whose length the cursor moves by is emitted with its NUL. -/
theorem strcpy_advance (s : WriterState) {str : CString} (hlt : str.1.length < h.ptrdiffMax) :
    (s.strcpy str).advance (h.toSizeT ((str.1.length : Int) + 1)) = s.emit (str.1 ++ [0]) := by
  have hmod := h.sizes
  have hlen := Host.toSizeT_of_lt (h := h) (z := (str.1.length : Int) + 1) (by omega) (by omega)
  have hn : h.toSizeT ((str.1.length : Int) + 1) = (str.1 ++ [0]).length := by
    rw [List.length_append, List.length_singleton]
    omega
  rw [hn]
  rfl

/-- The registers are emitted, if there are any. -/
theorem memcpy_registers (s : WriterState) {f : BunFrame} (hf : f.WellFormed h) :
    (if f.registerCount > 0 then
        (s.memcpy f.registerBlock).advance (h.toSizeT ((f.registerCount : Int) * registerSize))
      else s) = s.emit f.registerBlock := by
  have hlen := f.length_registerBlock
  split
  · have hmod := h.sizes
    have hcount := hf.registerCount_lt
    have hcast : (f.registerCount : Int) * registerSize
        = ((registerSize * f.registerCount : Nat) : Int) := by push_cast; ring
    have hsmall : registerSize * f.registerCount < 655360 := by rw [registerSize]; omega
    have hn := Host.toSizeT_of_lt (h := h) (z := ((registerSize * f.registerCount : Nat) : Int))
      (by omega) (by omega)
    have hadv : h.toSizeT ((f.registerCount : Int) * registerSize) = f.registerBlock.length := by
      rw [hcast, hlen]
      omega
    rw [hadv]
    rfl
  · rename_i hzero
    have hz : f.registerCount = 0 := by omega
    rw [hz] at hlen
    rw [List.eq_nil_of_length_eq_zero hlen, s.emit_nil]

/-! ## The whole call -/

/-- The steps of an accepted call after the first three. -/
def writeTail (h : Host) (s : WriterState) (frame : BunFrame) : WriterState :=
  let s := (s.strcpy frame.symbolStr).advance
    (h.toSizeT (effectiveLength h frame.symbolLength frame.symbol + 1))
  let s := (s.strcpy frame.filenameStr).advance
    (h.toSizeT (effectiveLength h frame.filenameLength frame.filename + 1))
  let s := writeLe16 h s frame.registerCount
  if frame.registerCount > 0 then
    (s.memcpy frame.registerBlock).advance (h.toSizeT (frame.registerCount * registerSize))
  else s

/-- The seven steps. -/
def writeBody (h : Host) (s : WriterState) (frame : BunFrame) : WriterState :=
  writeTail h (writeLe64 h (writeLe64 h (writeLe64 h s frame.addr.toNat) frame.lineNo) frame.offset)
    frame

/-- An accepted call adds the estimate to the size in the header and returns it. -/
def writeHeader (h : Host) (s : WriterState) (frame : BunFrame) : WriterState :=
  s.setField HeaderField.size
    (HeaderField.size.get s.mem.bytes s.writer.data.buffer + wouldWrite h frame)

/-- A call is the estimate, and then the steps and the header, or nothing. -/
theorem bunFrameWrite_eq (h : Host) (s : WriterState) (frame : BunFrame) :
    bunFrameWrite h s frame =
      if wouldWrite h frame > writerAvailable h s.writer then (0, s)
      else (wouldWrite h frame, writeHeader h (writeBody h s frame) frame) := rfl

/-- The seven steps, on a well-formed frame. -/
theorem writeBody_eq (s : WriterState) {f : BunFrame} (hf : f.WellFormed h) :
    writeBody h s f =
      (writeLe16 h ((writeLe64 h (writeLe64 h (writeLe64 h s f.addr.toNat) f.lineNo)
        f.offset).emit f.stringBytes) f.registerCount).emit f.registerBlock := by
  unfold writeBody writeTail
  dsimp only
  rw [f.effectiveLength_symbol hf, f.effectiveLength_filename hf, strcpy_advance _ hf.symbol_lt,
    strcpy_advance _ hf.filename_lt, memcpy_registers _ hf, WriterState.emit_emit]
  rfl

/-! ## What the steps keep -/

/--
A relation between the states of two runs that is kept by copies, by moves of the cursor
and by the flag, as long as the writers of the two are the same.
-/
structure StepRelation (R : WriterState → WriterState → Prop) : Prop where
  writer : ∀ {s t}, R s t → s.writer = t.writer
  memcpy : ∀ {s t} (bs : List UInt8), R s t → R (s.memcpy bs) (t.memcpy bs)
  advance : ∀ {s t} (n : Nat), R s t → R (s.advance n) (t.advance n)
  setOverflow : ∀ {s t}, R s t → R s.setOverflow t.setOverflow

namespace StepRelation

variable {R : WriterState → WriterState → Prop} {s t : WriterState}

theorem writeLe (hR : StepRelation R) (hst : R s t) (w v : Nat) :
    R (writeLe h w s v) (writeLe h w t v) := by
  unfold LibBun.writeLe
  dsimp only
  rw [hR.writer hst]
  split
  · exact hR.setOverflow hst
  · exact hR.advance w (hR.memcpy _ hst)

theorem writeTail (hR : StepRelation R) (hst : R s t) (f : BunFrame) :
    R (writeTail h s f) (writeTail h t f) := by
  have hsymbol := hR.advance (h.toSizeT (effectiveLength h f.symbolLength f.symbol + 1))
    (hR.memcpy (f.symbolStr.1 ++ [0]) hst)
  have hfilename := hR.advance (h.toSizeT (effectiveLength h f.filenameLength f.filename + 1))
    (hR.memcpy (f.filenameStr.1 ++ [0]) hsymbol)
  have hcount := hR.writeLe (h := h) hfilename 2 (f.registerCount % 2 ^ 16)
  unfold LibBun.writeTail
  dsimp only
  split
  · exact hR.advance _ (hR.memcpy f.registerBlock hcount)
  · exact hcount

/-- **The seven steps keep it.** -/
theorem writeBody (hR : StepRelation R) (hst : R s t) (f : BunFrame) :
    R (writeBody h s f) (writeBody h t f) :=
  hR.writeTail (hR.writeLe (hR.writeLe (hR.writeLe hst 8 (f.addr.toNat % 2 ^ 64)) 8
    (f.lineNo % 2 ^ 64)) 8 (f.offset % 2 ^ 64)) f

end StepRelation

/-- A property of states that is kept in the same way. -/
structure StepInvariant (P : WriterState → Prop) : Prop where
  memcpy : ∀ {s} (bs : List UInt8), P s → P (s.memcpy bs)
  advance : ∀ {s} (n : Nat), P s → P (s.advance n)
  setOverflow : ∀ {s}, P s → P s.setOverflow

namespace StepInvariant

variable {P : WriterState → Prop} {s : WriterState}

/-- A run is related to itself. -/
theorem relation (hP : StepInvariant P) : StepRelation fun s t => s = t ∧ P s where
  writer := fun hst => congrArg WriterState.writer hst.1
  memcpy := fun bs hst => ⟨congrArg (WriterState.memcpy · bs) hst.1, hP.memcpy bs hst.2⟩
  advance := fun n hst => ⟨congrArg (WriterState.advance · n) hst.1, hP.advance n hst.2⟩
  setOverflow := fun hst => ⟨congrArg WriterState.setOverflow hst.1, hP.setOverflow hst.2⟩

theorem writeLe (hP : StepInvariant P) (hs : P s) (w v : Nat) : P (writeLe h w s v) :=
  (hP.relation.writeLe ⟨rfl, hs⟩ w v).2

theorem writeBody (hP : StepInvariant P) (hs : P s) (f : BunFrame) : P (writeBody h s f) :=
  (hP.relation.writeBody ⟨rfl, hs⟩ f).2

end StepInvariant

end LibBun
