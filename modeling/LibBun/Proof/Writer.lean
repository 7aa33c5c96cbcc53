import LibBun.Proof.Emit
import LibBun.Proof.Opening

/-!
# One call of the writer

Where the cursor is decides which bytes a call emits. `WriterAt` is what every
reachable writer satisfies, cursors beyond the end included, and `writeBody_cases`
says what goes out when the cursor is inside the payload: the whole frame, even
where that passes the end; or all but the count, because the strings left less
than two bytes; or, for want of room or because the flag was set before, the
strings and registers with only some of the integers in front of them or none.

The estimate that is meant to rule out all of these but the first is
`wouldWrite_eq`: the length of the frame less a shortfall, and then cut to a
`size_t`. The shortfall is the whole story of what follows.
-/

namespace LibBun

variable {h : Host}

/-! ## The header -/

theorem Memory.setField_bytes (M : Memory) (f : HeaderField) (v : Nat) :
    (M.setField 0 f v).bytes = Region.patch M.bytes f.start (LittleEndian.encode f.width v) := by
  rw [setField, store, Int.zero_add]

namespace HeaderField

variable {f g : HeaderField} {m m' : List UInt8}

/-- A field of the header of a payload that has one. -/
theorem get_of_head (hf : f.start + f.width ≤ headerSize) (hm : headerSize ≤ m.length) :
    f.get m 0 = LittleEndian.decode ((m.drop f.start).take f.width) := by
  rw [get, Int.zero_add, Region.peek_of_inside (by omega)]

theorem get_of_sameOn {lo : Nat} {hi : Int} (h : Region.SameOn lo hi m m')
    (hlo : lo ≤ f.start) (hhi : ((f.start + f.width : Nat) : Int) ≤ hi)
    (hf : f.start + f.width ≤ headerSize) (hm : headerSize ≤ m.length) :
    f.get m' 0 = f.get m 0 := by
  have hm' : headerSize ≤ m'.length := h.1 ▸ hm
  rw [get_of_head hf hm, get_of_head hf hm', h.slice hlo (by omega)]

/-- A field holds what was stored in it, cut to its width. -/
theorem get_setField (M : Memory) (hf : f.start + f.width ≤ headerSize)
    (hM : headerSize ≤ M.bytes.length) (v : Nat) :
    f.get (M.setField 0 f v).bytes 0 = v % 256 ^ f.width := by
  have hlen : (LittleEndian.encode f.width v).length = f.width := LittleEndian.length_encode ..
  rw [get_of_head hf (by rw [M.setField_bytes, Region.length_patch]; exact hM), M.setField_bytes,
    Region.drop_patch_of_fits (by omega), List.take_left' hlen, LittleEndian.decode_encode]

/-- A field keeps its value when one that does not overlap it is set. -/
theorem get_setField_of_disjoint (M : Memory) (hf : f.start + f.width ≤ headerSize)
    (hM : headerSize ≤ M.bytes.length) (v : Nat)
    (hd : f.start + f.width ≤ g.start ∨ g.start + g.width ≤ f.start) :
    f.get (M.setField 0 g v).bytes 0 = f.get M.bytes 0 := by
  have hlen : (LittleEndian.encode g.width v).length = g.width := LittleEndian.length_encode ..
  rw [M.setField_bytes]
  rcases hd with hd | hd
  · exact get_of_sameOn (Region.sameOn_patch_above 0 M.bytes _ (by omega)) (Nat.zero_le _)
      (Int.le_refl _) hf hM
  · have hsame := Region.sameOn_patch_below ((f.start + f.width : Nat) : Int) M.bytes
      (LittleEndian.encode g.width v) (by rw [hlen]; omega : (g.start : Int) + _ ≤ f.start)
    exact get_of_sameOn hsame (Nat.le_refl _) (Int.le_refl _) hf hM

end HeaderField

/-- Setting a header field leaves everything behind the header alone. -/
theorem Memory.sameOn_setField (M : Memory) {f : HeaderField} (v : Nat) (hi : Int)
    (hf : f.start + f.width ≤ headerSize) :
    Region.SameOn headerSize hi M.bytes (M.setField 0 f v).bytes := by
  have hlen : (LittleEndian.encode f.width v).length = f.width := LittleEndian.length_encode ..
  rw [M.setField_bytes]
  exact Region.sameOn_patch_below hi M.bytes _ (by rw [hlen]; omega)

/-! ## Where a writer can be -/

/--
The writer is open on the whole payload and its cursor is at `off`, which may be
beyond the end. Once the flag is set there is no room for another integer.
-/
structure WriterAt (h : Host) (s : WriterState) (off : Nat) : Prop where
  buffer : s.writer.data.buffer = 0
  size : s.writer.data.size = s.mem.bytes.length
  mem_le : s.mem.bytes.length ≤ h.ptrdiffMax
  head : headerSize ≤ s.mem.bytes.length
  cursor : s.writer.data.cursor = off
  start : headerSize ≤ off
  /-- The flag is set by a write of at most eight bytes that did not fit. -/
  tight : s.writer.data.overflow = true → s.mem.bytes.length < off + 8

namespace WriterAt

variable {s : WriterState} {off : Nat}

theorem memcpy (hs : WriterAt h s off) (bs : List UInt8) : WriterAt h (s.memcpy bs) off := by
  have hlen := s.length_memcpy bs
  exact ⟨hs.buffer, hs.size.trans hlen.symm, hlen ▸ hs.mem_le, hlen ▸ hs.head, hs.cursor,
    hs.start, fun hov => hlen ▸ hs.tight hov⟩

theorem advance (hs : WriterAt h s off) (n : Nat) : WriterAt h (s.advance n) (off + n) where
  buffer := hs.buffer
  size := hs.size
  mem_le := hs.mem_le
  head := hs.head
  cursor := by
    have := hs.cursor
    show s.writer.data.cursor + n = ((off + n : Nat) : Int)
    omega
  start := hs.start.trans (Nat.le_add_right off n)
  tight := fun hov => (hs.tight hov).trans_le (by omega)

theorem emit (hs : WriterAt h s off) (bs : List UInt8) :
    WriterAt h (s.emit bs) (off + bs.length) := (hs.memcpy bs).advance bs.length

theorem memcpy_bytes (hs : WriterAt h s off) (bs : List UInt8) :
    (s.memcpy bs).mem.bytes = Region.patch s.mem.bytes off bs := by
  rw [WriterState.memcpy, Memory.memcpy_bytes, hs.cursor]

/-- A copy to the cursor leaves what is in front of it alone. -/
theorem sameOn_memcpy (hs : WriterAt h s off) (bs : List UInt8) :
    Region.SameOn 0 off s.mem.bytes (s.memcpy bs).mem.bytes := by
  rw [hs.memcpy_bytes]
  exact Region.sameOn_patch_above 0 s.mem.bytes bs (Int.le_refl _)

theorem setOverflow (hs : WriterAt h s off) (hlt : s.mem.bytes.length < off + 8) :
    WriterAt h s.setOverflow off :=
  ⟨hs.buffer, hs.size, hs.mem_le, hs.head, hs.cursor, hs.start, fun _ => hlt⟩

theorem setField (hs : WriterAt h s off) (f : HeaderField) (v : Nat) :
    WriterAt h (s.setField f v) off := by
  have hlen := s.length_setField f v
  exact ⟨hs.buffer, hs.size.trans hlen.symm, hlen ▸ hs.mem_le, hlen ▸ hs.head, hs.cursor,
    hs.start, fun hov => hlen ▸ hs.tight hov⟩

/-- A field of the header is set at the start of the payload. -/
theorem mem_setField (hs : WriterAt h s off) (f : HeaderField) (v : Nat) :
    (s.setField f v).mem = s.mem.setField 0 f v := by
  rw [WriterState.setField, hs.buffer]

/-- With room for an integer, the flag is not set. -/
theorem clear (hs : WriterAt h s off) (hroom : off + 8 ≤ s.mem.bytes.length) :
    s.writer.data.overflow = false := by
  rw [← Bool.not_eq_true]
  exact fun hset => absurd (hs.tight hset) (Nat.not_lt.mpr hroom)

/-- The room `is_safe_access` and the estimate compare with. -/
theorem toSizeT_room (hs : WriterAt h s off) (hle : off ≤ s.mem.bytes.length) :
    h.toSizeT ((s.mem.bytes.length : Int) - off) = s.mem.bytes.length - off := by
  have hm := hs.mem_le
  have hmod := h.sizes
  have := Host.toSizeT_of_lt (h := h) (z := (s.mem.bytes.length : Int) - off) (by omega) (by omega)
  omega

theorem isSafeAccess (hs : WriterAt h s off) (n : Nat) :
    isSafeAccess h s.writer.data n =
      (!s.writer.data.overflow && decide (n ≤ h.toSizeT ((s.mem.bytes.length : Int) - off))) := by
  unfold LibBun.isSafeAccess
  dsimp only
  rw [hs.buffer, hs.size, hs.cursor, Int.zero_add]
  cases s.writer.data.overflow <;> simp

theorem writerAvailable (hs : WriterAt h s off) :
    writerAvailable h s.writer = h.toSizeT ((s.mem.bytes.length : Int) - off) := by
  rw [LibBun.writerAvailable, hs.buffer, hs.size, hs.cursor, Int.sub_zero]

/-- A guarded write of an integer moves the cursor, or sets the flag for want of room. -/
theorem writeLe (hs : WriterAt h s off) {w : Nat} (hw : w ≤ 8) (v : Nat) :
    ∃ off', off ≤ off' ∧ WriterAt h (writeLe h w s v) off'
      ∧ Region.SameOn 0 off s.mem.bytes (writeLe h w s v).mem.bytes := by
  rw [writeLe_eq]
  split
  · rename_i hsafe
    rw [hs.isSafeAccess] at hsafe
    refine ⟨off, Nat.le_refl _, hs.setOverflow ?_, Region.SameOn.refl ..⟩
    cases hov : s.writer.data.overflow with
    | true => exact hs.tight hov
    | false =>
        rw [hov, Bool.not_false, Bool.true_and, decide_eq_false_iff_not] at hsafe
        by_cases hle : off ≤ s.mem.bytes.length
        · rw [hs.toSizeT_room hle] at hsafe
          omega
        · omega
  · exact ⟨_, Nat.le_add_right _ _, hs.emit _, hs.sameOn_memcpy _⟩

/--
The steps of a call, on any frame at all, leave the writer somewhere further on and
store nothing in front of where it was.
-/
theorem writeBody (hs : WriterAt h s off) (f : BunFrame) :
    ∃ off', off ≤ off' ∧ WriterAt h (writeBody h s f) off'
      ∧ Region.SameOn 0 off s.mem.bytes (writeBody h s f).mem.bytes := by
  unfold LibBun.writeBody writeTail
  obtain ⟨o₁, h₁, hs₁, hm₁⟩ := hs.writeLe (Nat.le_refl 8) (f.addr.toNat % 2 ^ 64)
  obtain ⟨o₂, h₂, hs₂, hm₂⟩ := hs₁.writeLe (Nat.le_refl 8) (f.lineNo % 2 ^ 64)
  obtain ⟨o₃, h₃, hs₃, hm₃⟩ := hs₂.writeLe (Nat.le_refl 8) (f.offset % 2 ^ 64)
  have hs₄ := (hs₃.memcpy (f.symbolStr.1 ++ [0])).advance
    (h.toSizeT (effectiveLength h f.symbolLength f.symbol + 1))
  have hm₄ := hs₃.sameOn_memcpy (f.symbolStr.1 ++ [0])
  have hs₅ := (hs₄.memcpy (f.filenameStr.1 ++ [0])).advance
    (h.toSizeT (effectiveLength h f.filenameLength f.filename + 1))
  have hm₅ := hs₄.sameOn_memcpy (f.filenameStr.1 ++ [0])
  obtain ⟨o₆, h₆, hs₆, hm₆⟩ := hs₅.writeLe (show 2 ≤ 8 by omega) (f.registerCount % 2 ^ 16)
  -- each store is at or behind the cursor it is made from
  have hfront : ∀ {o : Nat} {m m' : List UInt8}, off ≤ o → Region.SameOn 0 o m m' →
      Region.SameOn 0 off m m' := fun ho hm => hm.mono (Nat.le_refl 0) (Int.ofNat_le.mpr ho)
  have hsame := ((((hm₁.trans (hfront h₁ hm₂)).trans (hfront (by omega) hm₃)).trans
    (hfront (by omega) hm₄)).trans (hfront (by omega) hm₅)).trans (hfront (by omega) hm₆)
  dsimp only
  split
  · exact ⟨_, by omega, (hs₆.memcpy f.registerBlock).advance _,
      hsame.trans (hfront (by omega) (hs₆.sameOn_memcpy f.registerBlock))⟩
  · exact ⟨o₆, by omega, hs₆, hsame⟩

/-- **Every call keeps the invariant**, whatever frame it is given. -/
theorem apply (hs : WriterAt h s off) (op : WriterOp) :
    ∃ off', off ≤ off' ∧ WriterAt h (op.apply h s) off' := by
  cases op with
  | frameWrite f =>
      rw [WriterOp.apply, bunFrameWrite_eq]
      split
      · exact ⟨off, Nat.le_refl _, hs⟩
      · obtain ⟨off', hle, hs', _⟩ := hs.writeBody f
        exact ⟨off', hle, hs'.setField _ _⟩
  | tidSet tid => exact ⟨off, Nat.le_refl _, hs.setField _ _⟩
  | backendSet backend => exact ⟨off, Nat.le_refl _, hs.setField _ _⟩

theorem run (hs : WriterAt h s off) (ops : List WriterOp) :
    ∃ off', off ≤ off' ∧ WriterAt h (ops.foldl (WriterOp.apply h) s) off' := by
  induction ops generalizing s off with
  | nil => exact ⟨off, Nat.le_refl _, hs⟩
  | cons op ops ih =>
      obtain ⟨o₁, h₁, hs₁⟩ := hs.apply op
      obtain ⟨o₂, h₂, hs₂⟩ := ih hs₁
      exact ⟨o₂, h₁.trans h₂, hs₂⟩

end WriterAt

/-! ## What a call emits -/

section

variable {s : WriterState} {off : Nat}

theorem writeLe_of_fits (hs : WriterAt h s off) (hov : s.writer.data.overflow = false) {w : Nat}
    (hw : off + w ≤ s.mem.bytes.length) (v : Nat) :
    writeLe h w s v = s.emit (LittleEndian.encode w v) := by
  rw [writeLe_eq, hs.isSafeAccess, hs.toSizeT_room (by omega), hov, decide_eq_true (by omega),
    if_neg (by simp)]

theorem writeLe_of_short (hs : WriterAt h s off) {w : Nat}
    (hw : s.writer.data.overflow = true ∨
      (off ≤ s.mem.bytes.length ∧ s.mem.bytes.length < off + w)) (v : Nat) :
    writeLe h w s v = s.setOverflow := by
  rw [writeLe_eq, hs.isSafeAccess]
  rcases hw with hov | ⟨hle, hlt⟩
  · rw [hov, if_pos (by simp)]
  · rw [hs.toSizeT_room hle, decide_eq_false (by omega), if_pos (by simp)]

theorem writeLe64_of_fits (hs : WriterAt h s off) (hov : s.writer.data.overflow = false)
    (hw : off + 8 ≤ s.mem.bytes.length) (v : Nat) :
    writeLe64 h s v = s.emit (LittleEndian.encode 8 v) := by
  rw [writeLe64, writeLe_of_fits hs hov hw]
  exact congrArg s.emit (LittleEndian.encode_mod 8 v)

/-- The three integers go out together, up to the first that does not fit. -/
theorem writeInts_of_fits (hs : WriterAt h s off) (hov : s.writer.data.overflow = false)
    (hw : off + 24 ≤ s.mem.bytes.length) (a b c : Nat) :
    writeLe64 h (writeLe64 h (writeLe64 h s a) b) c =
      s.emit (LittleEndian.encode 8 a ++ (LittleEndian.encode 8 b ++ LittleEndian.encode 8 c)) := by
  have hlen : ∀ v, (LittleEndian.encode 8 v).length = 8 := LittleEndian.length_encode 8
  have hs₁ := hs.emit (LittleEndian.encode 8 a)
  have hs₂ := hs₁.emit (LittleEndian.encode 8 b)
  rw [hlen] at hs₁
  rw [hlen, hlen] at hs₂
  rw [writeLe64_of_fits hs hov (by omega),
    writeLe64_of_fits hs₁ hov (by rw [WriterState.length_emit]; omega),
    writeLe64_of_fits hs₂ hov (by rw [WriterState.length_emit, WriterState.length_emit]; omega),
    WriterState.emit_emit, WriterState.emit_emit]

theorem writeInts_of_overflow (hov : s.writer.data.overflow = true) (hs : WriterAt h s off)
    (a b c : Nat) : writeLe64 h (writeLe64 h (writeLe64 h s a) b) c = s := by
  have hstep : ∀ v, writeLe64 h s v = s := fun v => by
    rw [writeLe64, writeLe_of_short hs (Or.inl hov), s.setOverflow_of_overflow hov]
  rw [hstep, hstep, hstep]

theorem writeInts_of_short (hs : WriterAt h s off) (hov : s.writer.data.overflow = false)
    (hle : off ≤ s.mem.bytes.length) (hlt : s.mem.bytes.length < off + 24) (a b c : Nat) :
    ∃ xs, xs.length = 8 * ((s.mem.bytes.length - off) / 8) ∧
      writeLe64 h (writeLe64 h (writeLe64 h s a) b) c = (s.emit xs).setOverflow := by
  have hlen : ∀ v, (LittleEndian.encode 8 v).length = 8 := LittleEndian.length_encode 8
  -- once the flag is set, nothing more goes out
  have hstuck : ∀ {t : WriterState} {o : Nat}, WriterAt h t o → o ≤ t.mem.bytes.length →
      t.mem.bytes.length < o + 8 → ∀ v, writeLe64 h t v = t.setOverflow :=
    fun ht h1 h2 v => writeLe_of_short ht (Or.inr ⟨h1, h2⟩) _
  have hafter : ∀ {t : WriterState} {o : Nat}, WriterAt h t o → t.mem.bytes.length < o + 8 →
      ∀ v, writeLe64 h t.setOverflow v = t.setOverflow :=
    fun ht h2 v => writeLe_of_short (ht.setOverflow h2) (Or.inl rfl) _
  by_cases h8 : off + 8 ≤ s.mem.bytes.length
  case neg =>
    refine ⟨[], ?_, ?_⟩
    · rw [Nat.div_eq_of_lt (by omega)]; rfl
    · rw [hstuck hs hle (by omega), hafter hs (by omega), hafter hs (by omega), s.emit_nil]
  have hs₁ := hs.emit (LittleEndian.encode 8 a)
  rw [hlen] at hs₁
  have hb₁ := s.length_emit (LittleEndian.encode 8 a)
  by_cases h16 : off + 16 ≤ s.mem.bytes.length
  case neg =>
    refine ⟨LittleEndian.encode 8 a, ?_, ?_⟩
    · rw [hlen]; omega
    · rw [writeLe64_of_fits hs hov h8, hstuck hs₁ (by omega) (by omega), hafter hs₁ (by omega)]
  have hs₂ := hs₁.emit (LittleEndian.encode 8 b)
  rw [hlen] at hs₂
  have hb₂ := (s.emit (LittleEndian.encode 8 a)).length_emit (LittleEndian.encode 8 b)
  refine ⟨LittleEndian.encode 8 a ++ LittleEndian.encode 8 b, ?_, ?_⟩
  · rw [List.length_append, hlen, hlen]; omega
  · rw [writeLe64_of_fits hs hov h8, writeLe64_of_fits hs₁ hov (by omega),
      hstuck hs₂ (by omega) (by omega), WriterState.emit_emit]

/--
**What an accepted call emits**, from a cursor inside the payload. The whole
frame, also where it passes the end; or all but the count; or all but the integers
that did not fit and the count; or, with the flag set before, none of the integers.
-/
theorem writeBody_cases (hs : WriterAt h s off) (hle : off ≤ s.mem.bytes.length) {f : BunFrame}
    (hf : f.WellFormed h) :
    (s.writer.data.overflow = false ∧ off + 24 ≤ s.mem.bytes.length
      ∧ (off + 24 + f.stringBytes.length + 2 ≤ s.mem.bytes.length
        ∨ s.mem.bytes.length < off + 24 + f.stringBytes.length)
      ∧ writeBody h s f = s.emit (frameCodec.encode (f.record hf))) ∨
    (s.writer.data.overflow = false ∧ off + 24 + f.stringBytes.length ≤ s.mem.bytes.length
      ∧ s.mem.bytes.length < off + 24 + f.stringBytes.length + 2
      ∧ writeBody h s f
          = (s.emit (f.intBytes ++ (f.stringBytes ++ f.registerBlock))).setOverflow) ∨
    (s.writer.data.overflow = false ∧ s.mem.bytes.length < off + 24
      ∧ ∃ xs, xs.length = 8 * ((s.mem.bytes.length - off) / 8)
        ∧ writeBody h s f
            = (s.emit (xs ++ (f.stringBytes ++ f.registerBlock))).setOverflow) ∨
    (s.writer.data.overflow = true
      ∧ writeBody h s f = s.emit (f.stringBytes ++ f.registerBlock)) := by
  rw [writeBody_eq s hf]
  by_cases hov : s.writer.data.overflow = true
  · -- the flag was set by an earlier call
    refine Or.inr (Or.inr (Or.inr ⟨hov, ?_⟩))
    have hcount : writeLe16 h (s.emit f.stringBytes) f.registerCount = s.emit f.stringBytes := by
      rw [writeLe16, writeLe_of_short (hs.emit _) (Or.inl hov)]
      exact WriterState.setOverflow_of_overflow _ hov
    rw [writeInts_of_overflow hov hs, hcount, WriterState.emit_emit]
  have hov : s.writer.data.overflow = false := by simpa using hov
  by_cases h24 : off + 24 ≤ s.mem.bytes.length
  case neg =>
    refine Or.inr (Or.inr (Or.inl ⟨hov, by omega, ?_⟩))
    obtain ⟨xs, hxs, heq⟩ := writeInts_of_short hs hov hle (by omega) f.addr.toNat f.lineNo f.offset
    refine ⟨xs, hxs, ?_⟩
    have hsx := (hs.emit xs).setOverflow (by rw [s.length_emit, hxs]; omega)
    rw [heq, writeLe16, writeLe_of_short (hsx.emit f.stringBytes) (Or.inl rfl)]
    simp only [WriterState.setOverflow_emit, WriterState.setOverflow_setOverflow,
      WriterState.emit_emit, List.append_assoc]
  rw [writeInts_of_fits hs hov h24, WriterState.emit_emit, ← BunFrame.intBytes]
  have hs₁ := hs.emit (f.intBytes ++ f.stringBytes)
  have hb₁ := s.length_emit (f.intBytes ++ f.stringBytes)
  rw [List.length_append, f.length_intBytes, ← Nat.add_assoc] at hs₁
  by_cases hcount : off + 24 + f.stringBytes.length ≤ s.mem.bytes.length
      ∧ s.mem.bytes.length < off + 24 + f.stringBytes.length + 2
  · -- the strings are in, the count is not
    refine Or.inr (Or.inl ⟨hov, hcount.1, hcount.2, ?_⟩)
    rw [writeLe16, writeLe_of_short hs₁ (Or.inr ⟨by omega, by omega⟩),
      WriterState.setOverflow_emit, WriterState.emit_emit, List.append_assoc]
  · refine Or.inl ⟨hov, h24, by omega, ?_⟩
    have hfits : 2 ≤ h.toSizeT (((s.emit (f.intBytes ++ f.stringBytes)).mem.bytes.length : Int)
        - (off + 24 + f.stringBytes.length : Nat)) := by
      by_cases hin : off + 24 + f.stringBytes.length + 2 ≤ s.mem.bytes.length
      · rw [hs₁.toSizeT_room (by omega)]
        omega
      · -- beyond the end the room wraps, and does not wrap to nothing
        have hslt := hf.symbol_lt
        have hflt := hf.filename_lt
        have hstr := f.length_stringBytes
        have hsizes := h.sizes
        have := Host.toSizeT_of_neg (h := h)
          (z := (s.mem.bytes.length : Int) - (off + 24 + f.stringBytes.length : Nat))
          (by omega) (by omega)
        rw [hb₁]
        omega
    have hwrite : writeLe16 h (s.emit (f.intBytes ++ f.stringBytes)) f.registerCount
        = (s.emit (f.intBytes ++ f.stringBytes)).emit (LittleEndian.encode 2 f.registerCount) := by
      rw [writeLe16, writeLe_eq, hs₁.isSafeAccess, decide_eq_true hfits, WriterState.emit_overflow,
        hov, if_neg (by simp)]
      exact congrArg _ (LittleEndian.encode_mod 2 f.registerCount)
    rw [hwrite, WriterState.emit_emit, WriterState.emit_emit, f.encode_record hf]
    simp only [List.append_assoc]

end

/-- A call of `bun_frame_write`, for what it does to the writer. -/
def frameStep (h : Host) (s : WriterState) (f : BunFrame) : WriterState := (bunFrameWrite h s f).2

/-- An accepted call that emitted `bs` at `off`: what it leaves behind. -/
structure Emitted (h : Host) (s t : WriterState) (f : BunFrame) (off : Nat) (bs : List UInt8) :
    Prop where
  at_ : WriterAt h t (off + bs.length)
  /-- The bytes were stored one by one, and the size in the header last. -/
  log : t.mem.log = s.mem.log ++ Region.cellwise off bs
    ++ [⟨HeaderField.size.start, LittleEndian.encode HeaderField.size.width
        (HeaderField.size.get s.mem.bytes 0 + wouldWrite h f)⟩]
  bytes : t.mem.bytes = Region.patch (Region.patch s.mem.bytes off bs) HeaderField.size.start
    (LittleEndian.encode HeaderField.size.width
      (HeaderField.size.get s.mem.bytes 0 + wouldWrite h f))
  /-- The size has gone up by the estimate, as a `uint32_t`. -/
  size : HeaderField.size.get t.mem.bytes 0
    = (HeaderField.size.get s.mem.bytes 0 + wouldWrite h f) % 2 ^ 32

section

variable {s : WriterState} {off : Nat}

theorem emitted_of_body (hs : WriterAt h s off) {f : BunFrame} {bs : List UInt8}
    (hbody : writeBody h s f = s.emit bs ∨ writeBody h s f = (s.emit bs).setOverflow) :
    Emitted h s (writeHeader h (writeBody h s f) f) f off bs := by
  have hwidth : HeaderField.size.start + HeaderField.size.width ≤ headerSize := by decide
  have hbuf : (writeBody h s f).writer.data.buffer = 0 := by
    rcases hbody with heq | heq <;> rw [heq] <;> exact hs.buffer
  have hcur : (writeBody h s f).writer.data.cursor = ((off + bs.length : Nat) : Int) := by
    have := hs.cursor
    rcases hbody with heq | heq <;> rw [heq] <;>
      simp only [WriterState.setOverflow_cursor, WriterState.emit_cursor] <;> omega
  have hmem : (writeBody h s f).mem = s.mem.memcpy off bs := by
    rcases hbody with heq | heq <;> rw [heq, ← hs.cursor] <;> rfl
  -- the header is in front of the cursor
  have hsize : HeaderField.size.get (s.mem.memcpy off bs).bytes 0
      = HeaderField.size.get s.mem.bytes 0 := by
    rw [Memory.memcpy_bytes]
    exact HeaderField.get_of_sameOn
      (Region.sameOn_patch_above 0 s.mem.bytes bs (Int.ofNat_le.mpr hs.start)) (Nat.zero_le _)
      (Int.ofNat_le.mpr hwidth) hwidth hs.head
  obtain ⟨off', _, hs', _⟩ := hs.writeBody f
  have hoff : off' = off + bs.length := by
    have := hs'.cursor
    rw [hcur] at this
    omega
  have hhead : headerSize ≤ (s.mem.memcpy off bs).bytes.length := by
    rw [Memory.memcpy_bytes, Region.length_patch]
    exact hs.head
  refine ⟨hoff ▸ hs'.setField _ _, ?_, ?_, ?_⟩
  · rw [writeHeader, WriterState.setField, hbuf, hmem, hsize]
    simp only [Memory.setField, Memory.store, Memory.memcpy, Memory.stores_log, Int.zero_add]
  · rw [writeHeader, WriterState.setField, hbuf, hmem, hsize, Memory.setField_bytes,
      Memory.memcpy_bytes]
  · rw [writeHeader, WriterState.setField, hbuf, hmem, hsize]
    exact HeaderField.get_setField _ hwidth hhead _

end

namespace Emitted

variable {s t : WriterState} {f : BunFrame} {off : Nat} {bs : List UInt8}

theorem length_bytes (ht : Emitted h s t f off bs) :
    t.mem.bytes.length = s.mem.bytes.length := by
  rw [ht.bytes, Region.length_patch, Region.length_patch]

/-- Behind the header the size cannot be seen. -/
theorem sameOn_patch (ht : Emitted h s t f off bs) (hi : Int) :
    Region.SameOn headerSize hi (Region.patch s.mem.bytes off bs) t.mem.bytes := by
  rw [ht.bytes]
  exact Region.sameOn_patch_below hi _ _ (by rw [LittleEndian.length_encode]; decide)

/-- What was written before is still there. -/
theorem sameOn (ht : Emitted h s t f off bs) :
    Region.SameOn headerSize off s.mem.bytes t.mem.bytes :=
  (Region.sameOn_patch_above headerSize s.mem.bytes bs (Int.le_refl _)).trans (ht.sameOn_patch _)

/-- So are the fields in front of the size. -/
theorem sameOn_front (ht : Emitted h s t f off bs) (hstart : headerSize ≤ off) :
    Region.SameOn 0 HeaderField.size.start s.mem.bytes t.mem.bytes := by
  have hoff : HeaderField.size.start ≤ off := le_trans (by decide) hstart
  rw [ht.bytes]
  exact (Region.sameOn_patch_above 0 s.mem.bytes bs (Int.ofNat_le.mpr hoff)).trans
    (Region.sameOn_patch_above 0 _ _ (Int.le_refl _))

/-- From the old cursor on there are the bytes, cut at the end, and then the old rest. -/
theorem drop_bytes (ht : Emitted h s t f off bs) (hstart : headerSize ≤ off) :
    t.mem.bytes.drop off
      = bs.take (s.mem.bytes.length - off) ++ s.mem.bytes.drop (off + bs.length) := by
  rw [← (ht.sameOn_patch s.mem.bytes.length).drop_eq hstart (by rw [Region.length_patch]),
    Region.drop_patch]

end Emitted

section

variable {s : WriterState} {off : Nat} {f : BunFrame}

theorem WriterAt.frameStep (hs : WriterAt h s off) (f : BunFrame) :
    ∃ off', off ≤ off' ∧ WriterAt h (frameStep h s f) off' := hs.apply (.frameWrite f)

theorem writeFrames_state (s : WriterState) (frames : List BunFrame) :
    (writeFrames h s frames).2 = frames.foldl (frameStep h) s := by
  induction frames generalizing s with
  | nil => rfl
  | cons f fs ih =>
      rw [writeFrames, List.foldl_cons, ← ih]
      rfl

/-- A run of frames leaves the writer somewhere further on. -/
theorem WriterAt.writeFrames (hs : WriterAt h s off) (frames : List BunFrame) :
    ∃ off', off ≤ off' ∧ WriterAt h (writeFrames h s frames).2 off' := by
  rw [writeFrames_state]
  induction frames generalizing s off with
  | nil => exact ⟨off, Nat.le_refl _, hs⟩
  | cons f fs ih =>
      obtain ⟨o₁, h₁, hs₁⟩ := hs.frameStep f
      obtain ⟨o₂, h₂, hs₂⟩ := ih hs₁
      exact ⟨o₂, h₁.trans h₂, hs₂⟩

theorem frameStep_of_refused (h' : writerAvailable h s.writer < wouldWrite h f) :
    frameStep h s f = s := by
  rw [frameStep, bunFrameWrite_eq, if_pos h']

theorem frameStep_of_accepted (h' : ¬writerAvailable h s.writer < wouldWrite h f) :
    frameStep h s f = writeHeader h (writeBody h s f) f := by
  rw [frameStep, bunFrameWrite_eq, if_neg h']

/-- An accepted call emits some bytes, wherever the cursor is. -/
theorem emitted_of_accepted (hs : WriterAt h s off) (hf : f.WellFormed h)
    (hacc : ¬writerAvailable h s.writer < wouldWrite h f) :
    ∃ bs, Emitted h s (frameStep h s f) f off bs := by
  have hemits : Emits s (writeBody h s f) := by
    rw [writeBody_eq s hf]
    exact ((((writeLe_emits h 8 s _).trans (writeLe_emits h 8 _ _)).trans
      (writeLe_emits h 8 _ _)).trans (Emits.emit _ _)).trans
        ((writeLe_emits h 2 _ _).trans (Emits.emit _ _))
  obtain ⟨bs, hbody⟩ := hemits
  rw [frameStep_of_accepted hacc]
  exact ⟨bs, emitted_of_body hs hbody⟩

/-- A call stores nothing in front of the cursor but the size in the header. -/
theorem frameStep_header (hs : WriterAt h s off) (f : BunFrame) :
    frameStep h s f = s ∨ ∃ (M : Memory) (v : Nat), Region.SameOn 0 off s.mem.bytes M.bytes
      ∧ (frameStep h s f).mem = M.setField 0 HeaderField.size v := by
  by_cases hacc : writerAvailable h s.writer < wouldWrite h f
  · exact Or.inl (frameStep_of_refused hacc)
  · obtain ⟨_, _, hat, hsame⟩ := hs.writeBody f
    refine Or.inr ⟨(writeBody h s f).mem,
      HeaderField.size.get (writeBody h s f).mem.bytes 0 + wouldWrite h f, hsame, ?_⟩
    rw [frameStep_of_accepted hacc, writeHeader, hat.mem_setField, hat.buffer]

/-- No call touches what is in front of the size in the header. -/
theorem sameOn_frameStep (hs : WriterAt h s off) (f : BunFrame) :
    Region.SameOn 0 HeaderField.size.start s.mem.bytes (frameStep h s f).mem.bytes := by
  rcases frameStep_header hs f with heq | ⟨M, v, hsame, hmem⟩
  · rw [heq]
    exact Region.SameOn.refl _ _ _
  · have hoff : HeaderField.size.start ≤ off := le_trans (by decide) hs.start
    rw [hmem, Memory.setField_bytes]
    exact (hsame.mono (Nat.le_refl 0) (Int.ofNat_le.mpr hoff)).trans
      (Region.sameOn_patch_above 0 _ _ (Int.le_refl _))

/-- Nor any other field of it. -/
theorem HeaderField.get_frameStep (hs : WriterAt h s off) (f : BunFrame) {g : HeaderField}
    (hg : g.start + g.width ≤ headerSize)
    (hd : g.start + g.width ≤ HeaderField.size.start
      ∨ HeaderField.size.start + HeaderField.size.width ≤ g.start) :
    g.get (frameStep h s f).mem.bytes 0 = g.get s.mem.bytes 0 := by
  rcases frameStep_header hs f with heq | ⟨M, v, hsame, hmem⟩
  · rw [heq]
  · rw [hmem, HeaderField.get_setField_of_disjoint M hg (hsame.1 ▸ hs.head) v hd]
    exact HeaderField.get_of_sameOn hsame (Nat.zero_le _)
      (Int.ofNat_le.mpr (hg.trans hs.start)) hg hs.head

end

/-! ## The estimate -/

/-- What the estimate leaves out: it counts two fields of a `size_t` for three of 64 and 16 bits. -/
def Host.shortfall (h : Host) : Nat := 18 - 2 * h.sizeofSizeT

theorem Host.toSizeT_natCast (h : Host) (n : Nat) : h.toSizeT n = n % h.sizeMod := by
  rw [toSizeT, ← Int.natCast_mod, Int.toNat_natCast]

/-- The estimate of a well-formed frame is its length less the shortfall, as a `size_t`. -/
theorem wouldWrite_eq {f : BunFrame} (hf : f.WellFormed h) :
    wouldWrite h f = (f.encodedLength - h.shortfall) % h.sizeMod := by
  have hsum : f.symbolStr.1.length + f.filenameStr.1.length + 2 + 8 + h.sizeofSizeT
      + h.sizeofSizeT + f.registerCount * registerSize = f.encodedLength - h.shortfall := by
    have hmul : f.registerCount * registerSize = registerSize * f.registerCount := Nat.mul_comm ..
    rw [BunFrame.encodedLength, Host.shortfall, hmul]
    rcases h.sizes with ⟨hs, _⟩ | ⟨hs, _⟩ <;> omega
  rw [wouldWrite, f.effectiveLength_symbol hf, f.effectiveLength_filename hf, hsum,
    h.toSizeT_natCast]

/-- The room left for the frame is less than its length less the shortfall, as a `size_t`. -/
def Refused (h : Host) (writer : BunWriter) (f : BunFrame) : Prop :=
  writerAvailable h writer < (f.encodedLength - h.shortfall) % h.sizeMod

theorem refused_iff {f : BunFrame} (hf : f.WellFormed h) (writer : BunWriter) :
    Refused h writer f ↔ writerAvailable h writer < wouldWrite h f := by
  rw [Refused, wouldWrite_eq hf]

/-- A frame that fits is estimated without wrapping, and so accepted. -/
theorem wouldWrite_of_le {f : BunFrame} (hf : f.WellFormed h) {n : Nat} (hn : n ≤ h.ptrdiffMax)
    (hfit : f.encodedLength ≤ n) : wouldWrite h f = f.encodedLength - h.shortfall := by
  have hmod := h.sizes
  rw [wouldWrite_eq hf, Nat.mod_eq_of_lt (by omega)]

theorem encodedLength_eq (f : BunFrame) :
    f.encodedLength = 24 + f.stringBytes.length + 2 + f.registerBlock.length := by
  rw [BunFrame.encodedLength, f.length_stringBytes, f.length_registerBlock]
  omega

/--
**How an accepted call ends.** The frame fits and is there; or it has no registers
and all that is missing is the count; or, on a 32-bit host with no room for three
integers, it is short by as much as the estimate was; or the call passes the end.
-/
theorem accepted_cases {s : WriterState} {off : Nat} (hs : WriterAt h s off)
    (hle : off ≤ s.mem.bytes.length) {f : BunFrame} (hf : f.WellFormed h)
    (hacc : ¬writerAvailable h s.writer < wouldWrite h f) :
    ∃ bs, Emitted h s (frameStep h s f) f off bs
      ∧ wouldWrite h f ≤ s.mem.bytes.length - off
      ∧ ((f.encodedLength ≤ s.mem.bytes.length - off ∧ bs.length = f.encodedLength
          ∧ wouldWrite h f + h.shortfall = f.encodedLength) ∨
        (f.registerCount = 0 ∧ f.encodedLength ≤ s.mem.bytes.length - off + 2
          ∧ s.mem.bytes.length - off < f.encodedLength ∧ 24 ≤ s.mem.bytes.length - off
          ∧ bs.length + 2 = f.encodedLength
          ∧ wouldWrite h f + h.shortfall = f.encodedLength) ∨
        (s.mem.bytes.length - off < 24 ∧ f.encodedLength ≤ s.mem.bytes.length - off + 10
          ∧ h.sizeofSizeT = 4 ∧ bs.length + 10 = f.encodedLength
          ∧ wouldWrite h f + 10 = f.encodedLength) ∨
        (s.mem.bytes.length - off < bs.length ∧ s.mem.bytes.length - off < f.encodedLength
          ∧ ¬(f.registerCount = 0 ∧ f.encodedLength ≤ s.mem.bytes.length - off + 2)
          ∧ ¬(s.mem.bytes.length - off < 24
            ∧ f.encodedLength ≤ s.mem.bytes.length - off + 10))) := by
  have hmem := hs.mem_le
  have hn := encodedLength_eq f
  have hregs : f.registerBlock.length = 10 * f.registerCount := f.length_registerBlock
  have hest : wouldWrite h f ≤ s.mem.bytes.length - off := by
    rw [hs.writerAvailable, hs.toSizeT_room hle] at hacc
    omega
  have hsizes : (h.sizeofSizeT = 4 ∧ h.shortfall = 10 ∨ h.sizeofSizeT = 8 ∧ h.shortfall = 2)
      ∧ h.ptrdiffMax + 34 < h.sizeMod := by
    unfold Host.shortfall
    have := h.sizes
    omega
  -- the estimate fits, so either it wrapped or the frame is hardly longer than the room
  have hwrap : wouldWrite h f + h.shortfall = f.encodedLength ∨ h.sizeMod ≤ f.encodedLength := by
    rw [wouldWrite_eq hf]
    by_cases hlt : f.encodedLength - h.shortfall < h.sizeMod
    · rw [Nat.mod_eq_of_lt hlt]
      omega
    · omega
  rw [frameStep_of_accepted hacc]
  rcases writeBody_cases hs hle hf with ⟨_, h24, hcase, heq⟩ | ⟨_, hlo, hhi, heq⟩ |
    ⟨_, hshort, xs, hxs, heq⟩ | ⟨hov, heq⟩
  · refine ⟨_, emitted_of_body hs (Or.inl heq), hest, ?_⟩
    rw [Record.length_encode, f.length_record hf]
    by_cases hfit : f.encodedLength ≤ s.mem.bytes.length - off
    · exact Or.inl ⟨hfit, rfl, by omega⟩
    · exact Or.inr (Or.inr (Or.inr ⟨by omega, by omega, by omega, by omega⟩))
  · refine ⟨_, emitted_of_body hs (Or.inr heq), hest, ?_⟩
    rw [List.length_append, List.length_append, f.length_intBytes]
    by_cases hzero : f.registerCount = 0
    · exact Or.inr (Or.inl ⟨hzero, by omega, by omega, by omega, by omega, by omega⟩)
    · exact Or.inr (Or.inr (Or.inr ⟨by omega, by omega, by omega, by omega⟩))
  · refine ⟨_, emitted_of_body hs (Or.inr heq), hest, ?_⟩
    rw [List.length_append, List.length_append, hxs]
    by_cases hfit : f.encodedLength ≤ s.mem.bytes.length - off + 10
    · exact Or.inr (Or.inr (Or.inl ⟨by omega, hfit, by omega, by omega, by omega⟩))
    · exact Or.inr (Or.inr (Or.inr ⟨by omega, by omega, by omega, by omega⟩))
  · have := hs.tight hov
    refine ⟨_, emitted_of_body hs (Or.inl heq), hest, ?_⟩
    rw [List.length_append]
    exact Or.inr (Or.inr (Or.inr ⟨by omega, by omega, by omega, by omega⟩))

/-- **A frame that fits is written whole.** -/
theorem emitted_of_fits {s : WriterState} {off : Nat} (hs : WriterAt h s off) {f : BunFrame}
    (hf : f.WellFormed h) (hfit : off + f.encodedLength ≤ s.mem.bytes.length) :
    ¬writerAvailable h s.writer < wouldWrite h f
      ∧ wouldWrite h f + h.shortfall = f.encodedLength
      ∧ Emitted h s (frameStep h s f) f off (frameCodec.encode (f.record hf))
      ∧ (frameStep h s f).writer.data.overflow = false := by
  have hmem := hs.mem_le
  have hn := encodedLength_eq f
  have hov := hs.clear (by omega)
  have hlt : h.shortfall ≤ 18 := Nat.sub_le _ _
  have hw := wouldWrite_of_le hf hmem (by omega)
  have hacc : ¬writerAvailable h s.writer < wouldWrite h f := by
    rw [hs.writerAvailable, hs.toSizeT_room (by omega)]
    omega
  refine ⟨hacc, by omega, ?_⟩
  rw [frameStep_of_accepted hacc]
  rcases writeBody_cases hs (by omega) hf with ⟨_, _, _, heq⟩ | ⟨_, _, hhi, _⟩ | ⟨_, hshort, _⟩ |
    ⟨hov', _⟩
  · exact ⟨emitted_of_body hs (Or.inl heq), by rw [writeHeader, heq]; exact hov⟩
  · omega
  · omega
  · rw [hov] at hov'
    exact Bool.noConfusion hov'

/-! ## Opening -/

/-- In a payload with room for it, the header says what was stored. -/
theorem initHeader_fields (m : Memory) (hm : headerSize ≤ m.bytes.length) (arch : BunArchitecture)
    (tid : UInt32) :
    HeaderField.magic.get (initHeader m arch tid).bytes 0 = bunHeaderMagic
      ∧ HeaderField.size.get (initHeader m arch tid).bytes 0 = headerSize
      ∧ HeaderField.tid.get (initHeader m arch tid).bytes 0 = tid.toNat
      ∧ HeaderField.backend.get (initHeader m arch tid).bytes 0
        = BunUnwindBackend.none.toUInt16 := by
  -- a store to the header leaves a payload with a header, and leaves the fields before it alone
  have hroom : ∀ (M : Memory) (f : HeaderField) (v : Nat), headerSize ≤ M.bytes.length →
      headerSize ≤ (M.setField 0 f v).bytes.length := fun M f v hM => by
    rwa [M.setField_bytes, Region.length_patch]
  have hkeep : ∀ (M : Memory) (f g : HeaderField) (v : Nat), headerSize ≤ M.bytes.length →
      f.start + f.width ≤ headerSize → f.start + f.width ≤ g.start →
      f.get (M.setField 0 g v).bytes 0 = f.get M.bytes 0 := fun M f g v hM hf hfg =>
    HeaderField.get_setField_of_disjoint M hf hM v (Or.inl hfg)
  have h₁ := hroom m .magic bunHeaderMagic hm
  have h₂ := hroom _ .version 1 h₁
  have h₃ := hroom _ .architecture arch.toNat h₂
  have h₄ := hroom _ .size headerSize h₃
  have h₅ := hroom _ .tid tid.toNat h₄
  unfold initHeader
  refine ⟨?_, ?_, ?_, ?_⟩
  · rw [hkeep _ _ _ _ h₅ (by decide) (by decide), hkeep _ _ _ _ h₄ (by decide) (by decide),
      hkeep _ _ _ _ h₃ (by decide) (by decide), hkeep _ _ _ _ h₂ (by decide) (by decide),
      hkeep _ _ _ _ h₁ (by decide) (by decide), HeaderField.get_setField _ (by decide) hm]
    rfl
  · rw [hkeep _ _ _ _ h₅ (by decide) (by decide), hkeep _ _ _ _ h₄ (by decide) (by decide),
      HeaderField.get_setField _ (by decide) h₃]
    rfl
  · rw [hkeep _ _ _ _ h₅ (by decide) (by decide), HeaderField.get_setField _ (by decide) h₄]
    exact Nat.mod_eq_of_lt tid.toNat_lt
  · rw [HeaderField.get_setField _ (by decide) h₅]
    rfl

/-- **An opened writer** stands behind a header that declares nothing else. -/
theorem bunWriterInit_at {handles : HandleRef → BunHandle} {tid : UInt32} {w₀ w : BunWriter}
    {buf buf' : BunBuffer h} {arch : BunArchitecture} {handle : Option HandleRef}
    (hbuf : bunBufferPayloadHeaderSize ≤ buf.size)
    (hinit : bunWriterInit handles tid w₀ buf arch handle = (true, w, buf')) :
    WriterAt h ⟨w, buf'.memory⟩ headerSize ∧ w.data.overflow = false
      ∧ HeaderField.magic.get buf'.payload 0 = bunHeaderMagic
      ∧ HeaderField.size.get buf'.payload 0 = headerSize := by
  obtain ⟨hhead, hmem, hsize⟩ := buf.payload_room hbuf
  obtain ⟨rfl, _, hpay⟩ := bunWriterInit_eq_true hinit
  have hlen : buf'.payload.length = buf.payload.length := by
    rw [hpay, length_initHeader]; rfl
  obtain ⟨hmagic, hsz, _⟩ := initHeader_fields buf.memory hhead arch tid
  rw [← hpay] at hmagic hsz
  exact ⟨⟨rfl, hsize.trans hlen.symm, hlen ▸ hmem, hlen ▸ hhead, rfl, Nat.le_refl _,
    fun hov => Bool.noConfusion hov⟩, rfl, hmagic, hsz⟩

end LibBun
