import LibBun.Proof.Writer

/-!
# Where a call puts things

A frame may come with any lengths and any number of registers. The cursor goes by the
lengths, the copies by the strings, and the two need not have anything to do with one
another. Still, as long as the register count fits behind the cursor, the payload after
the call is five stores at five places, one after the other, each over what the one
before has left; and the size in the header, at the end.
-/

namespace LibBun

variable {h : Host}

/-- The offset at which the file name is put, in a call made at `off`. -/
def filenameAt (h : Host) (off : Nat) (f : BunFrame) : Nat :=
  off + 24 + h.toSizeT (effectiveLength h f.symbolLength f.symbol + 1)

/-- The offset at which the register count is put. -/
def countAt (h : Host) (off : Nat) (f : BunFrame) : Nat :=
  filenameAt h off f + h.toSizeT (effectiveLength h f.filenameLength f.filename + 1)

/-- The payload after the seven steps. -/
def layout (h : Host) (m : List UInt8) (off : Nat) (f : BunFrame) : List UInt8 :=
  let m := Region.patch m off f.intBytes
  let m := Region.patch m (off + 24 : Nat) (f.symbolStr.1 ++ [0])
  let m := Region.patch m (filenameAt h off f) (f.filenameStr.1 ++ [0])
  let m := Region.patch m (countAt h off f) (LittleEndian.encode 2 f.registerCount)
  Region.patch m (countAt h off f + 2 : Nat) f.registerBlock

section

variable {s : WriterState} {off : Nat} {f : BunFrame}

/-- A register block of no registers is no store. -/
theorem registerBlock_of_zero (hzero : f.registerCount = 0) : f.registerBlock = [] := by
  have hlen := f.length_registerBlock
  rw [hzero, Nat.mul_zero] at hlen
  exact List.eq_nil_of_length_eq_zero hlen

theorem writeLe16_of_fits (hs : WriterAt h s off) (hov : s.writer.data.overflow = false)
    (hw : off + 2 ≤ s.mem.bytes.length) (v : Nat) :
    writeLe16 h s v = s.emit (LittleEndian.encode 2 v) := by
  rw [writeLe16, writeLe_of_fits hs hov hw]
  exact congrArg s.emit (LittleEndian.encode_mod 2 v)

theorem writeBody_layout (hs : WriterAt h s off)
    (hfit : countAt h off f + 2 ≤ s.mem.bytes.length) :
    (writeBody h s f).mem.bytes = layout h s.mem.bytes off f := by
  have hle : off + 24 ≤ countAt h off f := by
    rw [countAt, filenameAt]
    omega
  have hov := hs.clear (by omega)
  -- the cursor is known after each step, and so is what each step stores
  obtain ⟨t, ht⟩ : ∃ t, t = s.emit f.intBytes := ⟨_, rfl⟩
  obtain ⟨u, hu⟩ : ∃ u, u = (t.memcpy (f.symbolStr.1 ++ [0])).advance
    (h.toSizeT (effectiveLength h f.symbolLength f.symbol + 1)) := ⟨_, rfl⟩
  obtain ⟨v, hv⟩ : ∃ v, v = (u.memcpy (f.filenameStr.1 ++ [0])).advance
    (h.toSizeT (effectiveLength h f.filenameLength f.filename + 1)) := ⟨_, rfl⟩
  have hst : WriterAt h t (off + 24) := by
    rw [ht, ← f.length_intBytes]
    exact hs.emit f.intBytes
  have hsu : WriterAt h u (filenameAt h off f) := by
    rw [hu]
    exact (hst.memcpy _).advance _
  have hsv : WriterAt h v (countAt h off f) := by
    rw [hv]
    exact (hsu.memcpy _).advance _
  have hsw : WriterAt h (v.emit (LittleEndian.encode 2 f.registerCount))
      (countAt h off f + 2) := by
    have hat := hsv.emit (LittleEndian.encode 2 f.registerCount)
    rwa [LittleEndian.length_encode] at hat
  have hbt : t.mem.bytes = Region.patch s.mem.bytes off f.intBytes := by
    rw [ht]
    exact hs.memcpy_bytes f.intBytes
  have hbu : u.mem.bytes = Region.patch t.mem.bytes (off + 24 : Nat) (f.symbolStr.1 ++ [0]) := by
    rw [hu]
    exact hst.memcpy_bytes _
  have hbv : v.mem.bytes
      = Region.patch u.mem.bytes (filenameAt h off f) (f.filenameStr.1 ++ [0]) := by
    rw [hv]
    exact hsu.memcpy_bytes _
  have hbw : (v.emit (LittleEndian.encode 2 f.registerCount)).mem.bytes = Region.patch v.mem.bytes
      (countAt h off f) (LittleEndian.encode 2 f.registerCount) := hsv.memcpy_bytes _
  have hlen : v.mem.bytes.length = s.mem.bytes.length := by
    rw [hbv, hbu, hbt, Region.length_patch, Region.length_patch, Region.length_patch]
  have hovv : v.writer.data.overflow = false := by
    rw [hv, hu, ht]
    exact hov
  have hbody : writeBody h s f = if f.registerCount > 0 then
      ((writeLe16 h v f.registerCount).memcpy f.registerBlock).advance
        (h.toSizeT (f.registerCount * registerSize))
      else writeLe16 h v f.registerCount := by
    unfold writeBody writeTail
    rw [writeInts_of_fits hs hov (by omega), ← BunFrame.intBytes, ← ht, hv, hu]
    rfl
  rw [hbody, writeLe16_of_fits hsv hovv (by omega), layout, ← hbt, ← hbu, ← hbv, ← hbw]
  split
  · exact hsw.memcpy_bytes f.registerBlock
  · rw [registerBlock_of_zero (by omega), Region.patch_nil]

/-! ## The payload after the call -/

/-- An accepted call adds the estimate to the size in the header, as a `uint32_t`. -/
theorem size_frameStep (hs : WriterAt h s off)
    (hacc : ¬writerAvailable h s.writer < wouldWrite h f) :
    HeaderField.size.get (frameStep h s f).mem.bytes 0
      = (HeaderField.size.get s.mem.bytes 0 + wouldWrite h f) % 2 ^ 32 := by
  obtain ⟨_, _, hat, hsame⟩ := hs.writeBody f
  have hsize : HeaderField.size.get (writeBody h s f).mem.bytes 0
      = HeaderField.size.get s.mem.bytes 0 :=
    HeaderField.get_of_sameOn hsame (Nat.zero_le _)
      (Int.ofNat_le.mpr (le_trans (by decide) hs.start)) (by decide) hs.head
  rw [frameStep_of_accepted hacc, writeHeader, hat.mem_setField, hat.buffer, hsize]
  exact HeaderField.get_setField _ (by decide) hat.head _

/-- Behind the header, an accepted call leaves the layout. -/
theorem sameOn_layout (hs : WriterAt h s off)
    (hacc : ¬writerAvailable h s.writer < wouldWrite h f)
    (hfit : countAt h off f + 2 ≤ s.mem.bytes.length) (hi : Int) :
    Region.SameOn headerSize hi (layout h s.mem.bytes off f) (frameStep h s f).mem.bytes := by
  obtain ⟨_, _, hat, _⟩ := hs.writeBody f
  rw [frameStep_of_accepted hacc, writeHeader, hat.mem_setField, ← writeBody_layout hs hfit]
  exact Memory.sameOn_setField _ _ hi (by decide)

variable {m : List UInt8} {i : Nat}

@[simp] theorem length_layout : (layout h m off f).length = m.length := by
  simp only [layout, Region.length_patch]

/-- The count is behind everything it could be hit by. -/
theorem layout_count (hfit : countAt h off f + 2 ≤ m.length) :
    ((layout h m off f).drop (countAt h off f)).take 2
      = LittleEndian.encode 2 f.registerCount := by
  have hwidth : (LittleEndian.encode 2 f.registerCount).length = 2 := LittleEndian.length_encode ..
  unfold layout
  dsimp only
  have hpast : ((countAt h off f : Nat) : Int) + (2 : Nat) ≤ ((countAt h off f + 2 : Nat) : Int) :=
    Int.le_refl _
  rw [← (Region.sameOn_patch_above 0 _ f.registerBlock (Int.le_refl _)).slice
    (Nat.zero_le (countAt h off f)) hpast, Region.drop_patch_of_fits (by
      simp only [Region.length_patch, hwidth]
      exact hfit)]
  exact List.take_left' hwidth

/-- In front of the file name, a cell of the copied symbol. -/
theorem layout_symbol (hm : off + 24 + i < m.length) (hi : i < (f.symbolStr.1 ++ [0]).length)
    (hfil : off + 24 + i < filenameAt h off f) :
    (layout h m off f)[off + 24 + i]? = (f.symbolStr.1 ++ [0])[i]? := by
  have hle : filenameAt h off f ≤ countAt h off f := Nat.le_add_right _ _
  unfold layout
  dsimp only
  rw [Region.getElem?_patch_of_outside (Or.inl (by omega)),
    Region.getElem?_patch_of_outside (Or.inl (by omega)),
    Region.getElem?_patch_of_outside (Or.inl (by omega)),
    Region.getElem?_patch_of_inside (by rw [Region.length_patch]; exact hm) hi]

/-- In front of the count, a cell of the copied file name. -/
theorem layout_filename (hm : filenameAt h off f + i < m.length)
    (hi : i < (f.filenameStr.1 ++ [0]).length) (hcount : filenameAt h off f + i < countAt h off f) :
    (layout h m off f)[filenameAt h off f + i]? = (f.filenameStr.1 ++ [0])[i]? := by
  unfold layout
  dsimp only
  rw [Region.getElem?_patch_of_outside (Or.inl (by omega)),
    Region.getElem?_patch_of_outside (Or.inl (by omega)),
    Region.getElem?_patch_of_inside (by simp only [Region.length_patch]; exact hm) hi]

/-- A cell between two copies holds what it held before. -/
theorem layout_gap (hsym : off + 24 + (f.symbolStr.1 ++ [0]).length ≤ i)
    (hgap : i < filenameAt h off f
      ∨ filenameAt h off f + (f.filenameStr.1 ++ [0]).length ≤ i ∧ i < countAt h off f) :
    (layout h m off f)[i]? = m[i]? := by
  have hle : filenameAt h off f ≤ countAt h off f := Nat.le_add_right _ _
  unfold layout
  dsimp only
  rw [Region.getElem?_patch_of_outside (Or.inl (by omega)),
    Region.getElem?_patch_of_outside (Or.inl (by omega)),
    Region.getElem?_patch_of_outside (by omega),
    Region.getElem?_patch_of_outside (Or.inr (by omega)),
    Region.getElem?_patch_of_outside (Or.inr (by rw [f.length_intBytes]; omega))]

end

end LibBun
