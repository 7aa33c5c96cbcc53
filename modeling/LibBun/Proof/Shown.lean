import LibBun.Proof.Writer

/-!
# What a frame shows of two of its integers

The backends take the address and the offset of a frame from calls that may have
stored nothing. Whether it matters what they are depends on the writer: a frame that
is refused shows nothing of them, one that is written behind the payload shows
nothing either, and one that goes out where there is no room for three integers
shows the address but not the offset.

`frameStep_withInts` is the one half of this, for what cannot be seen: two frames
that differ in it leave the same behind. `bytes_of_emits` is the other: what can be
seen is in the payload, and no later frame takes it away again.
-/

namespace LibBun

variable {h : Host}

/-- The frame with the given address and offset. -/
def BunFrame.withInts (f : BunFrame) (addr : UInt64) (offset : Nat) : BunFrame :=
  { f with addr := addr, offset := offset }

/-- Only the integers depend on the address and the offset. -/
theorem writeBody_withInts (s : WriterState) (f : BunFrame) (addr : UInt64) (offset : Nat) :
    writeBody h s (f.withInts addr offset) = writeTail h
      (writeLe64 h (writeLe64 h (writeLe64 h s addr.toNat) f.lineNo) offset) f := rfl

/-- The frame is written, and its first `n` bytes are inside the payload. -/
def Shows (h : Host) (w : BunWriter) (f : BunFrame) (n : Nat) : Prop :=
  ¬writerAvailable h w < wouldWrite h f ∧ w.data.cursor - w.data.buffer + n ≤ w.data.size

/-- With the cursor at `off`, that is a matter of the room behind it. -/
theorem shows_iff {s : WriterState} {off : Nat} (hs : WriterAt h s off) (f : BunFrame) (n : Nat) :
    Shows h s.writer f n ↔ ¬writerAvailable h s.writer < wouldWrite h f
      ∧ off + n ≤ s.mem.bytes.length := by
  rw [Shows, hs.cursor, hs.buffer, hs.size]
  refine and_congr_right fun _ => ?_
  omega

/-! ## States that cannot be told apart -/

theorem writer_advance {s t : WriterState} (n : Nat) (hst : s.writer = t.writer) :
    (s.advance n).writer = (t.advance n).writer := by
  rw [WriterState.advance, WriterState.advance, hst]

theorem writer_setOverflow {s t : WriterState} (hst : s.writer = t.writer) :
    s.setOverflow.writer = t.setOverflow.writer := by
  rw [WriterState.setOverflow, WriterState.setOverflow, hst]

/-- The writers are the same and so are the payloads; the stores may have been others. -/
structure Alike (s t : WriterState) : Prop where
  writer : s.writer = t.writer
  bytes : s.mem.bytes = t.mem.bytes

namespace Alike

variable {s t u : WriterState}

theorem refl (s : WriterState) : Alike s s := ⟨rfl, rfl⟩

theorem trans (hst : Alike s t) (htu : Alike t u) : Alike s u :=
  ⟨hst.writer.trans htu.writer, hst.bytes.trans htu.bytes⟩

theorem memcpy (hst : Alike s t) (bs : List UInt8) : Alike (s.memcpy bs) (t.memcpy bs) where
  writer := hst.writer
  bytes := by
    rw [WriterState.memcpy, WriterState.memcpy, Memory.memcpy_bytes, Memory.memcpy_bytes,
      hst.writer, hst.bytes]

theorem advance (hst : Alike s t) (n : Nat) : Alike (s.advance n) (t.advance n) where
  writer := writer_advance n hst.writer
  bytes := hst.bytes

theorem setOverflow (hst : Alike s t) : Alike s.setOverflow t.setOverflow where
  writer := writer_setOverflow hst.writer
  bytes := hst.bytes

theorem setField (hst : Alike s t) (f : HeaderField) (v : Nat) :
    Alike (s.setField f v) (t.setField f v) where
  writer := hst.writer
  bytes := by
    rw [WriterState.setField, WriterState.setField, Memory.setField, Memory.setField, hst.writer]
    exact congrArg (fun m => Region.patch m _ _) hst.bytes

/-- The steps of a call keep states alike. -/
theorem steps : StepRelation Alike where
  writer := Alike.writer
  memcpy := fun bs hst => hst.memcpy bs
  advance := fun n hst => hst.advance n
  setOverflow := Alike.setOverflow

/-- The size is counted up in the same way for two frames of one estimate. -/
theorem writeHeader (hst : Alike s t) {f g : BunFrame} (hfg : wouldWrite h f = wouldWrite h g) :
    Alike (writeHeader h s f) (writeHeader h t g) := by
  unfold LibBun.writeHeader
  rw [hst.writer, hst.bytes, hfg]
  exact hst.setField _ _

/-- One frame, written in two states that are alike. -/
theorem frameStep (hst : Alike s t) (f : BunFrame) : Alike (frameStep h s f) (frameStep h t f) := by
  by_cases hacc : writerAvailable h s.writer < wouldWrite h f
  · rw [frameStep_of_refused hacc, frameStep_of_refused (hst.writer ▸ hacc)]
    exact hst
  · rw [frameStep_of_accepted hacc, frameStep_of_accepted (hst.writer ▸ hacc)]
    exact (steps.writeBody hst f).writeHeader rfl

end Alike

/-! ## What cannot be seen -/

/-- The value of an integer is of no consequence for the writer. -/
theorem writer_writeLe {s t : WriterState} (hst : s.writer = t.writer) (w v v' : Nat) :
    (writeLe h w s v).writer = (writeLe h w t v').writer := by
  unfold writeLe
  dsimp only
  rw [hst]
  split
  · exact writer_setOverflow hst
  · exact writer_advance w hst

theorem writer_steps : StepRelation fun s t => s.writer = t.writer where
  writer := id
  memcpy := fun _ hst => hst
  advance := writer_advance
  setOverflow := writer_setOverflow

theorem writer_writeBody (s : WriterState) (f : BunFrame) (a a' : UInt64) (o o' : Nat) :
    (writeBody h s (f.withInts a o)).writer = (writeBody h s (f.withInts a' o')).writer := by
  rw [writeBody_withInts, writeBody_withInts]
  have haddr := writer_writeLe (h := h) (rfl : s.writer = s.writer) 8 (a.toNat % 2 ^ 64)
    (a'.toNat % 2 ^ 64)
  have hline := writer_writeLe (h := h) haddr 8 (f.lineNo % 2 ^ 64) (f.lineNo % 2 ^ 64)
  have hoffset := writer_writeLe (h := h) hline 8 (o % 2 ^ 64) (o' % 2 ^ 64)
  exact writer_steps.writeTail hoffset f

/-- Without room for three integers the third is not looked at. -/
theorem writeBody_withInts_of_short {s : WriterState} {off : Nat} (hs : WriterAt h s off)
    (hroom : off + 8 ≤ s.mem.bytes.length) (hshort : s.mem.bytes.length < off + 24)
    (f : BunFrame) (a : UInt64) (o o' : Nat) :
    writeBody h s (f.withInts a o) = writeBody h s (f.withInts a o') := by
  have hov := hs.clear hroom
  have hlen : ∀ v, (LittleEndian.encode 8 v).length = 8 := LittleEndian.length_encode 8
  have hs₁ := hs.emit (LittleEndian.encode 8 a.toNat)
  rw [hlen] at hs₁
  have hb₁ := s.length_emit (LittleEndian.encode 8 a.toNat)
  have hthird : ∀ v v' : Nat,
      writeLe64 h (writeLe64 h (writeLe64 h s a.toNat) f.lineNo) v
        = writeLe64 h (writeLe64 h (writeLe64 h s a.toNat) f.lineNo) v' := by
    intro v v'
    rw [writeLe64_of_fits hs hov hroom]
    by_cases h16 : off + 16 ≤ s.mem.bytes.length
    · have hs₂ := hs₁.emit (LittleEndian.encode 8 f.lineNo)
      rw [hlen] at hs₂
      have hb₂ := (s.emit (LittleEndian.encode 8 a.toNat)).length_emit
        (LittleEndian.encode 8 f.lineNo)
      have hend : ((s.emit (LittleEndian.encode 8 a.toNat)).emit
          (LittleEndian.encode 8 f.lineNo)).mem.bytes.length < off + 8 + 8 + 8 := by omega
      rw [writeLe64_of_fits hs₁ hov (by omega), writeLe64, writeLe64,
        writeLe_of_short hs₂ (Or.inr ⟨by omega, hend⟩),
        writeLe_of_short hs₂ (Or.inr ⟨by omega, hend⟩)]
    · have hend : (s.emit (LittleEndian.encode 8 a.toNat)).mem.bytes.length < off + 8 + 8 := by
        omega
      have hstuck : writeLe64 h (s.emit (LittleEndian.encode 8 a.toNat)) f.lineNo
          = (s.emit (LittleEndian.encode 8 a.toNat)).setOverflow := by
        rw [writeLe64, writeLe_of_short hs₁ (Or.inr ⟨by omega, hend⟩)]
      rw [hstuck, writeLe64, writeLe64, writeLe_of_short (hs₁.setOverflow hend) (Or.inl rfl),
        writeLe_of_short (hs₁.setOverflow hend) (Or.inl rfl)]
  rw [writeBody_withInts, writeBody_withInts, hthird o o']

/--
**What is not shown makes no difference.** Two frames that differ in the address only
where it is not shown, and in the offset only where that is not, leave the same behind.
-/
theorem frameStep_withInts {s t : WriterState} {off : Nat} (hs : WriterAt h s off)
    (hst : Alike s t) {f : BunFrame} (hest : 8 ≤ wouldWrite h f) {a a' : UInt64} {o o' : Nat}
    (haddr : Shows h s.writer f 8 → a = a') (hoffset : Shows h s.writer f 24 → o = o') :
    Alike (frameStep h s (f.withInts a o)) (frameStep h t (f.withInts a' o')) := by
  -- what is left is to compare the two frames in the state `s`
  suffices hframes : Alike (frameStep h s (f.withInts a o)) (frameStep h s (f.withInts a' o')) from
    hframes.trans (hst.frameStep _)
  by_cases hacc : writerAvailable h s.writer < wouldWrite h f
  · rw [frameStep_of_refused (f := f.withInts a o) hacc,
      frameStep_of_refused (f := f.withInts a' o') hacc]
    exact Alike.refl s
  rw [frameStep_of_accepted (f := f.withInts a o) hacc,
    frameStep_of_accepted (f := f.withInts a' o') hacc]
  refine Alike.writeHeader ?_ rfl
  rw [shows_iff hs] at haddr hoffset
  by_cases hin : off ≤ s.mem.bytes.length
  · -- inside the payload the estimate makes sure of the address
    have hroom : off + 8 ≤ s.mem.bytes.length := by
      rw [hs.writerAvailable, hs.toSizeT_room hin] at hacc
      omega
    obtain rfl := haddr ⟨hacc, hroom⟩
    by_cases h24 : off + 24 ≤ s.mem.bytes.length
    · obtain rfl := hoffset ⟨hacc, h24⟩
      exact Alike.refl _
    · rw [writeBody_withInts_of_short hs hroom (by omega) f a o o']
      exact Alike.refl _
  · -- behind the payload there is nothing to be seen
    have hsame : ∀ g : BunFrame, (writeBody h s g).mem.bytes = s.mem.bytes := by
      intro g
      obtain ⟨_, _, _, hfront⟩ := hs.writeBody g
      exact (hfront.drop_eq (Nat.le_refl 0) (by omega)).symm
    exact ⟨writer_writeBody s f a a' o o', (hsame _).trans (hsame _).symm⟩

/-! ## What can be seen -/

/-- Frames leave everything alone that is in front of them, and behind the header. -/
theorem sameOn_writeFrames_front {s : WriterState} {off : Nat} (hs : WriterAt h s off)
    (frames : List BunFrame) :
    Region.SameOn headerSize off s.mem.bytes (writeFrames h s frames).2.mem.bytes := by
  rw [writeFrames_state]
  induction frames generalizing s off with
  | nil => exact Region.SameOn.refl _ _ _
  | cons f fs ih =>
      obtain ⟨off', hle, hs'⟩ := hs.frameStep f
      have hrest := (ih hs').mono (Nat.le_refl headerSize) (Int.ofNat_le.mpr hle)
      rcases frameStep_header hs f with heq | ⟨M, v, hsame, hmem⟩
      · rw [heq] at hrest
        rw [List.foldl_cons, heq]
        exact hrest
      · have hfirst : Region.SameOn headerSize off s.mem.bytes (frameStep h s f).mem.bytes := by
          rw [hmem]
          exact (hsame.mono (Nat.zero_le _) (Int.le_refl _)).trans
            (M.sameOn_setField v off (by decide))
        exact hfirst.trans hrest

/-- **What is shown stays**: the bytes a frame begins with, after any frames that follow. -/
theorem bytes_of_emits {s : WriterState} {off : Nat} (hs : WriterAt h s off) {f : BunFrame}
    {xs : List UInt8} (hshows : Shows h s.writer f xs.length)
    (hemits : Emits (s.emit xs) (writeBody h s f)) (rest : List BunFrame) :
    ((writeFrames h (frameStep h s f) rest).2.mem.bytes.drop off).take xs.length = xs := by
  obtain ⟨hacc, hroom⟩ := (shows_iff hs f xs.length).mp hshows
  obtain ⟨bs, hbody⟩ := hemits
  rw [s.emit_emit] at hbody
  have hemitted := emitted_of_body hs hbody
  rw [← frameStep_of_accepted hacc] at hemitted
  have hstay := sameOn_writeFrames_front hemitted.at_ rest
  have hin : xs.length ≤ s.mem.bytes.length - off := by omega
  have hfirst : ((frameStep h s f).mem.bytes.drop off).take xs.length = xs := by
    have hle : xs.length ≤ ((xs ++ bs).take (s.mem.bytes.length - off)).length := by
      rw [List.length_take, List.length_append]
      omega
    rw [hemitted.drop_bytes hs.start, List.take_append_of_le_length hle, List.take_take,
      Nat.min_eq_left hin, List.take_left]
  rw [List.length_append] at hstay
  rw [← hstay.slice hs.start (by omega), hfirst]

/-- The address. -/
theorem addr_of_shows {s : WriterState} {off : Nat} (hs : WriterAt h s off) {f : BunFrame}
    (hf : f.WellFormed h) (hshows : Shows h s.writer f 8) (rest : List BunFrame) :
    ((writeFrames h (frameStep h s f) rest).2.mem.bytes.drop off).take 8
      = LittleEndian.encode 8 f.addr.toNat := by
  have hroom := ((shows_iff hs f 8).mp hshows).2
  have hemits : Emits (s.emit (LittleEndian.encode 8 f.addr.toNat)) (writeBody h s f) := by
    rw [writeBody_eq s hf, writeLe64_of_fits hs (hs.clear hroom) hroom]
    exact (((writeLe_emits h 8 _ _).trans (writeLe_emits h 8 _ _)).trans (Emits.emit _ _)).trans
      ((writeLe_emits h 2 _ _).trans (Emits.emit _ _))
  have hlen := LittleEndian.length_encode 8 f.addr.toNat
  rw [← hlen] at hshows
  have hbytes := bytes_of_emits hs hshows hemits rest
  rwa [hlen] at hbytes

/-- The offset, with the integers in front of it. -/
theorem ints_of_shows {s : WriterState} {off : Nat} (hs : WriterAt h s off) {f : BunFrame}
    (hf : f.WellFormed h) (hshows : Shows h s.writer f 24) (rest : List BunFrame) :
    ((writeFrames h (frameStep h s f) rest).2.mem.bytes.drop off).take 24 = f.intBytes := by
  have hroom := ((shows_iff hs f 24).mp hshows).2
  have hemits : Emits (s.emit f.intBytes) (writeBody h s f) := by
    rw [writeBody_eq s hf, writeInts_of_fits hs (hs.clear (by omega)) hroom]
    exact (Emits.emit _ _).trans ((writeLe_emits h 2 _ _).trans (Emits.emit _ _))
  have hlen := f.length_intBytes
  rw [← hlen] at hshows
  have hbytes := bytes_of_emits hs hshows hemits rest
  rwa [hlen] at hbytes

end LibBun
