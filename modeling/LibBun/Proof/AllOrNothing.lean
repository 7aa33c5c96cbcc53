import LibBun.Proof.Writer

/-!
# All of a frame or none of it

A call of `bun_frame_write` has two tests for room. The estimate lets the call in
or turns it away; the integers are tested once more, one by one. Were the estimate
the length of the frame, the second test would never fail, and a call would write
the whole frame or touch nothing.

It is the length less the shortfall. A call that the estimate lets in without room
for the frame returns what it would have written, and what it does write ends
beyond the payload or has an integer left out. So the calls that are all or nothing
are those with room for the frame and those the estimate turns away, and no others.

A writer can be opened on a payload that has no room for a header, and then its
cursor is beyond the end from the start. Nothing fits there either, so all that is
needed of such a writer is that its cursor never moves back.
-/

namespace LibBun

variable {h : Host}

/-! ## The cursor never moves back -/

/-- `t` has come from `s` by writing: the buffer is the same, and the cursor is not behind. -/
structure Onward (s t : WriterState) : Prop where
  buffer : t.writer.data.buffer = s.writer.data.buffer
  size : t.writer.data.size = s.writer.data.size
  length : t.mem.bytes.length = s.mem.bytes.length
  cursor : s.writer.data.cursor ≤ t.writer.data.cursor

namespace Onward

variable {s t u : WriterState}

theorem refl (s : WriterState) : Onward s s := ⟨rfl, rfl, rfl, Int.le_refl _⟩

theorem trans (hst : Onward s t) (htu : Onward t u) : Onward s u :=
  ⟨htu.buffer.trans hst.buffer, htu.size.trans hst.size, htu.length.trans hst.length,
    hst.cursor.trans htu.cursor⟩

theorem memcpy (s : WriterState) (bs : List UInt8) : Onward s (s.memcpy bs) :=
  ⟨rfl, rfl, s.length_memcpy bs, Int.le_refl _⟩

theorem advance (s : WriterState) (n : Nat) : Onward s (s.advance n) :=
  ⟨rfl, rfl, rfl, Int.le_add_of_nonneg_right (Int.natCast_nonneg n)⟩

theorem setField (s : WriterState) (f : HeaderField) (v : Nat) : Onward s (s.setField f v) :=
  ⟨rfl, rfl, s.length_setField f v, Int.le_refl _⟩

theorem emit (s : WriterState) (bs : List UInt8) : Onward s (s.emit bs) :=
  (memcpy s bs).trans (advance _ _)

theorem steps (s : WriterState) : StepInvariant (Onward s) where
  memcpy := fun bs hst => hst.trans (memcpy _ bs)
  advance := fun n hst => hst.trans (advance _ n)
  setOverflow := fun hst => hst.trans ⟨rfl, rfl, rfl, Int.le_refl _⟩

theorem writeLe (h : Host) (w : Nat) (s : WriterState) (v : Nat) :
    Onward s (writeLe h w s v) := (steps s).writeLe (refl s) w v

theorem writeBody (h : Host) (s : WriterState) (f : BunFrame) : Onward s (writeBody h s f) :=
  (steps s).writeBody (refl s) f

/-- **No call moves the cursor back**, on any writer and with any frame. -/
theorem frameStep (h : Host) (s : WriterState) (f : BunFrame) : Onward s (frameStep h s f) := by
  by_cases hacc : writerAvailable h s.writer < wouldWrite h f
  · rw [frameStep_of_refused hacc]
    exact refl s
  · rw [frameStep_of_accepted hacc]
    exact (writeBody h s f).trans (setField _ _ _)

theorem run (h : Host) (s : WriterState) (frames : List BunFrame) :
    Onward s (writeFrames h s frames).2 := by
  induction frames generalizing s with
  | nil => exact refl s
  | cons f fs ih => exact (frameStep h s f).trans (ih _)

end Onward

/-- An accepted call moves the cursor on by two NULs at least. -/
theorem cursor_lt_frameStep {s : WriterState} {f : BunFrame} (hf : f.WellFormed h)
    (hacc : ¬writerAvailable h s.writer < wouldWrite h f) :
    s.writer.data.cursor < (frameStep h s f).writer.data.cursor := by
  have hints : Onward s
      (writeLe64 h (writeLe64 h (writeLe64 h s f.addr.toNat) f.lineNo) f.offset) :=
    ((Onward.writeLe h 8 s _).trans (Onward.writeLe h 8 _ _)).trans (Onward.writeLe h 8 _ _)
  have hbody := writeBody_eq s hf
  generalize writeLe64 h (writeLe64 h (writeLe64 h s f.addr.toNat) f.lineNo) f.offset = t
    at hints hbody
  have hrest : Onward (t.emit f.stringBytes) (writeBody h s f) := by
    rw [hbody]
    exact (Onward.writeLe h 2 _ _).trans (Onward.emit _ f.registerBlock)
  have hheader : Onward (writeBody h s f) (frameStep h s f) := by
    rw [frameStep_of_accepted hacc]
    exact Onward.setField _ _ _
  have hcur := hints.cursor
  have hend := (hrest.trans hheader).cursor
  rw [WriterState.emit_cursor, f.length_stringBytes] at hend
  omega

/-! ## A writer that was opened -/

/--
Wherever a run of frames leads, either the writer is an ordinary one or there was
no room for a header and the cursor is beyond the end.
-/
theorem writerAt_or_beyond {handles : HandleRef → BunHandle} {tid : UInt32} {w₀ w : BunWriter}
    {buf buf' : BunBuffer h} {arch : BunArchitecture} {handle : Option HandleRef}
    (hinit : bunWriterInit handles tid w₀ buf arch handle = (true, w, buf'))
    (frames : List BunFrame) :
    (∃ off, WriterAt h (writeFrames h ⟨w, buf'.memory⟩ frames).2 off) ∨
    ((writeFrames h ⟨w, buf'.memory⟩ frames).2.writer.data.size
      < (writeFrames h ⟨w, buf'.memory⟩ frames).2.writer.data.cursor
        - (writeFrames h ⟨w, buf'.memory⟩ frames).2.writer.data.buffer) := by
  by_cases hbuf : bunBufferPayloadHeaderSize ≤ buf.size
  · left
    obtain ⟨hs, _⟩ := bunWriterInit_at hbuf hinit
    obtain ⟨off, _, hs'⟩ := hs.writeFrames frames
    exact ⟨off, hs'⟩
  · right
    obtain ⟨hbuffer, hsize, _, hcur⟩ := Onward.run h ⟨w, buf'.memory⟩ frames
    have hroom := headerSize_le_of_init hinit
    have hps := bunBufferPayloadSize_eq (le_trans (by decide) hroom)
    obtain ⟨hw, _, _⟩ := bunWriterInit_eq_true hinit
    have hb : w.data.buffer = 0 := by rw [hw]
    have hc : w.data.cursor = headerSize := by rw [hw]
    have hz : w.data.size = bunBufferPayloadSize buf := by rw [hw]
    simp only [hb, hc, hz] at hbuffer hsize hcur
    rw [bunBufferPayloadHeaderSize] at hbuf
    rw [headerSize] at hcur
    rw [payloadOffset] at hps
    omega

/-! ## The result -/

/-- There is room for the frame, by the measure a reader of the interface would take. -/
def HasRoom (s : WriterState) (f : BunFrame) : Prop :=
  (f.encodedLength : Int)
    ≤ s.writer.data.size - (s.writer.data.cursor - s.writer.data.buffer)

/-- The call writes the whole frame if there is room for it, and otherwise touches nothing. -/
structure AllOrNothing (h : Host) (s : WriterState) (f : BunFrame) (hf : f.WellFormed h) :
    Prop where
  accepts : (bunFrameWrite h s f).1 ≠ 0 ↔ HasRoom s f
  /-- The encoding is at the old cursor, and no other byte but those of the size has changed. -/
  all : (bunFrameWrite h s f).1 ≠ 0 → ∃ off : Nat, s.writer.data.cursor = off
    ∧ ((bunFrameWrite h s f).2.mem.bytes.drop off).take f.encodedLength
      = frameCodec.encode (f.record hf)
    ∧ (bunFrameWrite h s f).2.writer.data.overflow = false
    ∧ ∀ i, (i < off ∨ off + f.encodedLength ≤ i) →
      (i < HeaderField.size.start ∨ HeaderField.size.start + HeaderField.size.width ≤ i) →
      (bunFrameWrite h s f).2.mem.bytes[i]? = s.mem.bytes[i]?
  nothing : (bunFrameWrite h s f).1 = 0 →
    (bunFrameWrite h s f).2.writer.data.cursor = s.writer.data.cursor
      ∧ (bunFrameWrite h s f).2.writer.data.overflow = s.writer.data.overflow
      ∧ (bunFrameWrite h s f).2.mem.bytes = s.mem.bytes

section

variable {s : WriterState} {f : BunFrame} {off : Nat}

theorem hasRoom_iff (hs : WriterAt h s off) :
    HasRoom s f ↔ off + f.encodedLength ≤ s.mem.bytes.length := by
  rw [HasRoom, hs.buffer, hs.size, hs.cursor]
  omega

/-- A frame with room for it is written whole. -/
theorem allOrNothing_of_hasRoom (hs : WriterAt h s off) (hf : f.WellFormed h)
    (hroom : HasRoom s f) : AllOrNothing h s f hf := by
  have hfit := (hasRoom_iff hs).mp hroom
  have hlong : 28 ≤ f.encodedLength := by rw [BunFrame.encodedLength]; omega
  have hshort : h.shortfall ≤ 18 := Nat.sub_le _ _
  obtain ⟨hacc, hest, hemit, hclear⟩ := emitted_of_fits hs hf hfit
  have hlen : (frameCodec.encode (f.record hf)).length = f.encodedLength := by
    rw [Record.length_encode, f.length_record hf]
  have hret : (bunFrameWrite h s f).1 ≠ 0 := by
    rw [bunFrameWrite_eq, if_neg hacc]
    show wouldWrite h f ≠ 0
    omega
  refine ⟨iff_of_true hret hroom, fun _ => ⟨off, hs.cursor, ?_, hclear, fun i hi hsize => ?_⟩,
    fun hzero => absurd hzero hret⟩
  · have hdrop := hemit.drop_bytes hs.start
    rw [List.take_of_length_le (by omega)] at hdrop
    show ((frameStep h s f).mem.bytes.drop off).take f.encodedLength = _
    rw [hdrop, List.take_left' hlen]
  · -- two stores were made, and the byte is in neither
    have hhead : (LittleEndian.encode HeaderField.size.width
        (HeaderField.size.get s.mem.bytes 0 + wouldWrite h f)).length = HeaderField.size.width :=
      LittleEndian.length_encode _ _
    show (frameStep h s f).mem.bytes[i]? = s.mem.bytes[i]?
    rw [hemit.bytes, Region.getElem?_patch_of_outside (by omega),
      Region.getElem?_patch_of_outside (by omega)]

/-- A call that is turned away for want of room touches nothing. -/
theorem allOrNothing_of_refused (hf : f.WellFormed h)
    (href : writerAvailable h s.writer < wouldWrite h f) (hroom : ¬HasRoom s f) :
    AllOrNothing h s f hf := by
  have heq : bunFrameWrite h s f = (0, s) := by rw [bunFrameWrite_eq, if_pos href]
  refine ⟨?_, fun hret => absurd ?_ hret, fun _ => ?_⟩
  · rw [heq]
    exact iff_of_false (fun hret => hret rfl) hroom
  · rw [heq]
  · rw [heq]
    exact ⟨rfl, rfl, rfl⟩

/-- An accepted call without room is neither. -/
theorem not_allOrNothing (hf : f.WellFormed h)
    (hacc : ¬writerAvailable h s.writer < wouldWrite h f) (hroom : ¬HasRoom s f) :
    ¬AllOrNothing h s f hf := by
  intro hall
  by_cases hret : (bunFrameWrite h s f).1 = 0
  · exact absurd (hall.nothing hret).1 (ne_of_gt (cursor_lt_frameStep hf hacc))
  · exact hroom (hall.accepts.mp hret)

end

/--
**A call is all or nothing exactly when the frame fits or the estimate turns it
away.** The writer is any that was opened on any buffer, and any frames have been
written with it before.
-/
theorem all_or_nothing_iff {handles : HandleRef → BunHandle} {tid : UInt32} {w₀ w : BunWriter}
    {buf buf' : BunBuffer h} {arch : BunArchitecture} {handle : Option HandleRef}
    (hinit : bunWriterInit handles tid w₀ buf arch handle = (true, w, buf'))
    (frames : List BunFrame) {s : WriterState}
    (hs : s = (writeFrames h ⟨w, buf'.memory⟩ frames).2) {f : BunFrame} (hf : f.WellFormed h) :
    AllOrNothing h s f hf ↔ HasRoom s f ∨ Refused h s.writer f := by
  rw [refused_iff hf]
  have hwhere := writerAt_or_beyond hinit frames
  rw [← hs] at hwhere
  constructor
  · intro hall
    by_contra hneither
    rw [not_or] at hneither
    exact not_allOrNothing hf hneither.2 hneither.1 hall
  · intro hcond
    rcases hwhere with ⟨off, hat⟩ | hbeyond
    · -- an ordinary writer
      by_cases hroom : HasRoom s f
      · exact allOrNothing_of_hasRoom hat hf hroom
      · exact allOrNothing_of_refused hf (hcond.resolve_left hroom) hroom
    · -- beyond the end there is room for nothing
      have hroom : ¬HasRoom s f := by
        rw [HasRoom]
        omega
      exact allOrNothing_of_refused hf (hcond.resolve_left hroom) hroom

/-- A second frame, in a buffer with room for just the one. -/
theorem all_or_nothing_full :
    ∃ buf buf' w, bunBufferInit (zeroedObject ⟨.w64, .little⟩ 68 (by decide)) = some buf
      ∧ bunWriterInit (fun _ => ⟨0⟩) 7 unopenedWriter buf .x86_64 none = (true, w, buf')
      ∧ AllOrNothing ⟨.w64, .little⟩
        (writeFrames ⟨.w64, .little⟩ ⟨w, buf'.memory⟩ [BunFrame.zero]).2 BunFrame.zero
        (BunFrame.zero_wellFormed _) := by
  have hopen : ∃ buf buf' w, bunBufferInit (zeroedObject ⟨.w64, .little⟩ 68 (by decide)) = some buf
      ∧ bunWriterInit (fun _ => ⟨0⟩) 7 unopenedWriter buf .x86_64 none = (true, w, buf')
      ∧ Refused ⟨.w64, .little⟩
        (writeFrames ⟨.w64, .little⟩ ⟨w, buf'.memory⟩ [BunFrame.zero]).2.writer BunFrame.zero :=
    ⟨_, _, _, rfl, rfl, by unfold Refused; decide⟩
  obtain ⟨buf, buf', w, hbuf, hinit, href⟩ := hopen
  exact ⟨buf, buf', w, hbuf, hinit,
    (all_or_nothing_iff hinit [BunFrame.zero] rfl (BunFrame.zero_wellFormed _)).mpr (Or.inr href)⟩

/-- One byte short of a frame, the call returns 26 and sets the overflow flag. -/
theorem neither_all_nor_nothing :
    ∃ buf buf' w, bunBufferInit (zeroedObject ⟨.w64, .little⟩ 67 (by decide)) = some buf
      ∧ bunWriterInit (fun _ => ⟨0⟩) 7 unopenedWriter buf .x86_64 none = (true, w, buf')
      ∧ w.data.size - (w.data.cursor - w.data.buffer) = 27 ∧ BunFrame.zero.encodedLength = 28
      ∧ (bunFrameWrite ⟨.w64, .little⟩ ⟨w, buf'.memory⟩ BunFrame.zero).1 = 26
      ∧ (bunFrameWrite ⟨.w64, .little⟩ ⟨w, buf'.memory⟩ BunFrame.zero).2.writer.data.overflow = true
      ∧ ¬AllOrNothing ⟨.w64, .little⟩ ⟨w, buf'.memory⟩ BunFrame.zero
        (BunFrame.zero_wellFormed _) := by
  refine ⟨_, _, _, rfl, rfl, rfl, rfl, rfl, rfl, fun hall => ?_⟩
  have hroom := hall.accepts.mp (by decide)
  exact absurd hroom (by unfold HasRoom; decide)

end LibBun
