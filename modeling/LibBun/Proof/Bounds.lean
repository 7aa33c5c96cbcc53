import LibBun.Lib.Run
import LibBun.Proof.Writer

/-!
# Where a writer stays inside its payload

A call is accepted when its estimate is no more than the room that is left, and
the estimate is short of the frame by two bytes on a 64-bit host and by ten on a
32-bit one. So there are calls that are accepted without room for the frame. What
saves some of them is that the integers are guarded one by one: a count that does
not fit is left out, and if no registers follow it nothing is stored beyond the
end. With registers there is nothing left to save it.

`StaysInside` is the condition under which a call keeps to the payload, in terms
of the room before it and the length of the frame, and `writer_in_bounds_iff` says
that it is exact over whole runs.
-/

namespace LibBun

variable {h : Host}

/-- The cursor is in the payload, and so is everything stored up to now. -/
structure InBounds (s : WriterState) : Prop where
  lower : (headerSize : Int) ≤ s.writer.data.cursor - s.writer.data.buffer
  upper : s.writer.data.cursor - s.writer.data.buffer ≤ s.writer.data.size
  stores : ∀ st ∈ s.mem.log, st.Inside s.mem.bytes.length

/--
A call that keeps to the payload: it is refused, or the frame fits, or only the
count of no registers does not, or the integers that are left out make up for the
shortfall.
-/
def StaysInside (h : Host) (s : WriterState) (f : BunFrame) : Prop :=
  Refused h s.writer f
    ∨ f.encodedLength ≤ writerAvailable h s.writer
    ∨ (f.registerCount = 0 ∧ f.encodedLength ≤ writerAvailable h s.writer + 2)
    ∨ (writerAvailable h s.writer < 24 ∧ f.encodedLength ≤ writerAvailable h s.writer + 10)

variable {s : WriterState} {off : Nat}

/-- A call that emits `bs` stays inside exactly when `bs` ends inside. -/
theorem inBounds_emitted_iff (hs : WriterAt h s off) (hin : InBounds s) {t : WriterState}
    {f : BunFrame} {bs : List UInt8} (ht : Emitted h s t f off bs) :
    InBounds t ↔ off + bs.length ≤ s.mem.bytes.length := by
  have hlen := ht.length_bytes
  have hcur := ht.at_.cursor
  have hbuf := ht.at_.buffer
  have hsize := ht.at_.size
  constructor
  · intro hin'
    have := hin'.upper
    omega
  · intro hfits
    have hstart := ht.at_.start
    refine ⟨by omega, by omega, fun st hst => ?_⟩
    rw [ht.log] at hst
    rw [hlen]
    rcases List.mem_append.mp hst with hst | hst
    · rcases List.mem_append.mp hst with hst | hst
      · exact hin.stores st hst
      · have := Region.mem_cellwise hst
        exact ⟨by omega, by omega⟩
    · have hhead := hs.head
      rw [List.mem_singleton.mp hst]
      refine ⟨Int.natCast_nonneg _, ?_⟩
      rw [LittleEndian.length_encode]
      exact Int.ofNat_le.mpr (le_trans (by decide) hhead)

/-- **One call** from inside the payload stays inside exactly when it meets the condition. -/
theorem inBounds_frameStep_iff (hs : WriterAt h s off) (hin : InBounds s) {f : BunFrame}
    (hf : f.WellFormed h) : InBounds (frameStep h s f) ↔ StaysInside h s f := by
  have hle : off ≤ s.mem.bytes.length := by
    have := hin.upper
    have := hs.cursor
    have := hs.buffer
    have := hs.size
    omega
  have havail : writerAvailable h s.writer = s.mem.bytes.length - off := by
    rw [hs.writerAvailable, hs.toSizeT_room hle]
  by_cases hacc : writerAvailable h s.writer < wouldWrite h f
  · rw [frameStep_of_refused hacc]
    exact iff_of_true hin (Or.inl ((refused_iff hf s.writer).mpr hacc))
  obtain ⟨bs, hemit, _, hcases⟩ := accepted_cases hs hle hf hacc
  rw [inBounds_emitted_iff hs hin hemit, StaysInside, refused_iff hf, or_iff_right hacc, havail]
  omega

/--
**A run stays inside the payload exactly when each of its calls meets the
condition.** The buffer is any that `bun_buffer_init` accepted, of any size, and
the frames are any the interface allows.
-/
theorem writer_in_bounds_iff {data : CObject h} {buf buf' : BunBuffer h}
    (hbuf : bunBufferInit data = some buf) {handles : HandleRef → BunHandle} {tid : UInt32}
    {w₀ w : BunWriter} {arch : BunArchitecture} {handle : Option HandleRef}
    (hinit : bunWriterInit handles tid w₀ buf arch handle = (true, w, buf'))
    {frames : List BunFrame} (hwf : ∀ f ∈ frames, f.WellFormed h) :
    Run.Throughout (frameStep h) InBounds ⟨w, buf'.memory⟩ frames ↔
      Run.Along (frameStep h) (StaysInside h) ⟨w, buf'.memory⟩ frames := by
  obtain ⟨hs, _, _, _⟩ := bunWriterInit_at (bunBufferInit_size hbuf) hinit
  have hin : InBounds ⟨w, buf'.memory⟩ := by
    have hcur := hs.cursor
    have hb := hs.buffer
    have hz := hs.size
    have hhead := hs.head
    exact ⟨by omega, by omega, fun st hst => absurd hst (by simp [BunBuffer.memory])⟩
  refine Run.throughout_iff_along (fun s => ∃ off, WriterAt h s off) ⟨_, hs⟩ hin hwf ?_ ?_
  · rintro s f ⟨off, hs⟩ _ _ _
    obtain ⟨off', _, hs'⟩ := hs.frameStep f
    exact ⟨off', hs'⟩
  · rintro s f ⟨off, hs⟩ hin hf
    exact inBounds_frameStep_iff hs hin hf

/-! ## One register too many -/

/-- A frame of nothing but one register. -/
def oneRegisterFrame : BunFrame :=
  { BunFrame.zero with
    registerCount := 1
    registerBufferSize := registerSize
    registerData := some ⟨0, List.replicate 10 171⟩ }

theorem oneRegisterFrame_wellFormed (h : Host) : oneRegisterFrame.WellFormed h :=
  { BunFrame.zero_wellFormed h with registerCount_lt := by decide }

/-- With a byte to spare for every field, a register stays inside. -/
theorem writer_in_bounds_oneRegister :
    ∃ buf buf' w, bunBufferInit (zeroedObject ⟨.w64, .little⟩ 78 (by decide)) = some buf
      ∧ bunWriterInit (fun _ => ⟨0⟩) 7 unopenedWriter buf .x86_64 none = (true, w, buf')
      ∧ Run.Throughout (frameStep ⟨.w64, .little⟩) InBounds ⟨w, buf'.memory⟩
        [oneRegisterFrame] := by
  have hopen : ∃ buf buf' w, bunBufferInit (zeroedObject ⟨.w64, .little⟩ 78 (by decide)) = some buf
      ∧ bunWriterInit (fun _ => ⟨0⟩) 7 unopenedWriter buf .x86_64 none = (true, w, buf')
      ∧ oneRegisterFrame.encodedLength ≤ writerAvailable ⟨.w64, .little⟩ w :=
    ⟨_, _, _, rfl, rfl, by decide⟩
  obtain ⟨buf, buf', w, hbuf, hinit, hroom⟩ := hopen
  refine ⟨buf, buf', w, hbuf, hinit, (writer_in_bounds_iff hbuf hinit (fun f hf => ?_)).mpr
    ⟨Or.inr (Or.inl hroom), trivial⟩⟩
  exact List.mem_singleton.mp hf ▸ oneRegisterFrame_wellFormed _

/-- With one byte less, the call is accepted all the same and stores beyond the end. -/
theorem writer_out_of_bounds :
    ∃ buf buf' w, bunBufferInit (zeroedObject ⟨.w64, .little⟩ 77 (by decide)) = some buf
      ∧ bunWriterInit (fun _ => ⟨0⟩) 7 unopenedWriter buf .x86_64 none = (true, w, buf')
      ∧ oneRegisterFrame.WellFormed ⟨.w64, .little⟩
      ∧ (bunFrameWrite ⟨.w64, .little⟩ ⟨w, buf'.memory⟩ oneRegisterFrame).1 = 36
      ∧ (bunFrameWrite ⟨.w64, .little⟩ ⟨w, buf'.memory⟩ oneRegisterFrame).2.writer.data.cursor = 62
      ∧ w.data.size = 61
      ∧ (⟨61, [171]⟩ : ByteStore) ∈
          (bunFrameWrite ⟨.w64, .little⟩ ⟨w, buf'.memory⟩ oneRegisterFrame).2.mem.log := by
  exact ⟨_, _, _, rfl, rfl, oneRegisterFrame_wellFormed _, rfl, rfl, rfl, by decide⟩

end LibBun
