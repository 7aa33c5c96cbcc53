import LibBun.Proof.Live

/-!
# The round trip of a whole stream

Frames that all fit come back, except perhaps at the end: the size in the header
is short by the shortfall for every frame written, and the reader does not start a
frame at or behind the declared size. The gap grows with the number of frames, so
the last frame is the first to be lost, and it is lost exactly when it is no longer
than the gap. A frame that was accepted without fitting does not come back at all.

`round_trip_iff` puts this together. It needs no assumption about what the calls
returned: frames that come back were all accepted.
-/

namespace LibBun

variable {h : Host}

/-! ## Lengths -/

/-- The bytes the frames take together. -/
def totalLength (frames : List BunFrame) : Nat := (frames.map BunFrame.encodedLength).sum

/-- The length of the encoding of a frame, from what a caller can see of it. -/
def FrameContent.length (c : FrameContent) : Nat :=
  28 + c.symbol.length + c.filename.length + registerSize * c.registers.length

theorem BunFrame.length_content (f : BunFrame) : (f.content h).length = f.encodedLength := by
  rw [FrameContent.length, content, encodedLength]
  simp only [List.length_map, List.length_range]

theorem Record.length_content (rec : Record) : (rec.content h).length = rec.length := by
  rw [FrameContent.length, content, Record.length]
  simp only [List.length_map, List.length_range]

/-- Records that say what the frames say take as many bytes. -/
theorem length_encodeAll_of_content {rs : List Record} {frames : List BunFrame}
    (hc : rs.map (Record.content h) = frames.map (BunFrame.content h)) :
    (frameCodec.encodeAll rs).length = totalLength frames := by
  induction rs generalizing frames with
  | nil =>
      rw [List.map_nil, eq_comm, List.map_eq_nil_iff] at hc
      subst hc
      rfl
  | cons rec rs ih =>
      obtain ⟨f, fs, rfl, hf, hfs⟩ := List.map_eq_cons_iff.mp hc.symm
      have hlen : f.encodedLength = rec.length := by
        rw [← f.length_content (h := h), hf, rec.length_content]
      rw [Codec.encodeAll, List.length_append, ih hfs.symm, rec.length_encode, ← hlen]
      rfl

/-! ## A run of frames that fit -/

theorem sameOn_writeFrames {s : WriterState} {off : Nat} (hs : WriterAt h s off)
    (frames : List BunFrame) :
    Region.SameOn 0 HeaderField.size.start s.mem.bytes (writeFrames h s frames).2.mem.bytes := by
  rw [writeFrames_state]
  induction frames generalizing s off with
  | nil => exact Region.SameOn.refl _ _ _
  | cons f fs ih =>
      obtain ⟨off', _, hs'⟩ := hs.frameStep f
      exact (sameOn_frameStep hs f).trans (ih hs')

/-- **Frames that fit are all written whole**, and the size falls behind by the shortfall each. -/
theorem Live.run {s : WriterState} {rs : List Record} (hl : Live h s rs)
    (hsmall : s.mem.bytes.length < 2 ^ 32) {frames : List BunFrame}
    (hwf : ∀ f ∈ frames, f.WellFormed h)
    (hfit : streamEnd rs + totalLength frames ≤ s.mem.bytes.length) :
    ∃ new, Live h (writeFrames h s frames).2 (rs ++ new)
      ∧ new.map (Record.content h) = frames.map (BunFrame.content h)
      ∧ HeaderField.size.get (writeFrames h s frames).2.mem.bytes 0 + h.shortfall * frames.length
        = HeaderField.size.get s.mem.bytes 0 + totalLength frames := by
  rw [writeFrames_state]
  induction frames generalizing s rs with
  | nil => exact ⟨[], by rwa [List.append_nil], rfl, rfl⟩
  | cons f fs ih =>
      have hf := hwf f (List.mem_cons_self ..)
      have htotal : totalLength (f :: fs) = f.encodedLength + totalLength fs := rfl
      have hend : streamEnd (rs ++ [f.record hf]) = streamEnd rs + f.encodedLength := by
        rw [streamEnd_append, f.length_record hf]
      have hlen := (sameOn_frameStep hl.at_ f).1
      obtain ⟨_, hw, hemit, _⟩ := emitted_of_fits hl.at_ hf (by omega)
      obtain ⟨new, hl', hnew, hsize⟩ := ih (hl.frameStep hf (by omega)) (by omega)
        (fun g hg => hwf g (List.mem_cons_of_mem _ hg)) (by omega)
      have hstep : HeaderField.size.get (LibBun.frameStep h s f).mem.bytes 0 + h.shortfall
          = HeaderField.size.get s.mem.bytes 0 + f.encodedLength := by
        have := hl.size_le
        rw [hemit.size, Nat.mod_eq_of_lt (by omega)]
        omega
      refine ⟨f.record hf :: new, ?_, ?_, ?_⟩
      · rw [List.append_assoc] at hl'
        exact hl'
      · rw [List.map_cons, List.map_cons, hnew, f.content_record hf]
      · rw [List.foldl_cons, List.length_cons, Nat.mul_succ, htotal]
        omega

/-! ## Reading it back -/

/--
A fresh reader opens the payload `m` and goes through frames that say what `frames`
say, one for each and in their order; the call after the last returns false.
-/
def RoundTrips (h : Host) (buf : BunBuffer h) (m : List UInt8) (frames : List BunFrame) : Prop :=
  ∃ hm : m.length = buf.payload.length, ∀ r₀ handle f₀, ∃ r frames',
    bunReaderInit r₀ (buf.withPayload m hm) handle = some (true, r)
      ∧ readFrames h m (frames.length + 1) r f₀ = some frames'
      ∧ frames'.map (BunFrame.content h) = frames.map (BunFrame.content h)

/--
When frames come back: they all fit, and the gap between the declared size and the
end of the stream is shorter than the last of them.
-/
def ComesBack (h : Host) (buf : BunBuffer h) (frames : List BunFrame) : Prop :=
  headerSize + totalLength frames ≤ buf.payload.length
    ∧ ∀ last ∈ frames.getLast?, h.shortfall * frames.length < last.encodedLength

/-- What is read is the walk over the stream, and no call is made after the one that ends it. -/
theorem roundTrips_iff_collect {buf : BunBuffer h} {m : List UInt8} {frames : List BunFrame}
    (hm : m.length = buf.payload.length) (hbuf : bunBufferPayloadHeaderSize ≤ buf.size)
    (hmagic : HeaderField.magic.get m 0 = bunHeaderMagic) :
    RoundTrips h buf m frames ↔
      (frameCodec.collect (gate h (HeaderField.size.get m 0)) (m.length / 28 + frames.length + 1)
        headerSize (m.drop headerSize)).map (Record.content h)
          = frames.map (BunFrame.content h) := by
  have hbuf' : bunBufferPayloadHeaderSize ≤ (buf.withPayload m hm).size := hbuf
  have hopen : ∀ r₀ handle, ∃ r, bunReaderInit r₀ (buf.withPayload m hm) handle = some (true, r) :=
    bunReaderInit_of_magic hbuf' hmagic
  have hwalk : ∀ {r₀ handle r}, bunReaderInit r₀ (buf.withPayload m hm) handle = some (true, r) →
      ∀ f₀, ∃ frames', readFrames h m (m.length / 28 + frames.length + 1) r f₀ = some frames'
        ∧ frames'.map (BunFrame.content h)
          = (frameCodec.collect (gate h (HeaderField.size.get m 0))
            (m.length / 28 + frames.length + 1) headerSize (m.drop headerSize)).map
              (Record.content h) := by
    intro r₀ handle r hr f₀
    obtain ⟨hat, hov, _⟩ := bunReaderInit_at hr
    have hcalls : (m.length - headerSize) / 28 < m.length / 28 + frames.length + 1 := by
      have := Nat.div_le_div_right (c := 28) (Nat.sub_le m.length headerSize)
      omega
    exact readFrames_content hat hat.off_le hov f₀ hcalls
  constructor
  · rintro ⟨_, hrt⟩
    obtain ⟨r, frames', hr, hread, hcontent⟩ := hrt unopenedReader none BunFrame.zero
    obtain ⟨frames'', hread'', hmap⟩ := hwalk hr BunFrame.zero
    have hlen : frames'.length = frames.length := by
      have := congrArg List.length hcontent
      rwa [List.length_map, List.length_map] at this
    have hlt : frames'.length < m.length / 28 + frames.length + 1 := by omega
    have hsame := readFrames_of_length_lt hread hlt
    rw [hread''] at hsame
    rw [← hmap, Option.some.inj hsame, hcontent]
  · intro hcollect
    refine ⟨hm, fun r₀ handle f₀ => ?_⟩
    obtain ⟨r, hr⟩ := hopen r₀ handle
    obtain ⟨frames', hread, hmap⟩ := hwalk hr f₀
    have hcontent := hmap.trans hcollect
    have hlen : frames'.length = frames.length := by
      have := congrArg List.length hcontent
      rwa [List.length_map, List.length_map] at this
    exact ⟨r, frames', hr, readFrames_of_length_lt hread (by omega), hcontent⟩

/-- The last record takes no more bytes than the records from any one on. -/
theorem length_last_le {rs : List Record} {rec : Record} (hlast : rec ∈ rs.getLast?) :
    rec.length ≤ (frameCodec.encodeAll rs).length := by
  obtain ⟨init, rfl⟩ := List.getLast?_eq_some_iff.mp hlast
  rw [frameCodec.encodeAll_append, List.length_append, Codec.encodeAll, Codec.encodeAll,
    List.append_nil, rec.length_encode]
  exact Nat.le_add_left _ _

/--
**A live stream is walked to its end** exactly when the last record starts in the
declared size.
-/
theorem Live.collect_eq_iff {s : WriterState} {rs : List Record} (hl : Live h s rs) {fuel : Nat}
    (hfuel : rs.length ≤ fuel) :
    frameCodec.collect (gate h (HeaderField.size.get s.mem.bytes 0)) fuel headerSize
        (s.mem.bytes.drop headerSize) = rs ↔
      ∀ last ∈ rs.getLast?,
        streamEnd rs < HeaderField.size.get s.mem.bytes 0 + last.length := by
  have hsize := hl.size_le
  have hend : streamEnd rs ≤ h.ptrdiffMax := hl.inside.trans hl.at_.mem_le
  have hlt : HeaderField.size.get s.mem.bytes 0 < 2 ^ 32 := HeaderField.size.get_lt _ _
  constructor
  · intro hcollect last hlast
    obtain ⟨init, rfl⟩ := List.getLast?_eq_some_iff.mp hlast
    have hopen := (frameCodec.collect_sound (gate h (HeaderField.size.get s.mem.bytes 0)) fuel
      headerSize (s.mem.bytes.drop headerSize)).choose_spec.2
    rw [hcollect, Codec.openAt_append] at hopen
    have hgate := hopen.2.1
    rw [streamEnd_append] at hend ⊢
    rw [gate_eq_true_iff (by rw [streamEnd] at hend; omega) hlt] at hgate
    rw [streamEnd]
    omega
  · intro hlast
    have hstops := (hl.readable (Region.SameOn.refl 0 (streamEnd rs) s.mem.bytes)
      (Int.le_refl _)).stops
    rw [hl.stream]
    refine Codec.collect_eq (Codec.openAt_of_cuts fun xs a ys hsplit => ?_) hstops hfuel
    obtain ⟨last, hl'⟩ : ∃ last, (a :: ys).getLast? = some last :=
      ⟨_, List.getLast?_eq_some_getLast (List.cons_ne_nil a ys)⟩
    have hle := length_last_le hl'
    have hmem : last ∈ rs.getLast? := by
      rw [hsplit, List.getLast?_append, hl']
      rfl
    have hshort := hlast last hmem
    rw [streamEnd, hsplit, frameCodec.encodeAll_append, List.length_append] at hshort hend hsize
    rw [gate_eq_true_iff (by omega) hlt]
    omega

/-- Records that say what the frames say end in one of the same length. -/
theorem forall_last_iff {rs : List Record} {frames : List BunFrame}
    (hc : rs.map (Record.content h) = frames.map (BunFrame.content h)) (P : Nat → Prop) :
    (∀ last ∈ rs.getLast?, P last.length) ↔ ∀ last ∈ frames.getLast?, P last.encodedLength := by
  have hlast := congrArg List.getLast? hc
  rw [List.getLast?_map, List.getLast?_map] at hlast
  cases hr : rs.getLast? <;> cases hf : frames.getLast? <;> rw [hr, hf] at hlast
  · simp
  · exact absurd hlast (by simp)
  · exact absurd hlast (by simp)
  · rename_i rec f
    have hlen : rec.length = f.encodedLength := by
      rw [← rec.length_content (h := h), ← f.length_content (h := h), Option.some.inj hlast]
    simp [hlen]

/-- **A live stream comes back** exactly when its last record starts in the declared size. -/
theorem Live.roundTrips_iff {s : WriterState} {rs : List Record} (hl : Live h s rs)
    {buf : BunBuffer h} (hlen : s.mem.bytes.length = buf.payload.length)
    (hbuf : bunBufferPayloadHeaderSize ≤ buf.size) {frames : List BunFrame}
    (hrs : rs.map (Record.content h) = frames.map (BunFrame.content h)) :
    RoundTrips h buf s.mem.bytes frames ↔ ∀ last ∈ frames.getLast?,
      streamEnd rs < HeaderField.size.get s.mem.bytes 0 + last.encodedLength := by
  have hnum : rs.length = frames.length := by
    have := congrArg List.length hrs
    rwa [List.length_map, List.length_map] at this
  have hfuel : rs.length ≤ s.mem.bytes.length / 28 + frames.length + 1 := by omega
  have hstops := (hl.readable (Region.SameOn.refl 0 (streamEnd rs) _) (Int.le_refl _)).stops
  have hprefix : frameCodec.collect (gate h (HeaderField.size.get s.mem.bytes 0))
      (s.mem.bytes.length / 28 + frames.length + 1) headerSize (s.mem.bytes.drop headerSize)
        <+: rs := by
    rw [hl.stream]
    exact Codec.collect_prefix hstops _
  rw [roundTrips_iff_collect hlen hbuf hl.magic, ← forall_last_iff hrs
    (fun n => streamEnd rs < HeaderField.size.get s.mem.bytes 0 + n), ← hl.collect_eq_iff hfuel]
  constructor
  · intro hcollect
    -- a prefix of the right length is all there is
    refine hprefix.eq_of_length ?_
    have := congrArg List.length hcollect
    rw [List.length_map, List.length_map] at this
    rw [this, hnum]
  · intro hall
    rw [hall, hrs]

/-- What comes back fitted. -/
theorem RoundTrips.fits {buf : BunBuffer h} {m : List UInt8} {frames : List BunFrame}
    (hrt : RoundTrips h buf m frames) (hbuf : bunBufferPayloadHeaderSize ≤ buf.size)
    (hmagic : HeaderField.magic.get m 0 = bunHeaderMagic) :
    headerSize + totalLength frames ≤ buf.payload.length := by
  obtain ⟨hlen, _⟩ := id hrt
  have hcollect := (roundTrips_iff_collect hlen hbuf hmagic).mp hrt
  obtain ⟨tail, hstream, _⟩ := frameCodec.collect_sound (gate h (HeaderField.size.get m 0))
    (m.length / 28 + frames.length + 1) headerSize (m.drop headerSize)
  have hbytes := congrArg List.length hstream
  rw [List.length_append, length_encodeAll_of_content hcollect, List.length_drop, hlen] at hbytes
  have hhead := (buf.payload_room hbuf).1
  omega

/--
**Frames that were written come back exactly when they all fit and the last one is
longer than the gap.** The gap is the shortfall of the estimate, two bytes or ten,
once for every frame.
-/
theorem round_trip_iff {data : CObject h} {buf buf' : BunBuffer h}
    (hbuf : bunBufferInit data = some buf) {handles : HandleRef → BunHandle} {tid : UInt32}
    {w₀ w : BunWriter} {arch : BunArchitecture} {handle : Option HandleRef}
    (hinit : bunWriterInit handles tid w₀ buf arch handle = (true, w, buf'))
    (hsmall : buf'.payload.length < 2 ^ 32) {frames : List BunFrame}
    (hwf : ∀ f ∈ frames, f.WellFormed h) :
    RoundTrips h buf' (writeFrames h ⟨w, buf'.memory⟩ frames).2.mem.bytes frames ↔
      ComesBack h buf' frames := by
  have hlive := Live.start (bunBufferInit_size hbuf) hinit
  have hroom : bunBufferPayloadHeaderSize ≤ buf'.size := by
    obtain ⟨_, hsize, _⟩ := bunWriterInit_eq_true hinit
    rw [hsize]
    exact bunBufferInit_size hbuf
  have hsize₀ : HeaderField.size.get buf'.payload 0 = headerSize :=
    (bunWriterInit_at (bunBufferInit_size hbuf) hinit).2.2.2
  have hfront := sameOn_writeFrames hlive.at_ frames
  have hmagic := hlive.magic
  rw [← HeaderField.get_of_sameOn hfront (Nat.zero_le _) (by decide) (by decide)
    hlive.at_.head] at hmagic
  -- with frames that fit, the stream is live and the gap is known
  have hfits : headerSize + totalLength frames ≤ buf'.payload.length →
      (RoundTrips h buf' (writeFrames h ⟨w, buf'.memory⟩ frames).2.mem.bytes frames ↔
        ∀ last ∈ frames.getLast?, h.shortfall * frames.length < last.encodedLength) := by
    intro hfit
    obtain ⟨rs, hl, hrs, hsize⟩ := hlive.run hsmall hwf hfit
    have hend : streamEnd rs = HeaderField.size.get
        (writeFrames h ⟨w, buf'.memory⟩ frames).2.mem.bytes 0 + h.shortfall * frames.length := by
      rw [streamEnd, length_encodeAll_of_content hrs, hsize]
      exact congrArg (· + totalLength frames) hsize₀.symm
    rw [List.nil_append] at hl
    rw [hl.roundTrips_iff hfront.1.symm hroom hrs, hend]
    simp only [Nat.add_lt_add_iff_left]
  constructor
  · intro hrt
    have hfit := hrt.fits hroom hmagic
    exact ⟨hfit, (hfits hfit).mp hrt⟩
  · rintro ⟨hfit, hlast⟩
    exact (hfits hfit).mpr hlast

/-- Two frames in ample room come back. -/
theorem round_trip_twoFrames :
    ∃ buf buf' w, bunBufferInit (zeroedObject ⟨.w64, .little⟩ 150 (by decide)) = some buf
      ∧ bunWriterInit (fun _ => ⟨0⟩) 7 unopenedWriter buf .x86_64 none = (true, w, buf')
      ∧ RoundTrips ⟨.w64, .little⟩ buf'
        (writeFrames ⟨.w64, .little⟩ ⟨w, buf'.memory⟩ [mainFrame, leafFrame]).2.mem.bytes
        [mainFrame, leafFrame] := by
  obtain ⟨buf, buf', w, hbuf, hinit, hlen⟩ :=
    exists_session ⟨.w64, .little⟩ (by decide : 150 < 2 ^ 31) (by decide)
  refine ⟨buf, buf', w, hbuf, hinit, (round_trip_iff hbuf hinit ?_
    (bothFrames_wellFormed _)).mpr ⟨?_, ?_⟩⟩
  · rw [hlen]
    decide
  · rw [hlen]
    decide
  · decide

/-- One byte short of a frame, the call returns 26 and there is nothing to read. -/
theorem round_trip_loses_frame :
    ∃ buf buf' w, bunBufferInit (zeroedObject ⟨.w64, .little⟩ 67 (by decide)) = some buf
      ∧ bunWriterInit (fun _ => ⟨0⟩) 7 unopenedWriter buf .x86_64 none = (true, w, buf')
      ∧ BunFrame.zero.WellFormed ⟨.w64, .little⟩
      ∧ (writeFrames ⟨.w64, .little⟩ ⟨w, buf'.memory⟩ [BunFrame.zero]).1 = [26]
      ∧ ¬RoundTrips ⟨.w64, .little⟩ buf'
        (writeFrames ⟨.w64, .little⟩ ⟨w, buf'.memory⟩ [BunFrame.zero]).2.mem.bytes
        [BunFrame.zero] := by
  have hopen : ∃ buf buf' w, bunBufferInit (zeroedObject ⟨.w64, .little⟩ 67 (by decide)) = some buf
      ∧ bunWriterInit (fun _ => ⟨0⟩) 7 unopenedWriter buf .x86_64 none = (true, w, buf')
      ∧ (writeFrames ⟨.w64, .little⟩ ⟨w, buf'.memory⟩ [BunFrame.zero]).1 = [26]
      ∧ (∃ hm, bunReaderInit unopenedReader
          (buf'.withPayload (writeFrames ⟨.w64, .little⟩ ⟨w, buf'.memory⟩
            [BunFrame.zero]).2.mem.bytes hm) none = some (true, openedReader 51))
      ∧ readFrames ⟨.w64, .little⟩ (writeFrames ⟨.w64, .little⟩ ⟨w, buf'.memory⟩
          [BunFrame.zero]).2.mem.bytes 2 (openedReader 51) BunFrame.zero = some [] :=
    ⟨_, _, _, rfl, rfl, by decide +kernel, ⟨by decide +kernel, by decide +kernel⟩,
      by decide +kernel⟩
  obtain ⟨buf, buf', w, hbuf, hinit, hret, ⟨_, hread⟩, hnone⟩ := hopen
  refine ⟨buf, buf', w, hbuf, hinit, BunFrame.zero_wellFormed _, hret, ?_⟩
  rintro ⟨_, hrt⟩
  obtain ⟨r, frames, hread', hframes, hc⟩ := hrt unopenedReader none BunFrame.zero
  rw [hread] at hread'
  obtain rfl : openedReader 51 = r := (Prod.mk.inj (Option.some.inj hread')).2
  have hsame := hnone.symm.trans hframes
  rw [← Option.some.inj hsame] at hc
  exact absurd hc (by simp)

end LibBun
