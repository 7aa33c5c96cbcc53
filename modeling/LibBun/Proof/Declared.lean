import LibBun.Proof.Live
import LibBun.Proof.ReaderRun

/-!
# The declared end of the stream

The header says where the stream ends, and `bun_frame_read` looks at it once, when a
frame starts. From there on it goes by the size of the whole payload. A frame that
starts inside the declared stream may therefore end outside, and then some of it is
made of whatever lies behind: of an earlier session, or of nothing in particular.

Which payloads can do this is a matter of the bytes alone. Lay records end to end from
the header on, as many as the payload has; if one of them has the declared end in its
middle, the reader returns it, and otherwise no frame it returns goes beyond.
-/

namespace LibBun

variable {h : Host} {mem : List UInt8} {r r₀ : BunReader}

/-- The frame came from the first `size` bytes of the payload and from no others. -/
structure WithinStream (h : Host) (mem : List UInt8) (size : Nat) (r r' : BunReader)
    (f f' : BunFrame) : Prop where
  cursor : r'.data.cursor - r'.data.buffer ≤ size
  symbol : ∃ p, f'.symbol = some p ∧ p.addr + p.str.1.length < size
  filename : ∃ p, f'.filename = some p ∧ p.addr + p.str.1.length < size
  registers : 0 < f'.registerCount →
    ∃ p, f'.registerData = some p ∧ p.addr + registerSize * f'.registerCount ≤ size
  /-- With other bytes behind, the same call returns a frame that says the same. -/
  unaffected : ∀ mem', Region.SameOn 0 size mem mem' →
    ∃ f'', bunFrameRead h mem' r f = some (true, r', f'') ∧ f''.content h = f'.content h

/-- No call in any run of a reader returns a frame from beyond the declared end. -/
def StaysInStream (h : Host) (mem : List UInt8) (r₀ : BunReader) : Prop :=
  ∀ bs r f r' f', ReaderRun h mem r₀ bs r → bunFrameRead h mem r f = some (true, r', f') →
    WithinStream h mem (HeaderField.size.get mem 0) r r' f f'

/-- Of the records laid end to end behind the header, one has the declared end in its middle. -/
def CutFrame (mem : List UInt8) : Prop :=
  ∃ rs rec, frameCodec.encodeAll (rs ++ [rec]) <+: mem.drop headerSize
    ∧ streamEnd rs < HeaderField.size.get mem 0
    ∧ HeaderField.size.get mem 0 < streamEnd (rs ++ [rec])

/-! ## Runs and records -/

/-- What follows a row of records in the payload. -/
theorem drop_streamEnd {rs : List Record} {tail : List UInt8}
    (hrs : frameCodec.encodeAll rs ++ tail = mem.drop headerSize) :
    mem.drop (streamEnd rs) = tail := by
  rw [streamEnd, ← List.drop_drop, ← hrs, List.drop_left]

theorem prefix_concat {rs : List Record} (hrs : frameCodec.encodeAll rs <+: mem.drop headerSize)
    {rec : Record} {rest : List UInt8}
    (hdec : frameCodec.decode (mem.drop (streamEnd rs)) = some (rec, rest)) :
    frameCodec.encodeAll (rs ++ [rec]) <+: mem.drop headerSize := by
  obtain ⟨tail, htail⟩ := hrs
  rw [drop_streamEnd htail] at hdec
  refine ⟨rest, ?_⟩
  rw [frameCodec.encodeAll_append, Codec.encodeAll, Codec.encodeAll, List.append_nil,
    List.append_assoc, ← frameCodec.decode_sound hdec, htail]

theorem prefix_of_concat {rs : List Record} {rec : Record}
    (hrs : frameCodec.encodeAll (rs ++ [rec]) <+: mem.drop headerSize) :
    frameCodec.encodeAll rs <+: mem.drop headerSize
      ∧ ∃ rest, mem.drop (streamEnd rs) = frameCodec.encode rec ++ rest := by
  obtain ⟨tail, htail⟩ := hrs
  rw [frameCodec.encodeAll_append, List.append_assoc] at htail
  refine ⟨⟨_, htail⟩, tail, ?_⟩
  rw [drop_streamEnd htail, Codec.encodeAll, Codec.encodeAll, List.append_nil]

/-- A run goes from one record to the next. -/
theorem records_of_run (h₀ : ReaderAt h mem r₀ headerSize) {bs : List Bool}
    (hrun : ReaderRun h mem r₀ bs r) :
    ∃ rs, frameCodec.encodeAll rs <+: mem.drop headerSize ∧ ReaderAt h mem r (streamEnd rs) := by
  induction hrun with
  | start => exact ⟨[], List.nil_prefix, h₀⟩
  | @call bs r r' b f f' _ hcall ih =>
      obtain ⟨rs, hrs, hr⟩ := ih
      rcases bunFrameRead_cases hr h₀.off_le f with ⟨heq, _⟩ | ⟨f₁, heq, _⟩ |
        ⟨rec, rest, hdec, _, _, heq⟩ <;>
        rw [heq] at hcall <;>
        simp only [Option.some.injEq, Prod.mk.injEq] at hcall <;>
        obtain ⟨_, rfl, _⟩ := hcall
      · exact ⟨rs, hrs, hr⟩
      · exact ⟨rs, hrs, hr.setOverflow⟩
      · refine ⟨rs ++ [rec], prefix_concat hrs hdec, ?_⟩
        rw [streamEnd_append]
        exact hr.advance (Record.end_le (frameCodec.decode_sound hdec))

/-- A record that starts before the declared end is the next to be returned. -/
theorem follows_of_record {off : Nat} (hr : ReaderAt h mem r off) (hov : r.data.overflow = false)
    (hsize : HeaderField.size.get mem 0 ≤ mem.length) (hlt : off < HeaderField.size.get mem 0)
    {rec : Record} {rest : List UInt8} (hdec : mem.drop off = frameCodec.encode rec ++ rest) :
    Follows h mem r off rec := by
  have hmem := hr.mem_le
  refine ⟨hov, ?_, rest, by rw [hdec, frameCodec.decode_encode]⟩
  exact (gate_eq_true_iff (hr.off_le.trans hmem) (HeaderField.size.get_lt _ _)).mpr
    ⟨hlt, by omega⟩

/-- As long as they start before the declared end, a run gets to each record. -/
theorem run_of_records (h₀ : ReaderAt h mem r₀ headerSize) (hov : r₀.data.overflow = false)
    (hsize : HeaderField.size.get mem 0 ≤ mem.length) {rs : List Record}
    (hrs : frameCodec.encodeAll rs <+: mem.drop headerSize)
    (hend : streamEnd rs ≤ HeaderField.size.get mem 0) :
    ∃ bs r, ReaderRun h mem r₀ bs r ∧ ReaderAt h mem r (streamEnd rs)
      ∧ r.data.overflow = false := by
  induction rs using List.reverseRecOn with
  | nil => exact ⟨[], r₀, ReaderRun.start, h₀, hov⟩
  | append_singleton rs rec ih =>
      have hge := rec.length_ge
      rw [streamEnd_append] at hend
      obtain ⟨hfront, rest, hdec⟩ := prefix_of_concat hrs
      obtain ⟨bs, r, hrun, hr, hclear⟩ := ih hfront (by omega)
      have hnext := follows_of_record hr hclear hsize (by omega) hdec
      refine ⟨_, _, hrun.call (hnext.read hr h₀.off_le BunFrame.zero), ?_, hclear⟩
      rw [streamEnd_append]
      exact hr.advance (by omega)

/-! ## The declared end -/

/-- A record that ends before the declared end is returned from inside. -/
theorem withinStream_of_follows {off : Nat} (hr : ReaderAt h mem r off)
    (hhead : headerSize ≤ mem.length) (hsize : HeaderField.size.get mem 0 ≤ mem.length)
    {rec : Record} (hrec : Follows h mem r off rec)
    (hend : off + rec.length ≤ HeaderField.size.get mem 0) (f : BunFrame) :
    WithinStream h mem (HeaderField.size.get mem 0) r (r.advance rec.length) f
      (deliver h mem off f rec) := by
  have hlen : rec.length = 28 + rec.symbol.1.length + rec.filename.1.length
    + registerSize * rec.registers.1 := rfl
  obtain ⟨rest, hdec⟩ := hrec.decoded
  have hdec := frameCodec.decode_sound hdec
  refine ⟨?_, ⟨_, rfl, ?_⟩, ⟨_, rfl, ?_⟩, fun hn => ?_, fun mem' hsame => ?_⟩
  · show r.data.cursor + rec.length - r.data.buffer ≤ _
    rw [hr.cursor, hr.buffer]
    omega
  · show ((off + 24 : Nat) : Int) + rec.symbol.1.length < _
    omega
  · show ((off + 24 + rec.symbol.1.length + 1 : Nat) : Int) + rec.filename.1.length < _
    omega
  · have hn : 0 < rec.registers.1.1 := hn
    refine ⟨_, by simp only [deliver, if_pos hn]; rfl, ?_⟩
    show ((off + 24 + rec.symbol.1.length + 1 + rec.filename.1.length + 3 : Nat) : Int)
      + registerSize * rec.registers.1.1 ≤ _
    push_cast
    omega
  · -- with other bytes behind, the record is still there to be decoded
    have hge := rec.length_ge
    have hfield : HeaderField.size.get mem' 0 = HeaderField.size.get mem 0 :=
      HeaderField.get_of_sameOn hsame (Nat.zero_le _)
        ((Int.ofNat_le.mpr (by decide : _ ≤ 28)).trans (by omega)) (by decide) hhead
    have hr' : ReaderAt h mem' r off :=
      ⟨hr.buffer, hsame.1 ▸ hr.size, hr.cursor, hsame.1 ▸ hr.off_le, hsame.1 ▸ hr.mem_le⟩
    have hdec' : mem'.drop off
        = frameCodec.encode rec ++ mem'.drop (off + (frameCodec.encode rec).length) := by
      refine (hsame.mono (Nat.zero_le off) (Int.le_refl _)).drop_append ?_ ?_
      · rw [← List.drop_drop, hdec, List.drop_left]
      · rw [Record.length_encode]
        omega
    have hnext := follows_of_record hr' hrec.clear (by rw [hfield, ← hsame.1]; exact hsize)
      (by rw [hfield]; omega) hdec'
    refine ⟨_, hnext.read hr' (hsame.1 ▸ hhead) f, ?_⟩
    rw [content_deliver hdec', content_deliver hdec]

/--
**A reader stays inside the declared stream exactly if no record straddles its end.**
The payload is any on which a reader opens, with a declared size that is not more than
it has; the runs are all there are.
-/
theorem stays_in_stream_iff {buf : BunBuffer h} {handle : Option HandleRef}
    (hopen : bunReaderInit r₀ buf handle = some (true, r))
    (hsize : HeaderField.size.get buf.payload 0 ≤ r.data.size) :
    StaysInStream h buf.payload r ↔ ¬CutFrame buf.payload := by
  obtain ⟨h₀, hov, _⟩ := bunReaderInit_at hopen
  rw [h₀.size] at hsize
  constructor
  · -- a run gets to the record, and the call after it moves the cursor beyond the end
    rintro hin ⟨rs, rec, hrs, hlt, hcut⟩
    obtain ⟨hfront, rest, hdec⟩ := prefix_of_concat hrs
    obtain ⟨bs, r', hrun, hr, hclear⟩ := run_of_records h₀ hov hsize hfront (Nat.le_of_lt hlt)
    have hnext := follows_of_record hr hclear hsize hlt hdec
    have hcursor := (hin bs r' BunFrame.zero _ _ hrun (hnext.read hr h₀.off_le _)).cursor
    have hadv : (r'.advance rec.length).data.cursor - (r'.advance rec.length).data.buffer
        = (r'.data.cursor + rec.length) - r'.data.buffer := rfl
    rw [hadv, hr.cursor, hr.buffer] at hcursor
    rw [streamEnd_append] at hcut
    omega
  · -- what is returned starts before the end, and so does not end after it
    intro hwhole bs r' f r'' f' hrun hcall
    obtain ⟨rs, hrs, hr⟩ := records_of_run h₀ hrun
    obtain ⟨rec, hrec, rfl, rfl⟩ := follows_of_read hr h₀.off_le hcall
    refine withinStream_of_follows hr h₀.off_le hsize hrec (Nat.le_of_not_lt fun hcut => ?_) f
    obtain ⟨rest, hdec⟩ := hrec.decoded
    have hlt := ((gate_eq_true_iff (hr.off_le.trans hr.mem_le)
      (HeaderField.size.get_lt _ _)).mp hrec.open_).1
    exact hwhole ⟨rs, rec, prefix_concat hrs hdec, hlt, by rw [streamEnd_append]; exact hcut⟩

/-- The header declares all of the 52 bytes, so there is nothing behind. -/
theorem stays_in_stream_oneFrame :
    StaysInStream ⟨.w64, .little⟩ (oneFrameBuffer ⟨.w64, .little⟩ 52 7).payload
      (openedReader 52) := by
  have hopen : bunReaderInit unopenedReader (oneFrameBuffer ⟨.w64, .little⟩ 52 7) none
      = some (true, openedReader 52) := by rfl
  refine (stays_in_stream_iff hopen (by decide)).mpr ?_
  rintro ⟨rs, rec, hrs, _, hcut⟩
  have hlen := hrs.length_le
  have hdeclared : HeaderField.size.get (oneFrameBuffer ⟨.w64, .little⟩ 52 7).payload 0 = 52 := by
    rfl
  have hleft : ((oneFrameBuffer ⟨.w64, .little⟩ 52 7).payload.drop headerSize).length = 28 := by
    rfl
  rw [hdeclared, streamEnd, headerSize] at hcut
  omega

/--
What the library itself writes: the header declares 50 bytes, the frame ends at 52, and
the frame is read nonetheless.
-/
theorem reader_beyond_declared :
    ∃ buf buf' w, bunBufferInit (zeroedObject ⟨.w64, .little⟩ 68 (by decide)) = some buf
      ∧ bunWriterInit (fun _ => ⟨0⟩) 0 unopenedWriter buf .x86_64 none = (true, w, buf')
      ∧ (bunFrameWrite ⟨.w64, .little⟩ (bunHeaderBackendSet ⟨w, buf'.memory⟩ .libunwind)
          { BunFrame.zero with lineNo := 7 }).2.mem.bytes
        = (oneFrameBuffer ⟨.w64, .little⟩ 50 7).payload
      ∧ bunReaderInit unopenedReader (oneFrameBuffer ⟨.w64, .little⟩ 50 7) none
        = some (true, openedReader 52)
      ∧ HeaderField.size.get (oneFrameBuffer ⟨.w64, .little⟩ 50 7).payload 0 = 50
      ∧ ¬StaysInStream ⟨.w64, .little⟩ (oneFrameBuffer ⟨.w64, .little⟩ 50 7).payload
        (openedReader 52) := by
  refine ⟨_, _, _, rfl, rfl, by decide +kernel, rfl, rfl, fun hin => ?_⟩
  have hcursor := (hin [] _ BunFrame.zero _ _ ReaderRun.start rfl).cursor
  exact absurd hcursor (by decide)

end LibBun
