import LibBun.Proof.Stream
import LibBun.Proof.Writer

/-!
# A writer that has only written whole frames

As long as every accepted frame fitted, the payload behind the header is the
encodings of those frames laid end to end, and the cursor is at the end of the
last one. The size in the header lags behind the cursor, by the shortfall once for
every frame. It never runs ahead, so for a reader the gate is shut at the end of
the stream, and what is there, left over from an earlier session or half written,
is not looked at.
-/

namespace LibBun

variable {h : Host}

/-- The end of a stream of records. -/
def streamEnd (rs : List Record) : Nat := headerSize + (frameCodec.encodeAll rs).length

@[simp] theorem streamEnd_nil : streamEnd [] = headerSize := rfl

theorem streamEnd_append (rs : List Record) (rec : Record) :
    streamEnd (rs ++ [rec]) = streamEnd rs + rec.length := by
  rw [streamEnd, streamEnd, frameCodec.encodeAll_append, List.length_append, Codec.encodeAll,
    Codec.encodeAll, List.append_nil, Record.length_encode, Nat.add_assoc]

/-! ## Memory that can be read -/

/-- Memory in which a reader finds some of the records, from the first on, and nothing else. -/
structure Readable (h : Host) (m : List UInt8) (rs : List Record) : Prop where
  magic : HeaderField.magic.get m 0 = bunHeaderMagic
  stream : m.drop headerSize = frameCodec.encodeAll rs ++ m.drop (streamEnd rs)
  /-- Behind the records the walk ends. -/
  stops : frameCodec.Stops (gate h (HeaderField.size.get m 0)) (streamEnd rs)
    (m.drop (streamEnd rs))

/-- **What a fresh reader gets out of readable memory is a prefix of the records.** -/
theorem Readable.read {buf : BunBuffer h} {rs : List Record} (hm : Readable h buf.payload rs)
    (hbuf : bunBufferPayloadHeaderSize ≤ buf.size) (r₀ : BunReader) (handle : Option HandleRef)
    (f₀ : BunFrame) {fuel : Nat} (hfuel : buf.payload.length / 28 < fuel) :
    ∃ r frames, bunReaderInit r₀ buf handle = some (true, r)
      ∧ readFrames h buf.payload fuel r f₀ = some frames
      ∧ frames.map (BunFrame.content h) <+: rs.map (Record.content h) := by
  obtain ⟨r, hinit⟩ := bunReaderInit_of_magic hbuf hm.magic r₀ handle
  obtain ⟨hr, hov, _⟩ := bunReaderInit_at hinit
  have hcalls : (buf.payload.length - headerSize) / 28 < fuel :=
    lt_of_le_of_lt (Nat.div_le_div_right (Nat.sub_le _ _)) hfuel
  obtain ⟨frames, hread, hmap⟩ := readFrames_content hr hr.off_le hov f₀ hcalls
  refine ⟨r, frames, hinit, hread, ?_⟩
  rw [hmap, hm.stream]
  exact (Codec.collect_prefix hm.stops fuel).map _

/-! ## The invariant -/

/-- The writer has written the records, whole, and nothing else. -/
structure Live (h : Host) (s : WriterState) (rs : List Record) : Prop where
  at_ : WriterAt h s (streamEnd rs)
  inside : streamEnd rs ≤ s.mem.bytes.length
  /-- No integer was left out. -/
  clear : s.writer.data.overflow = false
  magic : HeaderField.magic.get s.mem.bytes 0 = bunHeaderMagic
  stream : s.mem.bytes.drop headerSize
    = frameCodec.encodeAll rs ++ s.mem.bytes.drop (streamEnd rs)
  /-- The declared size is not ahead of the stream. -/
  size_le : HeaderField.size.get s.mem.bytes 0 ≤ streamEnd rs

namespace Live

variable {s : WriterState} {rs : List Record}

theorem start {handles : HandleRef → BunHandle} {tid : UInt32} {w₀ w : BunWriter}
    {buf buf' : BunBuffer h} {arch : BunArchitecture} {handle : Option HandleRef}
    (hbuf : bunBufferPayloadHeaderSize ≤ buf.size)
    (hinit : bunWriterInit handles tid w₀ buf arch handle = (true, w, buf')) :
    Live h ⟨w, buf'.memory⟩ [] := by
  obtain ⟨hs, hov, hmagic, hsize⟩ := bunWriterInit_at hbuf hinit
  exact ⟨hs, hs.head, hov, hmagic, rfl, Nat.le_of_eq hsize⟩

/-- The gate is shut at the end of the stream, whatever the memory behind it holds. -/
theorem readable (hl : Live h s rs) {m : List UInt8} {hi : Int}
    (hm : Region.SameOn 0 hi s.mem.bytes m) (hhi : (streamEnd rs : Int) ≤ hi) :
    Readable h m rs := by
  have hhead := hl.at_.head
  have hstart := hl.at_.start
  have hsame : ∀ f : HeaderField, f.start + f.width ≤ headerSize →
      f.get m 0 = f.get s.mem.bytes 0 := fun f hf =>
    HeaderField.get_of_sameOn hm (Nat.zero_le _) (by omega) hf hhead
  refine ⟨?_, (hm.mono (Nat.zero_le headerSize) (Int.le_refl _)).drop_append hl.stream hhi, ?_⟩
  · rw [hsame _ (by decide)]
    exact hl.magic
  · rw [hsame _ (by decide)]
    exact Or.inl (gate_eq_false (hl.inside.trans hl.at_.mem_le) (HeaderField.size.get_lt _ _)
      hl.size_le)

/-- A call that is not an accepted frame leaves a live writer live. -/
theorem setField (hl : Live h s rs) (f : HeaderField) (v : Nat)
    (hstart : HeaderField.size.start + HeaderField.size.width ≤ f.start)
    (hwidth : f.start + f.width ≤ headerSize) : Live h (s.setField f v) rs := by
  have hmem := hl.at_.mem_setField f v
  have hlen := s.length_setField f v
  refine ⟨hl.at_.setField f v, hlen ▸ hl.inside, hl.clear, ?_, ?_, ?_⟩
  · rw [hmem, HeaderField.get_setField_of_disjoint _ (by decide) hl.at_.head v
      (Or.inl (le_trans (by decide) hstart))]
    exact hl.magic
  · rw [hmem]
    exact (s.mem.sameOn_setField v (streamEnd rs) hwidth).drop_append hl.stream (Int.le_refl _)
  · rw [hmem, HeaderField.get_setField_of_disjoint _ (by decide) hl.at_.head v (Or.inl hstart)]
    exact hl.size_le

/-- **A frame that fits is one more record.** -/
theorem frameStep (hl : Live h s rs) {f : BunFrame} (hf : f.WellFormed h)
    (hfit : streamEnd rs + f.encodedLength ≤ s.mem.bytes.length) :
    Live h (frameStep h s f) (rs ++ [f.record hf]) := by
  obtain ⟨_, hw, hemit, hclear⟩ := emitted_of_fits hl.at_ hf hfit
  have hend : streamEnd (rs ++ [f.record hf]) = streamEnd rs + f.encodedLength := by
    rw [streamEnd_append, f.length_record hf]
  have hlen : (frameCodec.encode (f.record hf)).length = f.encodedLength := by
    rw [Record.length_encode, f.length_record hf]
  have hat := hemit.at_
  have hlast := hemit.drop_bytes hl.at_.start
  rw [hlen] at hat hlast
  rw [List.take_of_length_le (by omega)] at hlast
  have htail : (LibBun.frameStep h s f).mem.bytes.drop (streamEnd rs + f.encodedLength)
      = s.mem.bytes.drop (streamEnd rs + f.encodedLength) := by
    rw [← List.drop_drop, hlast, List.drop_left' hlen]
  refine ⟨hend ▸ hat, ?_, hclear, ?_, ?_, ?_⟩
  · rw [hend, hemit.length_bytes]
    exact hfit
  · rw [HeaderField.get_of_sameOn (hemit.sameOn_front hl.at_.start) (Nat.zero_le _)
      (Int.ofNat_le.mpr (by decide)) (by decide) hl.at_.head]
    exact hl.magic
  · have hstream := hemit.sameOn.drop_append hl.stream (Int.le_refl _)
    rw [hstream, frameCodec.encodeAll_append, hend, htail, Codec.encodeAll, Codec.encodeAll,
      List.append_nil, List.append_assoc]
    exact congrArg _ hlast
  · rw [hemit.size, hend]
    have := hl.size_le
    have := Nat.mod_le (HeaderField.size.get s.mem.bytes 0 + wouldWrite h f) (2 ^ 32)
    omega

end Live

end LibBun
