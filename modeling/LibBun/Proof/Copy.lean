import LibBun.Proof.Stream
import LibBun.Proof.Writer

/-!
# Copying a stream frame by frame

A structure that was zeroed once can be read into again and again and handed to
`bun_frame_write` each time. What makes that work is what `bun_frame_read` does not
do: it never sets the two length fields, so they are still zero and the writer
measures the strings itself. The stale register fields of a frame without registers
do no harm, because a count of zero keeps the writer away from them.

On a 64-bit host nothing is lost in the structure either, and the bytes that come
out are the bytes that went in. This holds of everything the reader accepts, not
only of what a writer produced.
-/

namespace LibBun

variable {h : Host} {mem : List UInt8} {r₀ r : BunReader} {f : BunFrame}

/-- The calls made on a reader so far, all of them into one structure that was zeroed at first. -/
inductive CopyRun (h : Host) (mem : List UInt8) (r₀ : BunReader) : BunReader → BunFrame → Prop where
  | start : CopyRun h mem r₀ r₀ BunFrame.zero
  /-- One more call, whatever it returns. -/
  | call {r r' : BunReader} {f f' : BunFrame} {b : Bool} :
      CopyRun h mem r₀ r f → bunFrameRead h mem r f = some (b, r', f') → CopyRun h mem r₀ r' f'

/-- Where the reader is, and that the lengths are still zero. -/
structure CopyInv (h : Host) (mem : List UInt8) (r : BunReader) (f : BunFrame) (off : Nat) :
    Prop where
  at_ : ReaderAt h mem r off
  symbolLength : f.symbolLength = 0
  filenameLength : f.filenameLength = 0

theorem CopyInv.call {off : Nat} (hinv : CopyInv h mem r f off) (hhead : headerSize ≤ mem.length)
    {b : Bool} {r' : BunReader} {f' : BunFrame}
    (hcall : bunFrameRead h mem r f = some (b, r', f')) : ∃ off', CopyInv h mem r' f' off' := by
  obtain ⟨hr, hs, hn⟩ := hinv
  rcases bunFrameRead_cases hr hhead f with ⟨heq, _⟩ | ⟨f₁, heq, _, hs₁, hn₁⟩ |
    ⟨rec, rest, hdec, _, _, heq⟩ <;>
    rw [heq] at hcall <;>
    simp only [Option.some.injEq, Prod.mk.injEq] at hcall <;>
    obtain ⟨rfl, rfl, rfl⟩ := hcall
  · exact ⟨off, hr, hs, hn⟩
  · exact ⟨off, hr.setOverflow, hs₁.trans hs, hn₁.trans hn⟩
  · have hfit := Record.end_le (frameCodec.decode_sound hdec)
    exact ⟨off + rec.length, hr.advance hfit, hs, hn⟩

theorem copyInv_of_run (h₀ : ReaderAt h mem r₀ headerSize) (hrun : CopyRun h mem r₀ r f) :
    ∃ off, CopyInv h mem r f off := by
  induction hrun with
  | start => exact ⟨headerSize, h₀, rfl, rfl⟩
  | call _ hcall ih =>
      obtain ⟨off, hinv⟩ := ih
      exact hinv.call h₀.off_le hcall

/-- A delivered frame with no lengths set is one the interface allows. -/
theorem deliver_wellFormed {off : Nat} {rec : Record} {rest : List UInt8}
    (hr : ReaderAt h mem r off) (hdec : mem.drop off = frameCodec.encode rec ++ rest)
    (hs : f.symbolLength = 0) (hn : f.filenameLength = 0) :
    (deliver h mem off f rec).WellFormed h := by
  have hfit := Record.end_le hdec
  rw [Record.length] at hfit
  have hmem := hr.mem_le
  refine ⟨h.toSizeT_lt rec.lineNo.toNat, h.toSizeT_lt rec.offset.toNat, ?_, ?_, Or.inl hs,
    Or.inl hn, rec.registers.1.2⟩
  · show rec.symbol.1.length < h.ptrdiffMax
    omega
  · show rec.filename.1.length < h.ptrdiffMax
    omega

/-- On a 64-bit host it is the record again. -/
theorem record_deliver (hword : h.word = .w64) {off : Nat} {rec : Record} {rest : List UInt8}
    (hdec : mem.drop off = frameCodec.encode rec ++ rest)
    (hwf : (deliver h mem off f rec).WellFormed h) :
    frameCodec.encode ((deliver h mem off f rec).record hwf) = frameCodec.encode rec := by
  have hwide : ∀ v : UInt64, LittleEndian.encode 8 (h.toSizeT (v.toNat : Int))
      = LittleEndian.encode 8 v.toNat := by
    intro v
    have hmod : h.sizeMod = 2 ^ 64 := by rw [Host.sizeMod, hword]
    have := Host.toSizeT_of_lt (h := h) (z := (v.toNat : Int)) (by omega)
      (by rw [hmod]; exact Int.ofNat_lt.mpr v.toNat_lt)
    rw [Int.ofNat_inj.mp this]
  rw [BunFrame.encode_record, Record.encode_eq, BunFrame.intBytes, BunFrame.stringBytes,
    registerBlock_deliver hdec]
  simp only [deliver, hwide, BunFrame.symbolStr, BunFrame.filenameStr, Option.map_some,
    Option.getD_some, List.append_assoc]

/--
**Copying a frame changes nothing.** On a 64-bit host, read any payload into one
structure that was zeroed once. After a call that returned true, hand the structure
to a writer in any state that has at least as many bytes left as the call consumed:
the call of `bun_frame_write` returns a size that is not zero, appends exactly the
bytes that were consumed, and leaves what was written before as it was.
-/
theorem copy_frame (hword : h.word = .w64) {src : BunBuffer h} {handle : Option HandleRef}
    (hopen : bunReaderInit r₀ src handle = some (true, r)) {r₁ r₂ : BunReader} {f₁ f₂ : BunFrame}
    (hrun : CopyRun h src.payload r r₁ f₁)
    (hread : bunFrameRead h src.payload r₁ f₁ = some (true, r₂, f₂))
    {dst dst' : BunBuffer h} (hdst : bunBufferPayloadHeaderSize ≤ dst.size)
    {handles : HandleRef → BunHandle} {tid : UInt32} {w₀ w : BunWriter} {arch : BunArchitecture}
    {handle' : Option HandleRef}
    (hinit : bunWriterInit handles tid w₀ dst arch handle' = (true, w, dst'))
    {ops : List WriterOp} {s : WriterState}
    (hs : s = ops.foldl (WriterOp.apply h) ⟨w, dst'.memory⟩)
    (hroom : s.writer.data.cursor - s.writer.data.buffer + (r₂.data.cursor - r₁.data.cursor)
      ≤ s.writer.data.size) :
    ∃ off n c : Nat, r₁.data.cursor = off ∧ r₂.data.cursor = (off + n : Nat)
      ∧ s.writer.data.cursor = c
      ∧ (bunFrameWrite h s f₂).1 ≠ 0
      ∧ (bunFrameWrite h s f₂).2.writer.data.cursor = (c + n : Nat)
      ∧ ((bunFrameWrite h s f₂).2.mem.bytes.drop c).take n = (src.payload.drop off).take n
      ∧ Region.SameOn headerSize c s.mem.bytes (bunFrameWrite h s f₂).2.mem.bytes := by
  obtain ⟨h₀, _, _⟩ := bunReaderInit_at hopen
  obtain ⟨off, hr, hsym, hfil⟩ := copyInv_of_run h₀ hrun
  obtain ⟨c, _, hat⟩ := (bunWriterInit_at hdst hinit).1.run ops
  rw [← hs] at hat
  obtain ⟨rec, ⟨_, _, rest, hdec⟩, rfl, rfl⟩ := follows_of_read hr h₀.off_le hread
  have hsound := frameCodec.decode_sound hdec
  have hwf := deliver_wellFormed hr hsound hsym hfil
  have henc := record_deliver hword hsound hwf
  have hlen : (deliver h src.payload off f₁ rec).encodedLength = rec.length := by
    rw [← BunFrame.length_record hwf, ← Record.length_encode, henc, Record.length_encode]
  have hfit : c + rec.length ≤ s.mem.bytes.length := by
    have hcur : (r₁.advance rec.length).data.cursor = r₁.data.cursor + rec.length := rfl
    rw [hcur, hat.cursor, hat.buffer, hat.size] at hroom
    omega
  have hge := rec.length_ge
  obtain ⟨hacc, hw, hemit, _⟩ := emitted_of_fits hat hwf (by rw [hlen]; exact hfit)
  have hret : (bunFrameWrite h s (deliver h src.payload off f₁ rec)).1
      = wouldWrite h (deliver h src.payload off f₁ rec) := by
    rw [bunFrameWrite_eq, if_neg hacc]
  have hshort : h.shortfall ≤ 18 := Nat.sub_le _ _
  rw [henc] at hemit
  refine ⟨off, rec.length, c, hr.cursor, ?_, hat.cursor, by rw [hret]; omega, ?_, ?_, hemit.sameOn⟩
  · show r₁.data.cursor + rec.length = ((off + rec.length : Nat) : Int)
    rw [hr.cursor]
    omega
  · have hcur := hemit.at_.cursor
    rw [Record.length_encode] at hcur
    exact hcur
  · have hdrop := hemit.drop_bytes hat.start
    rw [List.take_of_length_le (by rw [Record.length_encode]; omega)] at hdrop
    show ((frameStep h s (deliver h src.payload off f₁ rec)).mem.bytes.drop c).take _ = _
    rw [hdrop, hsound, List.take_left' rec.length_encode, List.take_left' rec.length_encode]

/-- The empty frame of a 52-byte payload is copied into exactly as much room. -/
theorem copy_oneFrame :
    ∃ dst dst' w r₂ f₂, bunBufferInit (zeroedObject ⟨.w64, .little⟩ 68 (by decide)) = some dst
      ∧ bunWriterInit (fun _ => ⟨0⟩) 7 unopenedWriter dst .x86_64 none = (true, w, dst')
      ∧ bunFrameRead ⟨.w64, .little⟩ (oneFrameBuffer ⟨.w64, .little⟩ 52 7).payload
          (openedReader 52) BunFrame.zero = some (true, r₂, f₂)
      ∧ (bunFrameWrite ⟨.w64, .little⟩ ⟨w, dst'.memory⟩ f₂).1 ≠ 0 := by
  have hsetup : ∃ dst dst' w r₂ f₂,
      bunBufferInit (zeroedObject ⟨.w64, .little⟩ 68 (by decide)) = some dst
      ∧ bunWriterInit (fun _ => ⟨0⟩) 7 unopenedWriter dst .x86_64 none = (true, w, dst')
      ∧ bunFrameRead ⟨.w64, .little⟩ (oneFrameBuffer ⟨.w64, .little⟩ 52 7).payload
          (openedReader 52) BunFrame.zero = some (true, r₂, f₂)
      ∧ w.data.cursor - w.data.buffer + (r₂.data.cursor - (openedReader 52).data.cursor)
          ≤ w.data.size := ⟨_, _, _, _, _, rfl, rfl, rfl, by decide⟩
  obtain ⟨dst, dst', w, r₂, f₂, hdst, hinit, hread, hroom⟩ := hsetup
  have hopen : bunReaderInit unopenedReader (oneFrameBuffer ⟨.w64, .little⟩ 52 7) none
      = some (true, openedReader 52) := by rfl
  have hnone : (⟨w, dst'.memory⟩ : WriterState)
      = ([] : List WriterOp).foldl (WriterOp.apply ⟨.w64, .little⟩) ⟨w, dst'.memory⟩ := rfl
  obtain ⟨_, _, _, _, _, _, hret, _⟩ := copy_frame rfl hopen CopyRun.start hread
    (bunBufferInit_size hdst) hinit hnone hroom
  exact ⟨dst, dst', w, r₂, f₂, hdst, hinit, hread, hret⟩

end LibBun
