import LibBun.Tool
import LibBun.Proof.Metadata

/-!
# A saved buffer and the parser

`parse_and_print` makes a buffer of the bytes it is given with `bun_buffer_init`, which
zeroes the prefix and the header. What it then looks for is the magic number in that
header. So nothing that was ever saved can be parsed, and there is nothing to be said
about frames.
-/

namespace LibBun

variable {h : Host}

/-- On a buffer that was just initialised no reader is opened. -/
theorem bunReaderInit_fresh {data : CObject h} {buf : BunBuffer h}
    (hbuf : bunBufferInit data = some buf) (r₀ : BunReader) (handle : Option HandleRef) :
    bunReaderInit r₀ buf handle = some (false, r₀) := by
  obtain ⟨hhead, _, hsize⟩ := buf.payload_room (bunBufferInit_size hbuf)
  obtain ⟨_, _, _, _, hpayload⟩ := bunBufferInit_eq_some hbuf
  have hzero : HeaderField.magic.read buf.payload 0 = some 0 := by
    have hfits : 0 + (List.replicate headerSize (0 : UInt8)).length
        ≤ (data.1.drop payloadOffset).length := by
      rw [hpayload, Region.length_patch] at hhead
      rw [List.length_replicate, Nat.zero_add]
      exact hhead
    have hfront := Region.drop_patch_of_fits hfits
    rw [List.drop_zero, Nat.cast_zero] at hfront
    have hcells : (buf.payload.drop HeaderField.magic.start).take HeaderField.magic.width
        = [] ++ List.replicate HeaderField.magic.width 0 := by
      rw [hpayload, hfront, HeaderField.magic, List.drop_zero, List.nil_append,
        List.take_append_of_le_length (by rw [List.length_replicate]; decide), List.take_replicate]
      rfl
    rw [HeaderField.read_eq_get (hhead.trans' (by decide)),
      HeaderField.get_of_head (by decide) hhead, hcells, LittleEndian.decode_append_zeros]
    rfl
  rw [bunReaderInit, hsize, if_neg (by omega), hzero, Option.bind_eq_bind, Option.bind_some,
    if_pos (by decide)]
  rfl

/-- Whatever the bytes are, the parser returns before it prints a frame. -/
theorem parseAndPrint_eq (reader : BunReader) (frame : BunFrame) (fuel : Nat) (data : CObject h) :
    parseAndPrint reader frame fuel data = some none := by
  unfold parseAndPrint
  cases hbuf : bunBufferInit data with
  | none => rfl
  | some buf =>
      dsimp only
      rw [bunReaderInit_fresh hbuf, Option.bind_eq_bind, Option.bind_some, if_pos rfl]
      rfl

/--
The parser, run on the saved bytes with anything in its local variables, goes through
frames that say what those say that a reader goes through on the buffer itself.
-/
def ParsesBack (buf : BunBuffer h) (reader : BunReader) (frame : BunFrame) : Prop :=
  ∃ fuel frames, parseAndPrint reader frame fuel buf.saved = some (some frames)
    ∧ ∀ r₀ handle r f₀ direct, bunReaderInit r₀ buf handle = some (true, r) →
      readFrames h buf.payload fuel r f₀ = some direct →
      frames.map (BunFrame.content h) = direct.map (BunFrame.content h)

/-- **No saved buffer can be parsed**, whoever wrote what to it. -/
theorem saved_never_parses (buf : BunBuffer h) (reader : BunReader) (frame : BunFrame) :
    ¬ParsesBack buf reader frame := by
  rintro ⟨fuel, frames, hparse, _⟩
  rw [parseAndPrint_eq] at hparse
  exact absurd hparse (by simp)

/-- One frame, which a reader on the buffer finds and the parser does not. -/
theorem saved_frame_lost :
    ∃ buf buf' w r frames, bunBufferInit (zeroedObject ⟨.w64, .little⟩ 100 (by decide)) = some buf
      ∧ bunWriterInit (fun _ => ⟨0⟩) 7 unopenedWriter buf .x86_64 (some 5) = (true, w, buf')
      ∧ (bunFrameWrite ⟨.w64, .little⟩ ⟨w, buf'.memory⟩ BunFrame.zero).1 = 26
      ∧ bunReaderInit unopenedReader (buf'.after w [.frameWrite BunFrame.zero]) none
        = some (true, r)
      ∧ readFrames ⟨.w64, .little⟩ (buf'.after w [.frameWrite BunFrame.zero]).payload 2 r
        BunFrame.zero = some frames
      ∧ frames.length = 1
      ∧ ¬ParsesBack (buf'.after w [.frameWrite BunFrame.zero]) unopenedReader BunFrame.zero := by
  refine ⟨_, _, _, _, _, rfl, rfl, rfl, rfl, rfl, rfl, ?_⟩
  rintro ⟨fuel, frames, hparse, _⟩
  rw [parseAndPrint_eq] at hparse
  exact absurd hparse (by simp)

end LibBun
