import LibBun.Buffer

/-!
# The stream parser

`tools/stream_parser` reads a file into memory and prints the frames in it. The file
is a buffer that somebody saved: all its bytes, the private prefix included, as the
examples hand `buffer.data` and `buffer.size` to a crash reporter.
-/

namespace LibBun

variable {h : Host}

/--
The bytes at `buffer.data`. The counter and the handle take eight bytes each, with
padding after the one and, where a pointer has four bytes, after the other; the padding
was zeroed by `bun_buffer_init`.
-/
def BunBuffer.image (b : BunBuffer h) : List UInt8 :=
  h.bytesOf 4 b.writeCount.toNat ++ List.replicate 4 0
    ++ h.bytesOf h.sizeofSizeT (b.handle.getD 0) ++ List.replicate (8 - h.sizeofSizeT) 0
    ++ b.payload

theorem BunBuffer.length_image (b : BunBuffer h) :
    b.image.length = payloadOffset + b.payload.length := by
  rw [image]
  simp only [List.length_append, List.length_replicate, Host.length_bytesOf]
  rw [payloadOffset]
  rcases h.sizes with ⟨hs, _⟩ | ⟨hs, _⟩ <;> omega

/-- What is saved is as large as the buffer, and so an object of the C implementation. -/
def BunBuffer.saved (b : BunBuffer h) : CObject h :=
  ⟨b.image, by
    have hlen := b.payload_length
    have hle := b.size_le
    have hsizes := h.sizes
    rw [b.length_image]
    rw [payloadOffset] at hlen ⊢
    omega⟩

/--
`parse_and_print`, with `reader` and `frame` in the local variables nobody has set: the
frames that `bun_reader_print` goes through, or `none` in their place if the function
returns before that. The outer `none` is a read outside the payload, or a loop still
running after `fuel` calls.
-/
def parseAndPrint (reader : BunReader) (frame : BunFrame) (fuel : Nat) (data : CObject h) :
    Option (Option (List BunFrame)) :=
  match bunBufferInit data with
  | none => some none
  | some buffer => do
      let (ok, reader) ← bunReaderInit reader buffer none
      if ok = false then
        return none
      else
        let frames ← readFrames h buffer.payload fuel reader frame
        return some frames

end LibBun
