import LibBun.Frame

/-!
# Buffers, sessions and headers

A `struct bun_buffer` is a piece of the caller's memory. Its first sixteen bytes
are private to the library: a counter and the handle the buffer is bound to. The
rest is the payload, which starts with the header and is what readers and
writers point into.

The counter and the handle are kept here as the values they hold, the payload as
bytes. That the payload is what is left of the memory, and that the memory is an
object of the C implementation and so no larger than `PTRDIFF_MAX`, are fields of
the structure: no buffer without them can be written down.
-/

namespace LibBun

/-- `BUN_BUFFER_PAYLOAD_HEADER_SIZE`: the private prefix and the header. -/
def bunBufferPayloadHeaderSize : Nat := 40

/-- `offsetof(struct bun_buffer_payload, header)`. -/
def payloadOffset : Nat := 16

/-- Room for prefix and header is room for either. -/
theorem headerSize_le_payloadHeaderSize : headerSize ≤ bunBufferPayloadHeaderSize := by decide

theorem payloadOffset_le_payloadHeaderSize : payloadOffset ≤ bunBufferPayloadHeaderSize := by decide

/-- `struct bun_buffer`, and the memory it points to. -/
structure BunBuffer (h : Host) where
  size : Nat
  writeCount : UInt32
  handle : Option HandleRef
  payload : List UInt8
  payload_length : payload.length = size - payloadOffset
  size_le : size ≤ h.ptrdiffMax

namespace BunBuffer

variable {h : Host}

/-- The buffer with other payload bytes. -/
def withPayload (b : BunBuffer h) (bytes : List UInt8) (hb : bytes.length = b.payload.length) :
    BunBuffer h :=
  { b with
    payload := bytes
    payload_length := hb.trans b.payload_length }

/-- The memory a writer on this buffer starts from, with nothing stored yet. -/
def memory (b : BunBuffer h) : Memory := ⟨b.payload, []⟩

end BunBuffer

/-- Memory handed over by a caller: an object of the C implementation. -/
abbrev CObject (h : Host) : Type := { data : List UInt8 // data.length ≤ h.ptrdiffMax }

/-- `bun_buffer_init`: the first forty bytes are set to zero. -/
def bunBufferInit {h : Host} (data : CObject h) : Option (BunBuffer h) :=
  if data.1.length < bunBufferPayloadHeaderSize then
    none
  else
    some
      { size := data.1.length
        writeCount := 0
        handle := none
        payload := Region.patch (data.1.drop payloadOffset) 0 (List.replicate headerSize 0)
        payload_length := by rw [Region.length_patch, List.length_drop]
        size_le := data.2 }

/-- What `bun_buffer_init` leaves behind. -/
theorem bunBufferInit_eq_some {h : Host} {data : CObject h} {buf : BunBuffer h}
    (hbuf : bunBufferInit data = some buf) :
    bunBufferPayloadHeaderSize ≤ data.1.length ∧ buf.size = data.1.length ∧ buf.writeCount = 0
      ∧ buf.handle = none ∧ buf.payload
        = Region.patch (data.1.drop payloadOffset) 0 (List.replicate headerSize 0) := by
  unfold bunBufferInit at hbuf
  split at hbuf
  · exact absurd hbuf (by simp)
  · rename_i hlt
    injection hbuf with hbuf
    subst hbuf
    exact ⟨Nat.le_of_not_lt hlt, rfl, rfl, rfl, rfl⟩

theorem bunBufferInit_size {h : Host} {data : CObject h} {buf : BunBuffer h}
    (hbuf : bunBufferInit data = some buf) : bunBufferPayloadHeaderSize ≤ buf.size := by
  obtain ⟨hlen, hsize, _⟩ := bunBufferInit_eq_some hbuf
  rwa [hsize]

/-- `bun_buffer_payload_size`. -/
def bunBufferPayloadSize {h : Host} (buffer : BunBuffer h) : Nat :=
  h.toSizeT ((buffer.size : Int) - payloadOffset)

/-- It does not wrap if there is room for the prefix. -/
theorem bunBufferPayloadSize_eq {h : Host} {buf : BunBuffer h} (hsize : payloadOffset ≤ buf.size) :
    (bunBufferPayloadSize buf : Int) = (buf.size : Int) - payloadOffset := by
  have hle := buf.size_le
  have hmod := h.ptrdiffMax_lt_sizeMod
  exact Host.toSizeT_of_lt (by omega) (by rw [payloadOffset]; omega)

/-- The payload of a buffer large enough for a session. -/
theorem BunBuffer.payload_room {h : Host} (buf : BunBuffer h)
    (hbuf : bunBufferPayloadHeaderSize ≤ buf.size) :
    headerSize ≤ buf.payload.length ∧ buf.payload.length ≤ h.ptrdiffMax
      ∧ bunBufferPayloadSize buf = buf.payload.length := by
  have hlen := buf.payload_length
  have hle := buf.size_le
  have hps := bunBufferPayloadSize_eq (payloadOffset_le_payloadHeaderSize.trans hbuf)
  rw [bunBufferPayloadHeaderSize] at hbuf
  rw [payloadOffset] at hlen hps
  rw [headerSize]
  omega

/-! ## Opening a session -/

/-- The value stored in a 16-bit field for a backend. -/
def BunUnwindBackend.toUInt16 (b : BunUnwindBackend) : Nat := (b.toInt % 2 ^ 16).toNat

/-- The stores by which `bun_writer_init` fills in the header. -/
def initHeader (m : Memory) (arch : BunArchitecture) (tid : UInt32) : Memory :=
  let m := m.setField 0 HeaderField.magic bunHeaderMagic
  let m := m.setField 0 HeaderField.version 1
  let m := m.setField 0 HeaderField.architecture arch.toNat
  let m := m.setField 0 HeaderField.size headerSize
  let m := m.setField 0 HeaderField.tid tid.toNat
  m.setField 0 HeaderField.backend BunUnwindBackend.none.toUInt16

theorem length_initHeader (m : Memory) (arch : BunArchitecture) (tid : UInt32) :
    (initHeader m arch tid).bytes.length = m.bytes.length := by
  simp only [initHeader, Memory.setField, Memory.store, Region.length_patch]

/--
The handle a buffer is bound to once `given` has been passed, or `none` if the
buffer is bound to another one.
-/
def bindHandle (bound given : Option HandleRef) : Option (Option HandleRef) :=
  if bound ≠ none then
    if given ≠ none ∧ given ≠ bound then none else some bound
  else if given ≠ none then
    some given
  else
    some bound

/-- The bound handle has `BUN_HANDLE_WRITE_ONCE` set. -/
def isWriteOnce (handles : HandleRef → BunHandle) (bound : Option HandleRef) : Bool :=
  match bound with
  | some r => (handles r).flags &&& bunHandleWriteOnce != 0
  | none => false

/--
`bun_writer_init`, run by thread `tid`. The result, the writer and the buffer: a
refused call leaves the writer as it was, but the counter it went through has
gone up.
-/
def bunWriterInit {h : Host} (handles : HandleRef → BunHandle) (tid : UInt32)
    (writer : BunWriter) (buffer : BunBuffer h) (arch : BunArchitecture)
    (handle : Option HandleRef) : Bool × BunWriter × BunBuffer h :=
  if buffer.size < headerSize then
    (false, writer, buffer)
  else
    match bindHandle buffer.handle handle with
    | none => (false, writer, buffer)
    | some bound =>
        let buffer := { buffer with handle := bound }
        -- `int last = atomic_fetch_add(&buffer_payload->write_count, 1)`
        let last := Int.bmod buffer.writeCount.toNat (2 ^ 32)
        let buffer :=
          if isWriteOnce handles bound then { buffer with writeCount := buffer.writeCount + 1 }
          else buffer
        if isWriteOnce handles bound ∧ last > 0 then
          (false, writer, buffer)
        else
          let data : WriterReaderBase :=
            { buffer := 0
              cursor := headerSize
              size := bunBufferPayloadSize buffer
              handle := handle
              overflow := false }
          let m := initHeader buffer.memory arch tid
          (true, { data := data }, buffer.withPayload m.bytes (length_initHeader _ arch tid))

/-- `bun_reader_init`; `none` is a read outside the payload. -/
def bunReaderInit {h : Host} (reader : BunReader) (buffer : BunBuffer h)
    (handle : Option HandleRef) : Option (Bool × BunReader) :=
  if bunBufferPayloadSize buffer < headerSize then
    some (false, reader)
  else do
    let magic ← HeaderField.magic.read buffer.payload 0
    if magic ≠ bunHeaderMagic then
      return (false, reader)
    else
      let data : WriterReaderBase :=
        { buffer := 0
          cursor := headerSize
          size := bunBufferPayloadSize buffer
          handle := handle
          overflow := false }
      return (true, { data := data })

/-! ## The bytes opening looks at and stores

The counter and the handle of the private prefix are kept as values, so what is
read and stored there has to be said apart. Ranges are counted from the start of
the caller's memory, prefix included. -/

/-- A range of bytes of the caller's memory. -/
structure Access where
  start : Nat
  length : Nat
deriving DecidableEq, Repr

/-- The range is in a memory of `n` bytes. -/
def Access.Inside (a : Access) (n : Nat) : Prop := a.start + a.length ≤ n

/-- `bun_header_tid_set`. -/
def bunHeaderTidSet (s : WriterState) (tid : UInt32) : WriterState :=
  s.setField HeaderField.tid tid.toNat

/-- `bun_header_tid_get`. -/
def bunHeaderTidGet (mem : List UInt8) (reader : BunReader) : Option Nat :=
  HeaderField.tid.read mem reader.data.buffer

/-- `bun_header_backend_set`: the enumerator is cut to sixteen bits. -/
def bunHeaderBackendSet (s : WriterState) (backend : BunUnwindBackend) : WriterState :=
  s.setField HeaderField.backend backend.toUInt16

/-- `bun_header_backend_get`: the field, as an `int`. -/
def bunHeaderBackendGet (mem : List UInt8) (reader : BunReader) : Option Int :=
  (HeaderField.backend.read mem reader.data.buffer).map Int.ofNat

/-! ## What a writer can be asked to do -/

/-- A call on an open writer. -/
inductive WriterOp where
  | frameWrite (frame : BunFrame)
  | tidSet (tid : UInt32)
  | backendSet (backend : BunUnwindBackend)

/-- The state a call leaves behind. -/
def WriterOp.apply (h : Host) (s : WriterState) : WriterOp → WriterState
  | frameWrite frame => (bunFrameWrite h s frame).2
  | tidSet tid => bunHeaderTidSet s tid
  | backendSet backend => bunHeaderBackendSet s backend

/-! ## Something to start from -/

/-- Zeroed memory, for the runs on fixed inputs that follow some of the results. -/
def zeroedObject (h : Host) (n : Nat) (hn : n < 2 ^ 31) : CObject h :=
  ⟨List.replicate n 0, by
    have := h.sizes
    rw [List.length_replicate]
    omega⟩

theorem bunBufferInit_zeroedObject (h : Host) {n : Nat} (hn : n < 2 ^ 31)
    (hroom : bunBufferPayloadHeaderSize ≤ n) :
    ∃ buf, bunBufferInit (zeroedObject h n hn) = some buf
      ∧ buf.payload.length = n - payloadOffset := by
  have hlen : (zeroedObject h n hn).1.length = n := List.length_replicate
  have hinit : ∃ buf, bunBufferInit (zeroedObject h n hn) = some buf := by
    rw [bunBufferInit, if_neg (by rw [hlen]; exact Nat.not_lt.mpr hroom)]
    exact ⟨_, rfl⟩
  obtain ⟨buf, hbuf⟩ := hinit
  obtain ⟨_, hsize, _⟩ := bunBufferInit_eq_some hbuf
  exact ⟨buf, hbuf, by rw [buf.payload_length, hsize, hlen]⟩

/-- A writer that was never opened. -/
def unopenedWriter : BunWriter := ⟨⟨0, 0, 0, none, false⟩⟩

/-- A reader that was never opened. -/
def unopenedReader : BunReader := ⟨⟨0, 0, 0, none, false⟩⟩

/-- The reader that `bun_reader_init` leaves on a payload of `size` bytes. -/
def openedReader (size : Nat) : BunReader := ⟨⟨0, headerSize, size, none, false⟩⟩

/-- A 68-byte buffer: a header that declares `size` bytes, and the bytes of one frame. -/
def oneFrameBuffer (h : Host) (size : Nat) (lineNo : UInt64) : BunBuffer h where
  size := 68
  writeCount := 0
  handle := none
  payload := LittleEndian.encode 8 bunHeaderMagic ++ [1, 0, 2, 0] ++ LittleEndian.encode 4 size
    ++ List.replicate 16 0 ++ LittleEndian.encode 8 lineNo.toNat ++ List.replicate 12 0
  payload_length := by simp [payloadOffset]
  size_le := by rcases h.sizes with ⟨_, _, hp⟩ | ⟨_, _, hp⟩ <;> omega

end LibBun
