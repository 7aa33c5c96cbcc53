import LibBun.Lib.Run
import LibBun.Cursor

/-!
# Writing and reading one frame

`bun_frame_write` decides with one estimate, made from the sizes of the fields
of `struct bun_frame`, whether the frame goes in, and then writes it in seven
steps, four of which are guarded a second time. `bun_frame_read` undoes the same
seven steps and looks at the overflow flag after some of them.

The two functions for the register block of a frame are here as well; they work
on the caller's own memory and know nothing of a payload.
-/

namespace LibBun

namespace BunFrame

/-- The string `strcpy` copies for the symbol. -/
def symbolStr (f : BunFrame) : CString := (f.symbol.map CharPtr.str).getD CString.empty

/-- The string `strcpy` copies for the file name. -/
def filenameStr (f : BunFrame) : CString := (f.filename.map CharPtr.str).getD CString.empty

/--
The `register_count * REGISTER_SIZE` bytes at `register_data`. A block that is
shorter than that cannot be read in C; here the missing bytes are zero.
-/
def registerBlock (f : BunFrame) : List UInt8 :=
  ((f.registerData.map DataPtr.bytes).getD []).takeD (registerSize * f.registerCount) 0

end BunFrame

/-- The length given for a string, or its own length if none is given. -/
def effectiveLength (h : Host) (length : Nat) (str : Option CharPtr) : Nat :=
  match str with
  | some p => if length = 0 then h.toSizeT p.str.1.length else length
  | none => length

/-- The estimate of `bun_frame_write`, made from `sizeof` of three fields of the structure. -/
def wouldWrite (h : Host) (frame : BunFrame) : Nat :=
  let symbolLength := effectiveLength h frame.symbolLength frame.symbol
  let filenameLength := effectiveLength h frame.filenameLength frame.filename
  -- 2 for null bytes
  h.toSizeT ((symbolLength + filenameLength + 2 + 8 + h.sizeofSizeT + h.sizeofSizeT
    + frame.registerCount * registerSize : Nat) : Int)

/-- `buffer_available` of `bun_frame_write`. -/
def writerAvailable (h : Host) (writer : BunWriter) : Nat :=
  h.toSizeT (writer.data.size - (writer.data.cursor - writer.data.buffer))

/-- `bun_frame_write`. -/
def bunFrameWrite (h : Host) (s : WriterState) (frame : BunFrame) : Nat × WriterState :=
  let symbolLength := effectiveLength h frame.symbolLength frame.symbol
  let filenameLength := effectiveLength h frame.filenameLength frame.filename
  if wouldWrite h frame > writerAvailable h s.writer then
    (0, s)
  else
    let s := writeLe64 h s frame.addr.toNat
    let s := writeLe64 h s frame.lineNo
    let s := writeLe64 h s frame.offset
    let s := (s.strcpy frame.symbolStr).advance (h.toSizeT (symbolLength + 1))
    let s := (s.strcpy frame.filenameStr).advance (h.toSizeT (filenameLength + 1))
    let s := writeLe16 h s frame.registerCount
    let s :=
      if frame.registerCount > 0 then
        (s.memcpy frame.registerBlock).advance (h.toSizeT (frame.registerCount * registerSize))
      else s
    let size := HeaderField.size.get s.mem.bytes s.writer.data.buffer
    (wouldWrite h frame, s.setField HeaderField.size (size + wouldWrite h frame))

@[simp] theorem length_bunFrameWrite (h : Host) (s : WriterState) (frame : BunFrame) :
    (bunFrameWrite h s frame).2.mem.bytes.length = s.mem.bytes.length := by
  unfold bunFrameWrite
  dsimp only
  split
  · rfl
  · split <;> simp [writeLe16, writeLe64]

/-- `bun_frame_read`; `none` is a read outside the payload. -/
def bunFrameRead (h : Host) (mem : List UInt8) (reader : BunReader) (frame : BunFrame) :
    Option (Bool × BunReader × BunFrame) := do
  let initialCursorValue := reader.data.cursor
  let offset := h.toSizeT (reader.data.cursor - reader.data.buffer)
  let size ← HeaderField.size.read mem reader.data.buffer
  let bufferAvailable := h.toPtrdiffT ((size : Int) - offset)
  if h.toSizeT ((reader.data.size : Int) - offset) ≤ 0 then
    return (false, reader, frame)
  else if bufferAvailable ≤ 0 then
    return (false, reader, frame)
  else
    let (addr, reader) ← readLe64 h mem reader
    let (lineNo, reader) ← readLe64 h mem reader
    let (offset, reader) ← readLe64 h mem reader
    let frame := { frame with
      addr := UInt64.ofNat addr
      lineNo := h.toSizeT lineNo
      offset := h.toSizeT offset }
    if reader.data.overflow = true then
      return (false, reader.seek initialCursorValue, frame)
    else
    let (length, reader) ← safeStrlen h mem reader
    if reader.data.overflow = true then
      return (false, reader.seek initialCursorValue, frame)
    else
    let frame := { frame with symbol := some (charPtrAt mem reader.data.cursor) }
    let reader := reader.advance (length + 1)
    let (length, reader) ← safeStrlen h mem reader
    if reader.data.overflow = true then
      return (false, reader.seek initialCursorValue, frame)
    else
    let frame := { frame with filename := some (charPtrAt mem reader.data.cursor) }
    let reader := reader.advance (length + 1)
    let (count, reader) ← readLe16 h mem reader
    let frame := { frame with registerCount := count }
    if reader.data.overflow = true then
      return (false, reader.seek initialCursorValue, frame)
    else if isSafeAccess h reader.data (h.toSizeT (count * registerSize)) = false then
      return (false, reader.setOverflow.seek initialCursorValue, frame)
    else if count > 0 then
      let frame := { frame with
        registerData := some (dataPtrAt mem reader.data.cursor)
        registerBufferSize := h.toSizeT (count * registerSize) }
      return (true, reader.advance frame.registerBufferSize, frame)
    else
      return (true, reader, frame)

/-! ## The register block -/

/--
`bun_frame_register_append`. The id is an object of the four bytes of the
enumeration; `htole16` is applied to its value and the first two bytes of the
object are copied.
-/
def bunFrameRegisterAppend (h : Host) (frame : BunFrame) (reg : Nat) (value : UInt64) :
    Bool × BunFrame :=
  let maxRegisters :=
    if frame.registerBufferSize > 0 then frame.registerBufferSize / registerSize else 0
  if frame.registerCount ≥ maxRegisters then
    (false, frame)
  else
    let buffer : Int := registerSize * frame.registerCount
    let reg := h.htole 2 (reg % 2 ^ 16)
    let value := h.htole 8 value.toNat
    let write (data : DataPtr) : DataPtr :=
      let bytes := Region.patch data.bytes buffer ((h.bytesOf 4 reg).take 2)
      { data with bytes := Region.patch bytes (buffer + 2) (h.bytesOf 8 value) }
    (true, { frame with
      registerData := frame.registerData.map write
      registerCount := frame.registerCount + 1 })

/-- The special case of an empty buffer is none. -/
theorem maxRegisters_eq (b : Nat) :
    (if b > 0 then b / registerSize else 0) = b / registerSize := by
  split
  · rfl
  · rename_i hzero
    rw [Nat.eq_zero_of_not_pos hzero, Nat.zero_div]

theorem bunFrameRegisterAppend_of_full {h : Host} {f : BunFrame}
    (hfull : f.registerBufferSize / registerSize ≤ f.registerCount) (reg : Nat) (value : UInt64) :
    bunFrameRegisterAppend h f reg value = (false, f) := by
  rw [bunFrameRegisterAppend, maxRegisters_eq, if_pos hfull]

/-- On every host an append changes the data and the count. -/
theorem bunFrameRegisterAppend_of_room {h : Host} {f : BunFrame}
    (hroom : f.registerCount < f.registerBufferSize / registerSize) (reg : Nat)
    (value : UInt64) :
    ∃ data, bunFrameRegisterAppend h f reg value =
      (true, { f with registerData := data, registerCount := f.registerCount + 1 }) := by
  rw [bunFrameRegisterAppend, maxRegisters_eq, if_neg (Nat.not_le.mpr hroom)]
  exact ⟨_, rfl⟩

/--
`bun_frame_register_get`: the id and value, if there is one at the index. The
two bytes of the id go to the first two bytes of an object that was zero.
-/
def bunFrameRegisterGet (h : Host) (frame : BunFrame) (index : Nat) : Option (Nat × UInt64) :=
  if index ≥ frame.registerCount then
    none
  else
    let data := (frame.registerData.map DataPtr.bytes).getD []
    let buffer : Int := registerSize * index
    let reg := Region.patch (h.bytesOf 4 0) 0 (Region.peek 0 data buffer 2)
    let value := Region.patch (h.bytesOf 8 0) 0 (Region.peek 0 data (buffer + 2) 8)
    some (h.valueOf reg, UInt64.ofNat (h.valueOf value))

/-! ## Calls in a row -/

/-- Registers appended one after the other; what the calls return is not looked at. -/
def appendRegisters (h : Host) (frame : BunFrame) (regs : List (Nat × UInt64)) : BunFrame :=
  regs.foldl (fun frame reg => (bunFrameRegisterAppend h frame reg.1 reg.2).2) frame

/-- What these calls return. -/
def appendResults (h : Host) (frame : BunFrame) (regs : List (Nat × UInt64)) : List Bool :=
  Run.outputs (fun frame reg => bunFrameRegisterAppend h frame reg.1 reg.2) frame regs

/-- Frames written one after the other: what the calls returned, and where they ended. -/
def writeFrames (h : Host) : WriterState → List BunFrame → List Nat × WriterState
  | s, [] => ([], s)
  | s, frame :: frames =>
      let (written, s) := bunFrameWrite h s frame
      let (rest, s) := writeFrames h s frames
      (written :: rest, s)

theorem writeFrames_append (h : Host) (s : WriterState) (frames more : List BunFrame) :
    (writeFrames h s (frames ++ more)).2
      = (writeFrames h (writeFrames h s frames).2 more).2 := by
  induction frames generalizing s with
  | nil => rfl
  | cons f fs ih => exact ih (bunFrameWrite h s f).2

@[simp] theorem length_writeFrames (h : Host) (s : WriterState) (frames : List BunFrame) :
    (writeFrames h s frames).2.mem.bytes.length = s.mem.bytes.length := by
  induction frames generalizing s with
  | nil => rfl
  | cons f fs ih => exact (ih (bunFrameWrite h s f).2).trans (length_bunFrameWrite h s f)

/--
The loop of `bun_reader_print`, `while (bun_frame_read(reader, &frame))`: the
frames it goes through, or `none` if it reads outside the payload or is still
running after `fuel` calls.
-/
def readFrames (h : Host) (mem : List UInt8) : Nat → BunReader → BunFrame →
    Option (List BunFrame)
  | 0, _, _ => none
  | fuel + 1, reader, frame => do
      let (more, reader, frame) ← bunFrameRead h mem reader frame
      if more = true then
        let rest ← readFrames h mem fuel reader frame
        return frame :: rest
      else
        return []

end LibBun
