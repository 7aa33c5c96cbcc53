import LibBun.Structs

/-!
# Moving a cursor over the payload

The static functions of `bun_stream.c` that everything else is made of: the
bounds test, the guarded reads and writes of integers, and the guarded string
length.

Reads are partial. `none` is the model's word for a read of a byte that is not
in the payload, which in C is not an error value but undefined behaviour, so no
function below catches it; that a reader never gets there is proved, not
assumed. Writes are total, and a write outside the payload is visible in the
log.
-/

namespace LibBun

/-- `is_safe_access`: `bytes` more bytes fit between the cursor and the end. -/
def isSafeAccess (h : Host) (base : WriterReaderBase) (bytes : Nat) : Bool :=
  let endCursor := base.buffer + base.size
  let bytesLeft := h.toSizeT (endCursor - base.cursor)
  if base.overflow = true then false else decide (bytes ≤ bytesLeft)

/-! ## Reading -/

namespace BunReader

/-- `src->data.overflow = true`. -/
def setOverflow (src : BunReader) : BunReader := { src with data.overflow := true }

/-- `src->data.cursor += n`. -/
def advance (src : BunReader) (n : Int) : BunReader :=
  { src with data.cursor := src.data.cursor + n }

/-- `src->data.cursor = a`. -/
def seek (src : BunReader) (a : Int) : BunReader := { src with data.cursor := a }

end BunReader

/-- `read_le_16` and `read_le_64`, for a width of `w` bytes. -/
def readLe (h : Host) (w : Nat) (mem : List UInt8) (src : BunReader) : Option (Nat × BunReader) :=
  if isSafeAccess h src.data w = false then
    some (0, src.setOverflow)
  else do
    let value ← Region.load mem src.data.cursor w
    return (h.letoh w (h.valueOf value), src.advance w)

/-- `read_le_16`. -/
def readLe16 (h : Host) (mem : List UInt8) (src : BunReader) : Option (Nat × BunReader) :=
  readLe h 2 mem src

/-- `read_le_64`. -/
def readLe64 (h : Host) (mem : List UInt8) (src : BunReader) : Option (Nat × BunReader) :=
  readLe h 8 mem src

/-- `strnlen`, which looks at no byte past the first NUL. -/
def strnlen (mem : List UInt8) (a : Int) : Nat → Option Nat
  | 0 => some 0
  | n + 1 => do
      let c ← Region.load mem a 1
      if c = [0] then some 0 else (strnlen mem (a + 1) n).map (· + 1)

/-- `safe_strlen`: the length of the string at the cursor, or -1 and the overflow flag. -/
def safeStrlen (h : Host) (mem : List UInt8) (src : BunReader) : Option (Int × BunReader) :=
  let endCursor := src.data.buffer + src.data.size
  let maxLength := h.toSizeT (endCursor - src.data.cursor)
  if src.data.overflow = true then
    some (-1, src)
  else do
    let len ← strnlen mem src.data.cursor maxLength
    if len = maxLength then
      return (-1, src.setOverflow)
    else
      return (h.toPtrdiffT len, src)

/-- The string a pointer to `a` points to. -/
def charPtrAt (mem : List UInt8) (a : Int) : CharPtr := ⟨a, Codec.upTo 0 (mem.drop a.toNat)⟩

/-- The bytes a pointer to `a` points to. -/
def dataPtrAt (mem : List UInt8) (a : Int) : DataPtr := ⟨a, mem.drop a.toNat⟩

/-! ## Writing -/

/-- A writer and the memory it writes to. -/
structure WriterState where
  writer : BunWriter
  mem : Memory
deriving DecidableEq, Repr

namespace WriterState

/-- `dest->data.overflow = true`. -/
def setOverflow (s : WriterState) : WriterState := { s with writer.data.overflow := true }

/-- `dest->data.cursor += n`. -/
def advance (s : WriterState) (n : Nat) : WriterState :=
  { s with writer.data.cursor := s.writer.data.cursor + n }

/-- `memcpy(dest->data.cursor, bs, ...)`. -/
def memcpy (s : WriterState) (bs : List UInt8) : WriterState :=
  { s with mem := s.mem.memcpy s.writer.data.cursor bs }

/-- `strcpy(dest->data.cursor, str)`. -/
def strcpy (s : WriterState) (str : CString) : WriterState :=
  { s with mem := s.mem.strcpy s.writer.data.cursor str }

/-- Assignment to a field of the header at `dest->data.buffer`. -/
def setField (s : WriterState) (f : HeaderField) (v : Nat) : WriterState :=
  { s with mem := s.mem.setField s.writer.data.buffer f v }

end WriterState

/-- `write_le_16` and `write_le_64`, for a width of `w` bytes. -/
def writeLe (h : Host) (w : Nat) (dest : WriterState) (value : Nat) : WriterState :=
  let leValue := h.htole w value
  if isSafeAccess h dest.writer.data w = false then
    dest.setOverflow
  else
    (dest.memcpy (h.bytesOf w leValue)).advance w

/-- `write_le_16`; the parameter is a `uint16_t`. -/
def writeLe16 (h : Host) (dest : WriterState) (value : Nat) : WriterState :=
  writeLe h 2 dest (value % 2 ^ 16)

/-- `write_le_64`; the parameter is a `uint64_t`. -/
def writeLe64 (h : Host) (dest : WriterState) (value : Nat) : WriterState :=
  writeLe h 8 dest (value % 2 ^ 64)

/-! No write, in bounds or out, makes the payload longer or shorter. -/

namespace WriterState

variable (s : WriterState)

@[simp] theorem length_memcpy (bs : List UInt8) :
    (s.memcpy bs).mem.bytes.length = s.mem.bytes.length := by
  rw [memcpy, Memory.memcpy_bytes, Region.length_patch]

@[simp] theorem length_strcpy (str : CString) :
    (s.strcpy str).mem.bytes.length = s.mem.bytes.length := s.length_memcpy (str.1 ++ [0])

@[simp] theorem length_advance (n : Nat) :
    (s.advance n).mem.bytes.length = s.mem.bytes.length := rfl

@[simp] theorem length_setField (f : HeaderField) (v : Nat) :
    (s.setField f v).mem.bytes.length = s.mem.bytes.length := by
  rw [setField, Memory.setField, Memory.store, Region.length_patch]

end WriterState

@[simp] theorem length_writeLe (h : Host) (w : Nat) (s : WriterState) (v : Nat) :
    (writeLe h w s v).mem.bytes.length = s.mem.bytes.length := by
  unfold writeLe
  dsimp only
  split
  · rfl
  · rw [WriterState.length_advance, WriterState.length_memcpy]

end LibBun
