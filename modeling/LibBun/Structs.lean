import LibBun.Lib.Region
import LibBun.Lib.Codec
import LibBun.Host

/-!
# The data the library works on

The structures of `bun.h`, `stream.h` and `bun_internal.h`, field by field under
their own names. Three choices are the model's.

A **pointer into memory** is an address together with what is found there: a
`const char *` is an address and the string up to its terminating NUL, a
`void *` to a register block is an address and the bytes from there on. `none`
is `NULL`. Addresses count from the start of the payload, the memory that holds
the header and the frames; addresses of a caller's own strings are of no
consequence and may be anything.

The **cursor and buffer pointers** of a reader or writer are addresses of the
same kind, and they are integers, because nothing in the types keeps them inside
the payload. That they stay there is a theorem, or fails to be one.

**Memory** is the bytes of the payload and the stores made so far, in program
order. A store outside the payload changes no payload byte but is kept in the
log, so that what a run stored, and in which order, can be asked afterwards.
-/

namespace LibBun

/-- The bytes of a C string, its NUL left off. -/
abbrev CString := Codec.Without (0 : UInt8)

/-- The string of no characters. -/
def CString.empty : CString := ⟨[], List.not_mem_nil⟩

/-- A `const char *` that is not `NULL`. -/
structure CharPtr where
  addr : Int
  str : CString
deriving DecidableEq, Repr

/-- A `void *` that is not `NULL`. -/
structure DataPtr where
  addr : Int
  /-- The bytes from there on. -/
  bytes : List UInt8
deriving DecidableEq, Repr

/-- `struct bun_frame`. Every field but `addr` is a `size_t` or a pointer. -/
structure BunFrame where
  addr : UInt64
  symbol : Option CharPtr
  symbolLength : Nat
  filename : Option CharPtr
  filenameLength : Nat
  lineNo : Nat
  offset : Nat
  registerCount : Nat
  registerBufferSize : Nat
  registerData : Option DataPtr
deriving DecidableEq, Repr

/-- A `struct bun_frame` of zero bytes. -/
def BunFrame.zero : BunFrame :=
  { addr := 0, symbol := none, symbolLength := 0, filename := none, filenameLength := 0,
    lineNo := 0, offset := 0, registerCount := 0, registerBufferSize := 0, registerData := none }

/-- `REGISTER_SIZE`: a two-byte id and an eight-byte value. -/
def registerSize : Nat := 10

/-- The address of a `struct bun_handle`. -/
abbrev HandleRef := Nat

/-- `BUN_HANDLE_WRITE_ONCE`. -/
def bunHandleWriteOnce : UInt64 := 1

/-- The part of `struct bun_handle` the stream code looks at. -/
structure BunHandle where
  flags : UInt64
deriving DecidableEq, Repr

/-- `enum bun_architecture`. -/
inductive BunArchitecture where
  | unknown
  | x86
  | x86_64
  | arm
  | arm64
deriving DecidableEq, Repr

/-- The value of an architecture enumerator. -/
def BunArchitecture.toNat : BunArchitecture → Nat
  | unknown => 0
  | x86 => 1
  | x86_64 => 2
  | arm => 3
  | arm64 => 4

/-- `enum bun_unwind_backend`, with every backend enabled. -/
inductive BunUnwindBackend where
  | none
  | libunwind
  | libbacktrace
  | libunwindstack
deriving DecidableEq, Repr

/-- The value of a backend enumerator; `BUN_BACKEND_NONE` is negative. -/
def BunUnwindBackend.toInt : BunUnwindBackend → Int
  | none => -1
  | libunwind => 0
  | libbacktrace => 1
  | libunwindstack => 2

/-- `struct bun_writer_reader_base`. -/
structure WriterReaderBase where
  buffer : Int
  cursor : Int
  size : Nat
  handle : Option HandleRef
  overflow : Bool
deriving DecidableEq, Repr

/-- `struct bun_writer`. -/
structure BunWriter where
  data : WriterReaderBase
deriving DecidableEq, Repr

/-- `struct bun_reader`. -/
structure BunReader where
  data : WriterReaderBase
deriving DecidableEq, Repr

/-! ## `struct bun_payload_header`

The attribute on the structure fixes little-endian order for its fields on every
host. The two bytes after `backend` are padding. -/

/-- `BUN_HEADER_MAGIC`. -/
def bunHeaderMagic : Nat := 0xaee9eb7a786a6145

/-- `sizeof(struct bun_payload_header)`. -/
def headerSize : Nat := 24

/-- A field of the header: where it starts and how wide it is. -/
structure HeaderField where
  start : Nat
  width : Nat
deriving DecidableEq, Repr

namespace HeaderField

def magic : HeaderField := ⟨0, 8⟩
def version : HeaderField := ⟨8, 2⟩
def architecture : HeaderField := ⟨10, 2⟩
def size : HeaderField := ⟨12, 4⟩
def tid : HeaderField := ⟨16, 4⟩
def backend : HeaderField := ⟨20, 2⟩

/-- The field of the header at `base`, for code that trusts the pointer. -/
def get (f : HeaderField) (mem : List UInt8) (base : Int) : Nat :=
  LittleEndian.decode (Region.peek 0 mem (base + f.start) f.width)

/-- The same for a reader: `none` if the field is not all inside the payload. -/
def read (f : HeaderField) (mem : List UInt8) (base : Int) : Option Nat :=
  (Region.load mem (base + f.start) f.width).map LittleEndian.decode

theorem get_lt (f : HeaderField) (mem : List UInt8) (base : Int) :
    f.get mem base < 256 ^ f.width := by
  have hlt := LittleEndian.decode_lt (Region.peek 0 mem (base + f.start) f.width)
  rwa [Region.length_peek] at hlt

end HeaderField

/-! ## Memory -/

/-- A store of bytes. -/
abbrev ByteStore := Region.Store UInt8

/-- The payload and what has been stored so far. -/
structure Memory where
  bytes : List UInt8
  log : List ByteStore
deriving DecidableEq, Repr

namespace Memory

/-- One store. -/
def store (m : Memory) (s : ByteStore) : Memory :=
  { bytes := Region.patch m.bytes s.addr s.cells, log := m.log ++ [s] }

/-- Several stores, in order. -/
def stores (m : Memory) (ss : List ByteStore) : Memory := ss.foldl store m

/-- `memcpy`, a byte at a time. -/
def memcpy (m : Memory) (a : Int) (bs : List UInt8) : Memory := m.stores (Region.cellwise a bs)

/-- `strcpy`: the string and its NUL. -/
def strcpy (m : Memory) (a : Int) (s : CString) : Memory := m.memcpy a (s.1 ++ [0])

/-- Assignment to a header field: one store of the field's width. -/
def setField (m : Memory) (base : Int) (f : HeaderField) (v : Nat) : Memory :=
  m.store ⟨base + f.start, LittleEndian.encode f.width v⟩

@[simp] theorem stores_bytes (m : Memory) (ss : List ByteStore) :
    (m.stores ss).bytes = Region.replay m.bytes ss := by
  induction ss generalizing m with
  | nil => rfl
  | cons s ss ih => exact ih (m.store s)

@[simp] theorem stores_log (m : Memory) (ss : List ByteStore) :
    (m.stores ss).log = m.log ++ ss := by
  induction ss generalizing m with
  | nil => exact (List.append_nil m.log).symm
  | cons s ss ih =>
      rw [stores, List.foldl_cons]
      refine (ih (m.store s)).trans ?_
      rw [store, List.append_assoc, List.singleton_append]

theorem stores_append (m : Memory) (ss ts : List ByteStore) :
    m.stores (ss ++ ts) = (m.stores ss).stores ts := List.foldl_append ..

@[simp] theorem stores_nil (m : Memory) : m.stores [] = m := rfl

@[simp] theorem memcpy_bytes (m : Memory) (a : Int) (bs : List UInt8) :
    (m.memcpy a bs).bytes = Region.patch m.bytes a bs := by
  rw [memcpy, stores_bytes, Region.replay_cellwise]

theorem memcpy_memcpy (m : Memory) (a : Int) (xs ys : List UInt8) :
    (m.memcpy a xs).memcpy (a + xs.length) ys = m.memcpy a (xs ++ ys) := by
  rw [memcpy, memcpy, memcpy, ← stores_append, Region.cellwise_append]

end Memory

end LibBun
