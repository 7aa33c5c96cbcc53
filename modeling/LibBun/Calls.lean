import LibBun.Grammar

/-!
# Any calls on one buffer

The whole interface of `stream.h` on one buffer, as a machine. A state is the buffer and
all the writers and readers that were ever opened on it; a call is any of the functions
that takes a writer, a reader or the buffer, and it returns what the function returns.
Sessions may be opened at any time, readers may be opened and asked at any time, also
while a session is going on.

Nothing closes a writer or a reader. One that was opened in an earlier session points to
the same payload as those of the next, and goes on from where its cursor is.
-/

namespace LibBun

/-- A call on the buffer, or on one of its writers or readers. -/
inductive BufferCall where
  /-- `bun_writer_init` by thread `tid`, into a writer that holds `writer`. -/
  | writerInit (handles : HandleRef → BunHandle) (tid : UInt32) (writer : BunWriter)
      (arch : BunArchitecture) (handle : Option HandleRef)
  /-- `bun_frame_write` by the `k`-th writer. -/
  | frameWrite (k : Nat) (frame : BunFrame)
  | tidSet (k : Nat) (tid : UInt32)
  | backendSet (k : Nat) (backend : BunUnwindBackend)
  /-- `bun_reader_init`, into a reader that holds `reader`. -/
  | readerInit (reader : BunReader) (handle : Option HandleRef)
  /-- `bun_frame_read` by the `i`-th reader, into a structure with any content. -/
  | frameRead (i : Nat) (frame : BunFrame)
  | tidGet (i : Nat)
  | backendGet (i : Nat)

/-- What a call returns. -/
inductive CallResult where
  | opened (ok : Bool)
  | written (n : Nat)
  | done
  /-- The frame that was read, or `none` for false. -/
  | frame (content : Option FrameContent)
  | value (v : Int)
  /-- There is no such writer, or no such reader. -/
  | missing
  /-- Something outside the payload was read. -/
  | fault
deriving DecidableEq

/-- A buffer in use. -/
structure BufferState (h : Host) where
  buffer : BunBuffer h
  /-- The writers of all sessions, in the order they were opened. -/
  writers : List BunWriter
  /-- The readers, in the order they were opened. -/
  readers : List BunReader

namespace BufferState

variable {h : Host}

/-- A buffer nobody has used. -/
def fresh (buffer : BunBuffer h) : BufferState h := ⟨buffer, [], []⟩

/-- The `k`-th writer, and the memory it writes to, in another state. -/
def withWriter (s : BufferState h) (k : Nat) (t : WriterState)
    (ht : t.mem.bytes.length = s.buffer.payload.length) : BufferState h :=
  { s with
    buffer := s.buffer.withPayload t.mem.bytes ht
    writers := s.writers.set k t.writer }

/-- One call. -/
def call (s : BufferState h) : BufferCall → CallResult × BufferState h
  | .writerInit handles tid writer arch handle =>
      let (ok, writer, buffer) := bunWriterInit handles tid writer s.buffer arch handle
      if ok = true then
        (.opened true, { s with buffer := buffer, writers := s.writers ++ [writer] })
      else
        (.opened false, { s with buffer := buffer })
  | .frameWrite k frame =>
      match s.writers[k]? with
      | none => (.missing, s)
      | some writer =>
          (.written (bunFrameWrite h ⟨writer, s.buffer.memory⟩ frame).1,
            s.withWriter k (bunFrameWrite h ⟨writer, s.buffer.memory⟩ frame).2
              (length_bunFrameWrite ..))
  | .tidSet k tid =>
      match s.writers[k]? with
      | none => (.missing, s)
      | some writer =>
          (.done, s.withWriter k (bunHeaderTidSet ⟨writer, s.buffer.memory⟩ tid)
            (WriterState.length_setField ..))
  | .backendSet k backend =>
      match s.writers[k]? with
      | none => (.missing, s)
      | some writer =>
          (.done, s.withWriter k (bunHeaderBackendSet ⟨writer, s.buffer.memory⟩ backend)
            (WriterState.length_setField ..))
  | .readerInit reader handle =>
      match bunReaderInit reader s.buffer handle with
      | none => (.fault, s)
      | some (ok, reader) =>
          if ok = true then (.opened true, { s with readers := s.readers ++ [reader] })
          else (.opened false, s)
  | .frameRead i frame =>
      match s.readers[i]? with
      | none => (.missing, s)
      | some reader =>
          match bunFrameRead h s.buffer.payload reader frame with
          | none => (.fault, s)
          | some (ok, reader, frame) =>
              (.frame (if ok = true then some (frame.content h) else none),
                { s with readers := s.readers.set i reader })
  | .tidGet i =>
      match s.readers[i]? with
      | none => (.missing, s)
      | some reader =>
          match bunHeaderTidGet s.buffer.payload reader with
          | none => (.fault, s)
          | some tid => (.value tid, s)
  | .backendGet i =>
      match s.readers[i]? with
      | none => (.missing, s)
      | some reader =>
          match bunHeaderBackendGet s.buffer.payload reader with
          | none => (.fault, s)
          | some backend => (.value backend, s)

end BufferState

end LibBun
