import LibBun.Buffer

/-!
# Callers taking turns on one buffer

A buffer is written to by callers that know nothing of one another. Each calls
`bun_writer_init`, and those for which it returns true go on to call
`bun_frame_write`, in whatever order they get to it. What is modelled here is one
such history, for callers that all pass the same handle: the calls are atomic, and
the state is the buffer, the writers that were opened on it so far, and what
`bun_writer_init` returned so far.

A handle is memory of the caller's, and may change between one call and the next;
every `bun_writer_init` comes with what the handles hold when it is made.
-/

namespace LibBun

/-- A call by some caller. -/
inductive SessionEvent where
  /-- `bun_writer_init` by thread `tid`, into a writer that holds `writer`. -/
  | init (handles : HandleRef → BunHandle) (tid : UInt32) (writer : BunWriter)
      (arch : BunArchitecture)
  /-- `bun_frame_write` by the `i`-th of the callers whose `bun_writer_init` returned true. -/
  | write (i : Nat) (frame : BunFrame)

/-- The call is a `bun_writer_init`. -/
def SessionEvent.isInit : SessionEvent → Bool
  | init .. => true
  | write .. => false

/-- The number of `bun_writer_init` calls. -/
def initCount (events : List SessionEvent) : Nat := events.countP SessionEvent.isInit

/-- `BUN_HANDLE_WRITE_ONCE` of the handle is set when the call is made. -/
def SessionEvent.FlagSet (r : HandleRef) : SessionEvent → Prop
  | init handles .. => (handles r).flags &&& bunHandleWriteOnce ≠ 0
  | write .. => True

/-- A buffer and what has become of it. -/
structure Sessions (h : Host) where
  buffer : BunBuffer h
  /-- The writers of the sessions, in the order they were opened. -/
  writers : List BunWriter
  /-- What the `bun_writer_init` calls returned, in order. -/
  results : List Bool

variable {h : Host}

/-- One call. A `bun_frame_write` in a session that was never opened does not happen. -/
def Sessions.step (r : HandleRef) (s : Sessions h) : SessionEvent → Sessions h
  | .init handles tid writer arch =>
      let (ok, writer, buffer) := bunWriterInit handles tid writer s.buffer arch (some r)
      { buffer := buffer
        writers := if ok then s.writers ++ [writer] else s.writers
        results := s.results ++ [ok] }
  | .write i frame =>
      match s.writers[i]? with
      | none => s
      | some writer =>
          let t := (bunFrameWrite h ⟨writer, s.buffer.memory⟩ frame).2
          { s with
            buffer := s.buffer.withPayload t.mem.bytes (length_bunFrameWrite ..)
            writers := s.writers.set i t.writer }

/-- A buffer nothing has happened to yet. -/
def Sessions.fresh (buffer : BunBuffer h) : Sessions h := ⟨buffer, [], []⟩

/-- All calls of a history, in order. -/
def Sessions.run (r : HandleRef) (s : Sessions h) (events : List SessionEvent) : Sessions h :=
  events.foldl (step r) s

/-! ## Callers with handles of their own

Here nobody writes and everybody may pass another handle, or `NULL`. -/

/-- A `bun_writer_init` by thread `tid`, into a writer that holds `writer`. -/
structure InitCall where
  tid : UInt32
  writer : BunWriter
  arch : BunArchitecture
  handle : Option HandleRef

/-- The result, the writer and the buffer. -/
def InitCall.run (handles : HandleRef → BunHandle) (c : InitCall) (buffer : BunBuffer h) :
    Bool × BunWriter × BunBuffer h :=
  bunWriterInit handles c.tid c.writer buffer c.arch c.handle

/-- The buffer after all the calls, in order. -/
def initAll (handles : HandleRef → BunHandle) (buffer : BunBuffer h) (calls : List InitCall) :
    BunBuffer h :=
  calls.foldl (fun buffer c => (c.run handles buffer).2.2) buffer

end LibBun
