import LibBun.Feed

/-!
# Callers racing for one buffer

A signal can be delivered to several threads at once, and then their handlers call
`bun_writer_init` on one buffer at the same time. `LibBun.Session` takes such a call
as one step. Here it is taken apart into its accesses to the memory of the buffer: the
first test of the bound handle, the comparison, the store, the second test, the load of
the flags, and the `atomic_fetch_add`. The accesses of different callers fall between
one another in any order; that there is one order is assumed of the hardware.

A caller that is let in goes on to store the header and what its `bun_frame_write` and
header calls store, one store at a time. Readers may be opened and may call
`bun_frame_read` in between, from the first moment on.
-/

namespace LibBun

/-- Somebody who calls `bun_writer_init`, and what calls it makes if it is let in. -/
structure Caller where
  tid : UInt32
  arch : BunArchitecture
  handle : Option HandleRef
  ops : List WriterOp

/-- Where a caller is: in front of one of the accesses, or through with them. -/
inductive InitPoint where
  /-- In front of `buffer->size < sizeof(struct bun_payload_header)`. -/
  | size
  /-- In front of `buffer_payload->handle != NULL`, the first of the two. -/
  | bound
  /-- In front of `handle != buffer_payload->handle`. -/
  | compare
  /-- In front of `buffer_payload->handle = handle`. -/
  | bind
  /-- In front of `buffer_payload->handle != NULL`, the second. -/
  | rebound
  /-- In front of `buffer_payload->handle->flags`. -/
  | flags
  /-- In front of `atomic_fetch_add(&buffer_payload->write_count, 1)`. -/
  | count
  /-- Let in, with these stores to make. -/
  | inside (pending : List ByteStore)
  /-- `bun_writer_init` returned false without counting the attempt. -/
  | turnedAway
  /-- `bun_writer_init` returned false for what it found in the counter. -/
  | countedOut

variable {h : Host}

namespace Caller

/-- The session of a caller that is let in, when the header is filled in. -/
def session (c : Caller) (buffer : BunBuffer h) : WriterState :=
  { writer :=
      { data :=
          { buffer := 0
            cursor := headerSize
            size := bunBufferPayloadSize buffer
            handle := c.handle
            overflow := false } }
    mem := initHeader buffer.memory c.arch c.tid }

/--
All that the caller stores in the payload once it is let in, as it does when nobody else
stores anything there.
-/
def stores (c : Caller) (buffer : BunBuffer h) : List ByteStore :=
  (c.ops.foldl (WriterOp.apply h) (c.session buffer)).mem.log

/-- One access; `none` is a `NULL` that is looked through. -/
def access (handles : HandleRef → BunHandle) (c : Caller) (buffer : BunBuffer h) :
    InitPoint → Option (InitPoint × BunBuffer h)
  | .size => some (if buffer.size < headerSize then .turnedAway else .bound, buffer)
  | .bound =>
      if buffer.handle ≠ none then
        some (if c.handle ≠ none then .compare else .rebound, buffer)
      else
        some (if c.handle ≠ none then .bind else .rebound, buffer)
  | .compare => some (if c.handle ≠ buffer.handle then .turnedAway else .rebound, buffer)
  | .bind => some (.rebound, { buffer with handle := c.handle })
  | .rebound => some (if buffer.handle ≠ none then .flags else .inside (c.stores buffer), buffer)
  | .flags =>
      match buffer.handle with
      | none => none
      | some r =>
          if (handles r).flags &&& bunHandleWriteOnce ≠ 0 then
            some (.count, buffer)
          else
            some (.inside (c.stores buffer), buffer)
  | .count =>
      let last := Int.bmod buffer.writeCount.toNat (2 ^ 32)
      let buffer := { buffer with writeCount := buffer.writeCount + 1 }
      some (if last > 0 then .countedOut else .inside (c.stores buffer), buffer)
  | .inside [] => some (.inside [], buffer)
  | .inside (st :: pending) =>
      some (.inside pending, buffer.withPayload (Region.patch buffer.payload st.addr st.cells)
        (Region.length_patch ..))
  | .turnedAway => some (.turnedAway, buffer)
  | .countedOut => some (.countedOut, buffer)

end Caller

/-- A caller and where it is. -/
structure Contender where
  caller : Caller
  point : InitPoint

/-- What happens next. -/
inductive RaceEvent where
  /-- The `i`-th caller makes its next access. -/
  | caller (i : Nat)
  /-- `bun_reader_init` of the `i`-th reader. -/
  | readerInit (i : Nat) (handle : Option HandleRef)
  /-- `bun_frame_read` by the `i`-th reader. -/
  | frameRead (i : Nat) (frame : BunFrame)

/-- The event is the `i`-th caller's. -/
def RaceEvent.isBy (i : Nat) : RaceEvent → Bool
  | caller j => i == j
  | readerInit .. => false
  | frameRead .. => false

/-- A buffer, those who want to write to it, and those who read it. -/
structure Race (h : Host) where
  buffer : BunBuffer h
  contenders : List Contender
  readers : Nat → Option BunReader
  /-- What each reader has been given since it was opened, in order. -/
  delivered : Nat → List FrameContent

namespace Race

/-- Everybody is in front of the first access, and nobody reads yet. -/
def start (buffer : BunBuffer h) (callers : List Caller) : Race h :=
  ⟨buffer, callers.map fun c => ⟨c, .size⟩, fun _ => none, fun _ => []⟩

/-- The race as its readers see it, when these stores are to be made. -/
def feed (s : Race h) (pending : List ByteStore) : Feed h :=
  ⟨s.buffer, pending, s.readers, s.delivered⟩

/-- A reader's turn. -/
def watch (s : Race h) (e : FeedEvent) : Option (Race h) := do
  let feed ← (s.feed []).step e
  return { s with readers := feed.readers, delivered := feed.delivered }

/-- One event; `none` is a read outside the payload or through `NULL`. -/
def step (handles : HandleRef → BunHandle) (s : Race h) : RaceEvent → Option (Race h)
  | .caller i =>
      match s.contenders[i]? with
      | none => some s
      | some c => do
          let (point, buffer) ← c.caller.access handles s.buffer c.point
          return { s with
            buffer := buffer
            contenders := s.contenders.set i { c with point := point } }
  | .readerInit i handle => s.watch (.readerInit i handle)
  | .frameRead i frame => s.watch (.frameRead i frame)

/-- All events, in order. -/
def run (handles : HandleRef → BunHandle) (s : Race h) (events : List RaceEvent) :
    Option (Race h) :=
  events.foldlM (step handles) s

end Race

end LibBun
