import LibBun.Grammar
import Mathlib.Logic.Function.Basic

/-!
# Readers that follow a writer

The memory of a buffer can be shared: `bun_memfd_create` makes memory another process
can map, and a reader there need not wait until the session is over. What such a
reader finds is the stores of the writer up to some moment, and the moment may lie
between any two of them.

A **feed** is a buffer, the stores the writer has still to make, and readers that
come and go in the meantime. Each event is one store or one call by some reader; the
events may come in any order.
-/

namespace LibBun

/-- What happens next. -/
inductive FeedEvent where
  /-- The next store of the writer reaches the memory. -/
  | store
  /-- `bun_reader_init` of the `i`-th reader. -/
  | readerInit (i : Nat) (handle : Option HandleRef)
  /-- `bun_frame_read` by the `i`-th reader, into a structure with any content. -/
  | frameRead (i : Nat) (frame : BunFrame)

/-- A buffer that is being written to, and those who read it. -/
structure Feed (h : Host) where
  buffer : BunBuffer h
  /-- The stores the writer has not made yet, in program order. -/
  pending : List ByteStore
  /-- The readers that were opened. -/
  readers : Nat → Option BunReader
  /-- What each reader has been given since it was opened, in order. -/
  delivered : Nat → List FrameContent

namespace Feed

variable {h : Host}

/-- A session's first moment: all its stores are still to come, and nobody reads yet. -/
def start (buffer : BunBuffer h) (stores : List ByteStore) : Feed h :=
  ⟨buffer, stores, fun _ => none, fun _ => []⟩

/-- One event; `none` is a read outside the payload. A reader never opened reads nothing. -/
def step (s : Feed h) : FeedEvent → Option (Feed h)
  | .store =>
      match s.pending with
      | [] => some s
      | st :: pending =>
          some { s with
            buffer := s.buffer.withPayload (Region.patch s.buffer.payload st.addr st.cells)
              (Region.length_patch ..)
            pending := pending }
  | .readerInit i handle => do
      let (ok, reader) ← bunReaderInit ((s.readers i).getD unopenedReader) s.buffer handle
      if ok = true then
        return { s with
          readers := Function.update s.readers i (some reader)
          delivered := Function.update s.delivered i [] }
      else
        return s
  | .frameRead i frame =>
      match s.readers i with
      | none => some s
      | some reader => do
          let (ok, reader, frame) ← bunFrameRead h s.buffer.payload reader frame
          let delivered := if ok = true then s.delivered i ++ [frame.content h] else s.delivered i
          return { s with
            readers := Function.update s.readers i (some reader)
            delivered := Function.update s.delivered i delivered }

/-- All events, in order. -/
def run (s : Feed h) (events : List FeedEvent) : Option (Feed h) := events.foldlM step s

end Feed

end LibBun
