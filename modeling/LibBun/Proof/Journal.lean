import LibBun.Calls
import LibBun.Proof.RoundTrip

/-!
# What a buffer is for

The purpose of all the cursor work, stated without cursors, bytes or offsets. A buffer
is a **journal**: it is bound to at most one handle, it counts attempts where the handle
asks for that, and it has at most one session at a time. A session is a list of frames
in the order they were accepted, a thread id and a backend; there are any number of
readers, each of which has come so far in the list.

Two things of the code can be seen even at this distance. A frame goes in when its
encoding fits, but what it adds to the declared size is less than that by the
shortfall of the estimate. And a reader is given the next frame only if that frame
starts below the declared size, so the last frames of a session may be in the list and
not come out.

A new session takes the place of the one before. A reader that has not been given
anything begins with the new one; one that has is left over, in the middle of something
else, and what it is given from then on the journal does not say. The header is the
same for all of them, and every writer may set its fields. But only the writer of the
session may write frames, and a frame that does not fit is turned away here, where the
code does not always follow: `Journal.Allows` is the condition under which it does.
-/

namespace LibBun

/-- One session of a journal. -/
structure JournalSession where
  /-- The frames that were accepted. -/
  frames : List FrameContent
  /-- The size in the header. -/
  declared : Nat
  tid : UInt32
  backend : BunUnwindBackend

/-- A buffer, seen from far enough. -/
structure Journal where
  handle : Option HandleRef
  /-- The attempts made while a write-once handle was bound. -/
  attempts : Nat
  /-- The number of sessions, and of writers, up to now. -/
  sessions : Nat
  /-- The session in progress. -/
  session : Option JournalSession
  /-- How many of its frames each reader has been given, unless it is left over. -/
  readers : List (Option Nat)

namespace Journal

/-- Nothing has happened. -/
def blank : Journal := ⟨none, 0, 0, none, []⟩

/-- Where the stream of these frames ends. -/
def endOf (frames : List FrameContent) : Nat :=
  headerSize + (frames.map FrameContent.length).sum

/-- What a new session makes of a reader. -/
def carried : Option Nat → Option Nat
  | some 0 => some 0
  | some (_ + 1) => none
  | none => none

/-- A call on the `k`-th writer, and what it does to the session in progress. -/
def byWriter (l : Journal) (k : Nat) (act : JournalSession → CallResult × JournalSession) :
    Option CallResult × Journal :=
  match l.session with
  | none => (some .missing, l)
  | some session =>
      if k < l.sessions then (some (act session).1, { l with session := some (act session).2 })
      else (some .missing, l)

/-- `bun_frame_write`, in a session with `cap` bytes. -/
def write (h : Host) (cap : Nat) (frame : BunFrame) (session : JournalSession) :
    CallResult × JournalSession :=
  if endOf session.frames + frame.encodedLength ≤ cap then
    let written := frame.encodedLength - h.shortfall
    (.written written, { session with
      frames := session.frames ++ [frame.content h]
      declared := (session.declared + written) % 2 ^ 32 })
  else
    (.written 0, session)

/-- `bun_frame_read` by the `i`-th reader. -/
def read (l : Journal) (i : Nat) : Option CallResult × Journal :=
  match l.session, l.readers[i]? with
  | some session, some (some n) =>
      if endOf (session.frames.take n) < session.declared then
        (some (.frame session.frames[n]?), { l with readers := l.readers.set i (some (n + 1)) })
      else
        (some (.frame none), l)
  | some _, some none => (none, l)
  | _, _ => (some .missing, l)

/-- A field of the header that the `i`-th reader asks for. -/
def get (l : Journal) (i : Nat) (value : JournalSession → Int) : Option CallResult × Journal :=
  match l.session, l.readers[i]? with
  | some session, some _ => (some (.value (value session)), l)
  | _, _ => (some .missing, l)

/-- One call, on a buffer with a payload of `cap` bytes. The result is `none` if it is left open. -/
def call (h : Host) (cap : Nat) (l : Journal) : BufferCall → Option CallResult × Journal
  | .writerInit handles tid _ _ handle =>
      match bindHandle l.handle handle with
      | none => (some (.opened false), l)
      | some bound =>
          let once := isWriteOnce handles bound
          let attempts := if once then l.attempts + 1 else l.attempts
          -- the counter has 32 bits, and what was in it is looked at as an `int`
          if once ∧ Int.bmod l.attempts (2 ^ 32) > 0 then
            (some (.opened false), { l with handle := bound, attempts := attempts })
          else
            (some (.opened true),
              { handle := bound
                attempts := attempts
                sessions := l.sessions + 1
                session := some ⟨[], headerSize, tid, .none⟩
                readers := l.readers.map carried })
  | .frameWrite k frame => l.byWriter k (write h cap frame)
  | .tidSet k tid => l.byWriter k fun session => (.done, { session with tid := tid })
  | .backendSet k backend =>
      l.byWriter k fun session => (.done, { session with backend := backend })
  | .readerInit _ _ =>
      match l.session with
      | none => (some (.opened false), l)
      | some _ => (some (.opened true), { l with readers := l.readers ++ [some 0] })
  | .frameRead i _ => l.read i
  | .tidGet i => l.get i fun session => session.tid.toNat
  | .backendGet i => l.get i fun session => session.backend.toUInt16

/--
The call is one the code gets right: a frame is as the interface asks for, its writer is
that of the session in progress, and it fits, or the estimate turns it away.
-/
def Allows (h : Host) (cap : Nat) (l : Journal) : BufferCall → Prop
  | .frameWrite k frame => frame.WellFormed h ∧ ∀ session, l.session = some session →
      k < l.sessions → k + 1 = l.sessions
        ∧ (endOf session.frames + frame.encodedLength ≤ cap
          ∨ cap - endOf session.frames < (frame.encodedLength - h.shortfall) % h.sizeMod)
  | _ => True

/-- What a call returns is what the journal says, or anything short of a fault. -/
def Foretells : Option CallResult → CallResult → Prop
  | some said, result => result = said
  | none, result => result ≠ .fault

end Journal

end LibBun
