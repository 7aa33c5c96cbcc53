import LibBun.Handle

/-!
# Programs that unwind

A program has handles and buffers of its own, and the library brings them together for
the time of a call. What a program may do is wider than what works: every call is for
the handle and the buffer that are passed, in whatever state they have been left.

The writer of an entry point is a local variable. `bun_writer_init` sets it when it
opens a session, and no entry point looks whether it did: the first thing each of them
does is to follow the pointer in the writer. A call that gets to its entry point and is
refused a session there follows a pointer that was never set, and is `none`, as what is
undefined is for handles. So is every call for a buffer that was never initialised, and a
call that is still waiting for a thread.

Buffers of a program do not overlap.
-/

namespace LibBun

/-- A buffer of a program, by number. -/
abbrev BufferRef : Type := Nat

/-- The three functions that unwind, with what they are passed besides handle and buffer. -/
inductive UnwindCall where
  | unwind
  | unwindContext
  | unwindRemote (pid : UInt32) (fuel : Nat)

/-- A call of one of them by thread `self`, and what it meets. -/
structure Unwinding where
  call : UnwindCall
  self : UInt32
  locals : Locals
  answers : UnwindAnswers

namespace Unwinding

variable {h : Host} (x : Unwinding) (build : Build) (p : Process) (buffer : BunBuffer h)
  (r : HandleRef)

/-- The call. It has not returned yet if the inner result is `none`. -/
def run : Option (Option (Unwound h)) :=
  match x.call with
  | .unwind => (bunUnwind build p x.self x.locals buffer r x.answers).map some
  | .unwindContext => (bunUnwindContext build p x.self x.locals buffer r x.answers).map some
  | .unwindRemote pid fuel => bunUnwindRemote build p x.self x.locals buffer r x.answers pid fuel

/-- It gets to `bun_writer_init`, which `libunwind_unwind_remote` may not. -/
def enters : Bool :=
  match x.call, (p.handles r).unwindRemote with
  | .unwindRemote pid fuel, some .libunwindUnwindRemote =>
      x.answers.libunwindRemote.getsToInit pid fuel && x.answers.libunwindRemote.init
  | _, _ => true

/-- `bun_writer_init` returns false to it. -/
def refused : Bool :=
  !(bunWriterInit p.bunHandles x.self x.locals.writer buffer build.arch (some r)).1

end Unwinding

/-- A program: its handles and what is allocated for them, and its buffers. -/
structure Program (h : Host) where
  process : Process
  /-- Those that were initialised. -/
  buffers : BufferRef → Option (BunBuffer h)

/-- A program in which nothing has been initialised. -/
def Program.start {h : Host} : Program h := ⟨Process.start, fun _ => none⟩

/-- A call of the library, or a change of the flags of a handle. -/
inductive ProgramOp (h : Host) where
  | handleInit (r : HandleRef) (backend : BunUnwindBackend) (malloc : Bool)
  | setFlags (r : HandleRef) (flags : UInt64)
  | handleDeinit (r : HandleRef)
  | bufferInit (b : BufferRef) (data : CObject h)
  | unwind (r : HandleRef) (b : BufferRef) (x : Unwinding)

/-- The program after it. -/
def Program.step {h : Host} (build : Build) : Protocol (Program h) (ProgramOp h) := fun p op =>
  match op with
  | .handleInit r backend malloc =>
      some { p with process := (bunHandleInit build malloc p.process r backend).2 }
  | .setFlags r flags =>
      some { p with process := p.process.set r { p.process.handles r with flags := flags } }
  | .handleDeinit r =>
      (bunHandleDeinit p.process r).map fun process => { p with process := process }
  | .bufferInit b data =>
      match bunBufferInit data with
      | none => some p
      | some buffer => some { p with buffers := Function.update p.buffers b (some buffer) }
  | .unwind r b x =>
      match p.buffers b with
      | none => none
      | some buffer =>
          if x.enters p.process r = true ∧ x.refused build p.process buffer r = true then
            none
          else
            (x.run build p.process buffer r).join.map fun u =>
              { p with buffers := Function.update p.buffers b (some u.buffer) }

end LibBun
