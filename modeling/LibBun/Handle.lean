import LibBun.Lib.Heap
import LibBun.Lib.Protocol
import LibBun.Backend.Libbacktrace
import LibBun.Backend.Libunwind
import LibBun.Backend.Libunwindstack

/-!
# Handles

A handle is four function pointers and a block of memory. `bun_handle_init` sets all of
it to zero and has the backend fill in what it has: no backend has everything, and what
is left out stays `NULL`. The other functions of `bun.c` call through a pointer without
a look at it. The block is the libunwind backend's; it is released by the destructor,
which leaves the pointer to it where it is.

What a C program must not do is not an error that it could look at: calling through a
pointer that points to no function, releasing a block twice, and following a pointer to
a block that was released are `none` here.
-/

namespace LibBun

inductive UnwindFn where
  | libunwindUnwind
  | libbacktraceUnwind
  | libunwindstackUnwind
deriving DecidableEq

inductive UnwindContextFn where
  | libunwindstackUnwindContext
deriving DecidableEq

inductive UnwindRemoteFn where
  | libunwindUnwindRemote
  | libunwindstackUnwindRemote
deriving DecidableEq

/-- The two functions called `destroy_handle`, and `libbacktrace_destroy`. -/
inductive HandleDestructorFn where
  | libunwindDestroyHandle
  | libbacktraceDestroy
  | libunwindstackDestroyHandle
deriving DecidableEq

/--
`struct bun_handle`. A pointer that is `none` cannot be followed: it is `NULL`, or what
happened to be in memory that was never initialised.
-/
structure Handle extends BunHandle where
  unwind : Option UnwindFn
  unwindContext : Option UnwindContextFn
  unwindRemote : Option UnwindRemoteFn
  destroy : Option HandleDestructorFn
  /-- The number of the block it points to. -/
  backendContext : Option Nat
deriving DecidableEq

/-- A handle of zero bytes. -/
def Handle.zero : Handle :=
  { flags := 0, unwind := none, unwindContext := none, unwindRemote := none, destroy := none,
    backendContext := none }

/-- How the library was compiled. -/
structure Build where
  /-- `BUN_LIBUNWIND_ENABLED` and the two like it. -/
  enabled : BunUnwindBackend → Bool
  /--
  `BUN_ARCH_DETECTED`. The code that the compiler's macros select is taken to be that of the
  same architecture, as it is wherever the build script knows the processor.
  -/
  arch : BunArchitecture

/-- The handles of a process, and what has been allocated for them. -/
structure Process where
  handles : HandleRef → Handle
  heap : Heap
  /-- The number of calls of `unw_create_addr_space`, those that return `NULL` included. -/
  addrSpaces : Nat

/-- A process in which nothing has been initialised. -/
def Process.start : Process := ⟨fun _ => Handle.zero, Heap.empty, 0⟩

namespace Process

/-- The process with another handle in one place. -/
def set (p : Process) (r : HandleRef) (handle : Handle) : Process :=
  { p with handles := Function.update p.handles r handle }

/-- `free`, which does nothing for `NULL`. -/
def free (p : Process) (b : Option Nat) : Option Process :=
  match b with
  | none => some p
  | some b => (p.heap.free b).map fun heap => { p with heap := heap }

/-- The handles, as far as the stream code looks at them. -/
def bunHandles (p : Process) (r : HandleRef) : BunHandle := (p.handles r).toBunHandle

end Process

/-! ## From initialisation to destruction -/

/-- `bun_internal_initialize_libunwind`; `malloc` is whether there is memory. -/
def bunInternalInitializeLibunwind (malloc : Bool) (p : Process) (r : HandleRef) :
    Bool × Process :=
  if malloc = false then
    (false, p)
  else
    let context := p.heap.next
    let p := { p with heap := p.heap.alloc, addrSpaces := p.addrSpaces + 1 }
    (true, p.set r { p.handles r with
      backendContext := some context
      unwind := some .libunwindUnwind
      unwindRemote := some .libunwindUnwindRemote
      destroy := some .libunwindDestroyHandle })

/-- `bun_internal_initialize_libbacktrace`. -/
def bunInternalInitializeLibbacktrace (p : Process) (r : HandleRef) : Bool × Process :=
  (true, p.set r { p.handles r with
    unwind := some .libbacktraceUnwind
    destroy := some .libbacktraceDestroy })

/-- `bun_internal_initialize_libunwindstack`; there is no such backend on x86. -/
def bunInternalInitializeLibunwindstack (arch : BunArchitecture) (p : Process) (r : HandleRef) :
    Bool × Process :=
  if arch = .x86 then
    (false, p)
  else
    (true, p.set r { p.handles r with
      unwind := some .libunwindstackUnwind
      unwindContext := some .libunwindstackUnwindContext
      unwindRemote := some .libunwindstackUnwindRemote
      destroy := some .libunwindstackDestroyHandle })

/-- `bun_handle_init`. -/
def bunHandleInit (build : Build) (malloc : Bool) (p : Process) (r : HandleRef)
    (backend : BunUnwindBackend) : Bool × Process :=
  let p := p.set r Handle.zero
  if build.enabled backend = false then
    (false, p)
  else
    match backend with
    | .libunwind => bunInternalInitializeLibunwind malloc p r
    | .libbacktrace => bunInternalInitializeLibbacktrace p r
    | .libunwindstack => bunInternalInitializeLibunwindstack build.arch p r
    | .none => (false, p)

/-- `bun_handle_deinit`. -/
def bunHandleDeinit (p : Process) (r : HandleRef) : Option Process :=
  match (p.handles r).destroy with
  | none => none
  | some .libunwindDestroyHandle => p.free (p.handles r).backendContext
  | some .libbacktraceDestroy => some p
  | some .libunwindstackDestroyHandle => some p

/-! ## Unwinding -/

/-- What the unwinders answer to a call, whichever of them is asked. -/
structure UnwindAnswers where
  libunwind : List UnwStep
  libunwindRemote : UnwRemoteAnswers
  libbacktrace : BacktraceAnswers
  libunwindstack : LocalAnswers
  libunwindstackContext : ContextAnswers
  libunwindstackRemote : RemoteAnswers

section

variable {h : Host} (build : Build) (p : Process) (self : UInt32) (locals : Locals)
  (buffer : BunBuffer h) (r : HandleRef) (answers : UnwindAnswers)

/-- `bun_unwind`, called by thread `self`. -/
def bunUnwind : Option (Unwound h) :=
  match (p.handles r).unwind with
  | none => none
  | some .libunwindUnwind =>
      some (libunwindUnwindImpl p.bunHandles self locals buffer build.arch (some r) self .required
        answers.libunwind)
  | some .libbacktraceUnwind =>
      some (libbacktraceUnwind p.bunHandles self locals buffer build.arch (some r)
        answers.libbacktrace)
  | some .libunwindstackUnwind =>
      some (libunwindstackUnwind p.bunHandles self locals buffer build.arch (some r)
        answers.libunwindstack)

/-- `bun_unwind_context`. -/
def bunUnwindContext : Option (Unwound h) :=
  match (p.handles r).unwindContext with
  | none => none
  | some .libunwindstackUnwindContext =>
      some (libunwindstackUnwindContext p.bunHandles self locals buffer build.arch (some r)
        answers.libunwindstackContext)

/-- `libunwind_unwind_remote` gets to `unw_init_remote`, and follows `backend_context` for it. -/
def UnwRemoteAnswers.getsToInit (answers : UnwRemoteAnswers) (tid : UInt32) (fuel : Nat) : Bool :=
  answers.attached
    && (bunWaitpid (pidT tid) 5000 answers.wait fuel).any fun r => decide (¬r < 0)

/-- The block a pointer points to is live. -/
def Process.liveContext (p : Process) (context : Option Nat) : Bool :=
  context.any fun b => decide (b ∈ p.heap.live)

/--
`bun_unwind_remote`, on thread `pid`. The call itself may still be waiting after `fuel`
iterations; then there is no result yet.
-/
def bunUnwindRemote (pid : UInt32) (fuel : Nat) : Option (Option (Unwound h)) :=
  match (p.handles r).unwindRemote with
  | none => none
  | some .libunwindUnwindRemote =>
      if answers.libunwindRemote.getsToInit pid fuel = true
          ∧ p.liveContext (p.handles r).backendContext = false then
        none
      else
        some (libunwindUnwindRemote p.bunHandles self locals buffer build.arch (some r) pid
          answers.libunwindRemote fuel)
  | some .libunwindstackUnwindRemote =>
      some (some (libunwindstackUnwindRemote p.bunHandles self locals buffer build.arch (some r)
        pid answers.libunwindstackRemote))

end

/-! ## What a process does with its handles -/

/-- A call on a handle, or a change of its flags by the program. -/
inductive HandleOp (h : Host) where
  | init (backend : BunUnwindBackend) (malloc : Bool)
  | setFlags (flags : UInt64)
  | deinit
  | unwind (self : UInt32) (locals : Locals) (buffer : BunBuffer h) (answers : UnwindAnswers)
  | unwindContext (self : UInt32) (locals : Locals) (buffer : BunBuffer h)
      (answers : UnwindAnswers)
  | unwindRemote (self : UInt32) (locals : Locals) (buffer : BunBuffer h)
      (answers : UnwindAnswers) (pid : UInt32) (fuel : Nat)

/-- The process after one of them. What an unwind leaves in its buffer is not part of it. -/
def Process.step {h : Host} (build : Build) : Protocol Process (HandleRef × HandleOp h) :=
  fun p (r, op) =>
    match op with
    | .init backend malloc => some (bunHandleInit build malloc p r backend).2
    | .setFlags flags => some (p.set r { p.handles r with flags := flags })
    | .deinit => bunHandleDeinit p r
    | .unwind self locals buffer answers =>
        (bunUnwind build p self locals buffer r answers).map fun _ => p
    | .unwindContext self locals buffer answers =>
        (bunUnwindContext build p self locals buffer r answers).map fun _ => p
    | .unwindRemote self locals buffer answers pid fuel =>
        (bunUnwindRemote build p self locals buffer r answers pid fuel).map fun _ => p

end LibBun
