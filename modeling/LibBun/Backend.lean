import LibBun.Buffer

/-!
# What the backends have in common

An entry point of a backend runs a third-party unwinder and writes the frames it
comes up with. The unwinder is not part of the library, so what its calls answer
is a parameter here, and an entry point is a function of these answers. It is also
a function of what its local variables held before they were initialised: some of
them are read all the same, and `Locals` is what is found in them.

Every entry point begins by opening a session on the buffer and ends by returning
the size in the header, or 0. `runSession` is these two ends.
-/

namespace LibBun

/-- `enum bun_register`, in the order of the enumeration. -/
inductive BunRegister where
  | x86_64Rax | x86_64Rbx | x86_64Rcx | x86_64Rdx | x86_64Rsi | x86_64Rdi | x86_64Rbp | x86_64Rsp
  | x86_64R8 | x86_64R9 | x86_64R10 | x86_64R11 | x86_64R12 | x86_64R13 | x86_64R14 | x86_64R15
  | x86_64Rip
  | x86Eax | x86Ebx | x86Ecx | x86Edx | x86Esi | x86Edi | x86Ebp | x86Esp | x86Eip
  | aarch64X0 | aarch64X1 | aarch64X2 | aarch64X3 | aarch64X4 | aarch64X5 | aarch64X6 | aarch64X7
  | aarch64X8 | aarch64X9 | aarch64X10 | aarch64X11 | aarch64X12 | aarch64X13 | aarch64X14
  | aarch64X15 | aarch64X16 | aarch64X17 | aarch64X18 | aarch64X19 | aarch64X20 | aarch64X21
  | aarch64X22 | aarch64X23 | aarch64X24 | aarch64X25 | aarch64X26 | aarch64X27 | aarch64X28
  | aarch64X29 | aarch64X30 | aarch64X31 | aarch64Pc | aarch64Pstate
  | armR0 | armR1 | armR2 | armR3 | armR4 | armR5 | armR6 | armR7 | armR8 | armR9 | armR10 | armR11
  | armR12 | armR13 | armR14 | armR15 | armPstate

/-- The value of a register enumerator. -/
def BunRegister.toNat (r : BunRegister) : Nat := r.ctorIdx

/-! ## Strings -/

/-- The first `n` characters of a string. -/
def CString.take (s : CString) (n : Nat) : CString :=
  ⟨s.1.take n, fun hmem => s.2 (List.mem_of_mem_take hmem)⟩

/-- The string literal `"<unknown>"`. -/
def CString.unknown : CString :=
  ⟨[0x3c, 0x75, 0x6e, 0x6b, 0x6e, 0x6f, 0x77, 0x6e, 0x3e], by decide⟩

/-- A pointer to a string of the entry point's own. -/
def CString.ptr (s : CString) : CharPtr := ⟨0, s⟩

/--
`bun_unwind_demangle`: the string left in a destination of `destSize` bytes, or
`none` if it returns false. `demangled` is what `__cxa_demangle` comes up with.
-/
def bunUnwindDemangle (destSize : Nat) (demangled : Option CString) : Option CString :=
  match demangled with
  | some result => if result.1.length ≥ destSize then none else some result
  | none => none

/-! ## Entry points -/

/--
What the uninitialised locals of an entry point hold. Those declared in a loop are
new in every iteration. An entry point looks only at those it has.
-/
structure Locals where
  /-- `writer`, or `bt_ctx.writer`. -/
  writer : BunWriter
  /-- `ip` of `libunwind_unwind_impl`. -/
  ip : Nat → UInt64
  /-- `off` of `libunwind_unwind_impl`. -/
  off : Nat → UInt64
  /-- `register_buf` of `libunwindstack_write_frame`. -/
  registerBuf : Nat → { bytes : List UInt8 // bytes.length = 340 }
  /-- `adjusted_relative_pc` of `libunwindstack_unwind_context`. -/
  adjustedRelativePc : Nat → UInt64
  /-- What `WIFSTOPPED` makes of `waitpid_status` of `libunwindstack_unwind_remote`. -/
  waitpidStopped : Bool

/-- A call to the outside whose arguments the entry point computes. -/
inductive ExternalCall where
  | ptraceAttach (pid : UInt32)
  | ptraceDetach (pid : UInt32)
  | dladdr (ip : UInt64)
  /-- `elf->Step(adjusted_relative_pc, relative_pc, ...)`. -/
  | elfStep (adjustedRelativePc relativePc : UInt64)
deriving DecidableEq

/-- Where the part of an entry point between its two ends stops. -/
structure Session where
  /-- It got to the last line of the entry point. -/
  finished : Bool
  state : WriterState
  calls : List ExternalCall

/-- What an entry point returns and leaves behind. -/
structure Unwound (h : Host) where
  ret : Nat
  buffer : BunBuffer h
  calls : List ExternalCall

/--
An entry point with the given part between its ends: `bun_writer_init` first, its
result thrown away, and `return hdr->size` at the end of a session that got there.
-/
def runSession {h : Host} (handles : HandleRef → BunHandle) (tid : UInt32) (writer : BunWriter)
    (buffer : BunBuffer h) (arch : BunArchitecture) (handle : Option HandleRef)
    (body : WriterState → Session)
    (hbody : ∀ s, (body s).state.mem.bytes.length = s.mem.bytes.length) : Unwound h :=
  let (_, writer, buffer) := bunWriterInit handles tid writer buffer arch handle
  let session := body ⟨writer, buffer.memory⟩
  { ret := if session.finished then HeaderField.size.get session.state.mem.bytes 0 else 0
    buffer := buffer.withPayload session.state.mem.bytes (hbody _)
    calls := session.calls }

end LibBun
