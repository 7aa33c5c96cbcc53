import LibBun.Backend
import LibBun.Waitpid

/-!
# The libunwind backend

The loop of `libunwind_unwind_impl` takes a step, asks for the program counter, a
name and the registers, and writes a frame. What a look-up that fails does not
store stays as it was on the stack, and so does the writer when `bun_writer_init`
returns false.
-/

namespace LibBun

/-- `enum bun_unwind_signal_safety`. -/
inductive BunUnwindSignalSafety where
  | notRequired
  | required
deriving DecidableEq

/-- What `unw_get_proc_name` does. -/
inductive ProcName where
  /-- It returns 0 or `UNW_ENOMEM`, with a name that fits `symbol`. -/
  | stored (name : CString) (off : UInt64) (name_lt : name.1.length < 256)
  | failed

/-- What the calls made after one step answer. -/
structure UnwStep where
  /-- `unw_get_reg` for `UNW_REG_IP`; `none` if it fails. -/
  ip : Option UInt64
  procName : ProcName
  /-- `dli_sname`, if `dladdr` succeeds and it is not `NULL`. -/
  dliSname : Option CString
  /-- `__cxa_demangle` on the name. -/
  demangled : Option CString
  /-- `unw_get_reg` for the registers of the map, by their place in it. -/
  registers : Nat → Option UInt64

/-- `register_map` of an architecture; the source goes by the macros of the compiler. -/
def registerMap : BunArchitecture → List BunRegister
  | .unknown => []
  | .x86 => [.x86Eax, .x86Ebx, .x86Ecx, .x86Edx, .x86Esi, .x86Edi, .x86Ebp, .x86Esp, .x86Eip,
      -- `BUN_REGISTER_X86_END` is another name of the last register
      .x86Eip]
  | .x86_64 => [.x86_64Rax, .x86_64Rbx, .x86_64Rcx, .x86_64Rdx, .x86_64Rsi, .x86_64Rdi, .x86_64Rbp,
      .x86_64R8, .x86_64R9, .x86_64R10, .x86_64R11, .x86_64R12, .x86_64R13, .x86_64R14, .x86_64R15,
      .x86_64Rip]
  | .arm => [.armR0, .armR1, .armR2, .armR3, .armR4, .armR5, .armR6, .armR7, .armR8, .armR9,
      .armR10, .armR11, .armR12, .armR13, .armR14, .armR15]
  | .arm64 => [.aarch64X0, .aarch64X1, .aarch64X2, .aarch64X3, .aarch64X4, .aarch64X5, .aarch64X6,
      .aarch64X7, .aarch64X8, .aarch64X9, .aarch64X10, .aarch64X11, .aarch64X12, .aarch64X13,
      .aarch64X14, .aarch64X15, .aarch64X16, .aarch64X17, .aarch64X18, .aarch64X19, .aarch64X20,
      .aarch64X21, .aarch64X22, .aarch64X23, .aarch64X24, .aarch64X25, .aarch64X26, .aarch64X27,
      .aarch64X28, .aarch64X29, .aarch64X30, .aarch64Pc, .aarch64Pstate]

/-- `fallback_dladdr_function_name`. -/
def fallbackDladdrFunctionName (bufferSize : Nat) (dliSname : Option CString) : CString :=
  match dliSname with
  | some name => if name.1.length ≥ bufferSize then name.take (bufferSize - 1) else name
  | none => CString.unknown

/-- The registers of the map that can be read, in the order of the map. -/
def readRegisters (arch : BunArchitecture) (step : UnwStep) : List (Nat × UInt64) :=
  (registerMap arch).zipIdx.filterMap fun (reg, i) =>
    (step.registers i).map fun value => (reg.toNat, value)

/-- `ip`, after it has been asked for in the `i`-th iteration. -/
def stepIp (locals : Locals) (i : Nat) (step : UnwStep) : UInt64 := step.ip.getD (locals.ip i)

/-- The frame of the `i`-th iteration of the loop. -/
def implFrame (h : Host) (arch : BunArchitecture) (safety : BunUnwindSignalSafety)
    (locals : Locals) (i : Nat) (step : UnwStep) : BunFrame :=
  let off :=
    match step.procName with
    | .stored _ off _ => off
    | .failed => locals.off i
  let symbol :=
    match step.procName with
    | .stored name _ _ => name
    | .failed => fallbackDladdrFunctionName 256 step.dliSname
  let symbol :=
    if safety = .notRequired then (bunUnwindDemangle 256 step.demangled).getD symbol else symbol
  let frame := { BunFrame.zero with
    symbol := some symbol.ptr
    symbolLength := symbol.1.length
    addr := stepIp locals i step
    offset := h.toSizeT off.toNat
    registerBufferSize := 512
    registerData := some ⟨0, List.replicate 512 0⟩ }
  appendRegisters h frame (readRegisters arch step)

/-- The call of `dladdr` in the `i`-th iteration, if there is one. -/
def implCalls (locals : Locals) (i : Nat) (step : UnwStep) : List ExternalCall :=
  match step.procName with
  | .stored .. => []
  | .failed => [.dladdr (stepIp locals i step)]

/--
The loop, from the `i`-th iteration on, over the steps for which `unw_step` returns a
positive number. It is not finished if a frame could not be written.
-/
def implLoop (h : Host) (arch : BunArchitecture) (safety : BunUnwindSignalSafety)
    (locals : Locals) : Nat → WriterState → List UnwStep → Session
  | _, s, [] => { finished := true, state := s, calls := [] }
  | i, s, step :: steps =>
      let calls := implCalls locals i step
      let (written, s) := bunFrameWrite h s (implFrame h arch safety locals i step)
      if written = 0 then
        { finished := false, state := s, calls := calls }
      else
        let rest := implLoop h arch safety locals (i + 1) s steps
        { rest with calls := calls ++ rest.calls }

/-- However the loop ends, some frames have been written. -/
theorem implLoop_writes (h : Host) (arch : BunArchitecture) (safety : BunUnwindSignalSafety)
    (locals : Locals) (i : Nat) (s : WriterState) (steps : List UnwStep) :
    ∃ frames, (implLoop h arch safety locals i s steps).state = (writeFrames h s frames).2 := by
  induction steps generalizing i s with
  | nil => exact ⟨[], rfl⟩
  | cons step steps ih =>
      rw [implLoop]
      dsimp only
      split
      · exact ⟨[implFrame h arch safety locals i step], rfl⟩
      · obtain ⟨frames, hframes⟩ := ih (i + 1)
          (bunFrameWrite h s (implFrame h arch safety locals i step)).2
        exact ⟨implFrame h arch safety locals i step :: frames, hframes⟩

/-- `libunwind_unwind_impl`, between its ends. -/
def libunwindSession (h : Host) (arch : BunArchitecture) (tid : UInt32)
    (safety : BunUnwindSignalSafety) (locals : Locals) (steps : List UnwStep) (s : WriterState) :
    Session :=
  let s := bunHeaderBackendSet s .libunwind
  let s := bunHeaderTidSet s tid
  implLoop h arch safety locals 0 s steps

theorem libunwindSession_writes (h : Host) (arch : BunArchitecture) (tid : UInt32)
    (safety : BunUnwindSignalSafety) (locals : Locals) (steps : List UnwStep) (s : WriterState) :
    ∃ frames, (libunwindSession h arch tid safety locals steps s).state
      = (writeFrames h (bunHeaderTidSet (bunHeaderBackendSet s .libunwind) tid) frames).2 :=
  implLoop_writes h arch safety locals 0 _ steps

/-- `libunwind_unwind_impl` for thread `tid`, run by thread `self`. -/
def libunwindUnwindImpl {h : Host} (handles : HandleRef → BunHandle) (self : UInt32)
    (locals : Locals) (buffer : BunBuffer h) (arch : BunArchitecture) (handle : Option HandleRef)
    (tid : UInt32) (safety : BunUnwindSignalSafety) (steps : List UnwStep) : Unwound h :=
  runSession handles self locals.writer buffer arch handle
    (libunwindSession h arch tid safety locals steps)
    fun s => by
      obtain ⟨frames, hstate⟩ := libunwindSession_writes h arch tid safety locals steps s
      rw [hstate, length_writeFrames, bunHeaderTidSet, WriterState.length_setField,
        bunHeaderBackendSet, WriterState.length_setField]

/-! ## Another thread -/

/-- What the calls of `libunwind_unwind_remote` answer. -/
structure UnwRemoteAnswers where
  /-- `PTRACE_ATTACH` succeeds. -/
  attached : Bool
  /-- The calls of `bun_waitpid`. -/
  wait : Nat → WaitAnswer
  /-- `unw_init_remote` returns 0. -/
  init : Bool
  steps : List UnwStep

/-- A thread id as a `pid_t`. -/
def pidT (tid : UInt32) : Int := Int.bmod tid.toNat (2 ^ 32)

/--
`libunwind_unwind_remote`, run by thread `self`; `none` if `bun_waitpid` has not returned
after `fuel` iterations.
-/
def libunwindUnwindRemote {h : Host} (handles : HandleRef → BunHandle) (self : UInt32)
    (locals : Locals) (buffer : BunBuffer h) (arch : BunArchitecture) (handle : Option HandleRef)
    (tid : UInt32) (answers : UnwRemoteAnswers) (fuel : Nat) : Option (Unwound h) :=
  -- the label `error`
  let error : Unwound h :=
    { ret := 0, buffer := buffer, calls := [.ptraceAttach tid, .ptraceDetach tid] }
  if answers.attached = false then
    some error
  else
    match bunWaitpid (pidT tid) 5000 answers.wait fuel with
    | none => none
    | some r =>
        if r < 0 then
          some error
        else if answers.init = false then
          some error
        else
          let impl := libunwindUnwindImpl handles self locals buffer arch handle tid .notRequired
            answers.steps
          some { impl with calls := .ptraceAttach tid :: impl.calls ++ [.ptraceDetach tid] }

end LibBun
