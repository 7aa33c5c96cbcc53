import LibBun.Backend

/-!
# The libunwindstack backend

Three entry points share `libunwindstack_write_frame`. The local and the remote one
let the unwinder run to its end and write the frames it has collected, all with the
registers it ended with; the one for a signal context takes the steps itself. The
remote one stops the thread first, and only after it has opened its session.
-/

namespace LibBun

/-- `unwindstack::FrameData`, and what `__cxa_demangle` makes of its name. -/
structure FrameData where
  pc : UInt64
  functionName : List UInt8
  mapName : List UInt8
  functionOffset : UInt64
  demangled : Option CString

/--
`libunwindstack_populate_regs`: the registers, in the order they are appended. The source
goes by the macros of the compiler.
-/
def populateRegs : BunArchitecture → List BunRegister
  | .x86_64 => [.x86_64Rax, .x86_64Rdx, .x86_64Rcx, .x86_64Rbx, .x86_64Rsi, .x86_64Rdi, .x86_64Rbp,
      .x86_64Rsp, .x86_64R8, .x86_64R9, .x86_64R10, .x86_64R11, .x86_64R12, .x86_64R13, .x86_64R14,
      .x86_64R15, .x86_64Rip]
  | .arm64 => [.aarch64X0, .aarch64X1, .aarch64X2, .aarch64X3, .aarch64X4, .aarch64X5, .aarch64X6,
      .aarch64X7, .aarch64X8, .aarch64X9, .aarch64X10, .aarch64X11, .aarch64X12, .aarch64X13,
      .aarch64X14, .aarch64X15, .aarch64X16, .aarch64X17, .aarch64X18, .aarch64X19, .aarch64X20,
      .aarch64X21, .aarch64X22, .aarch64X23, .aarch64X24, .aarch64X25, .aarch64X26, .aarch64X27,
      .aarch64X28, .aarch64X29, .aarch64X30, .aarch64X31, .aarch64Pc, .aarch64Pstate]
  | .arm => [.armR0, .armR1, .armR2, .armR3, .armR4, .armR5, .armR6, .armR7, .armR8, .armR9,
      .armR10, .armR11, .armR12, .armR13, .armR14, .armR15, .armPstate]
  | .x86 | .unknown => []

/-- The frame `libunwindstack_write_frame` writes, if it writes one. -/
def stackFrame (h : Host) (arch : BunArchitecture) (registerBuf : List UInt8)
    (registers : Nat → UInt64) (frame : FrameData) : Option BunFrame :=
  let bunFrame := { BunFrame.zero with
    addr := frame.pc
    -- `c_str()` ends at the first NUL, `size()` does not
    symbol := some (CString.ptr (Codec.upTo 0 frame.functionName))
    symbolLength := frame.functionName.length
    filename := some (CString.ptr (Codec.upTo 0 frame.mapName))
    filenameLength := frame.mapName.length
    lineNo := h.toSizeT frame.functionOffset.toNat }
  if bunFrame.symbolLength = 0 then
    none
  else
    let bunFrame :=
      match bunUnwindDemangle 4096 frame.demangled with
      | some name => { bunFrame with symbol := some name.ptr, symbolLength := name.1.length }
      | none => bunFrame
    let bunFrame := { bunFrame with
      registerBufferSize := 340
      registerData := some ⟨0, registerBuf⟩ }
    some (appendRegisters h bunFrame
      ((populateRegs arch).zipIdx.map fun (reg, i) => (reg.toNat, registers i)))

/-- `libunwindstack_write_frame`. -/
def libunwindstackWriteFrame (h : Host) (arch : BunArchitecture) (registerBuf : List UInt8)
    (registers : Nat → UInt64) (s : WriterState) (frame : FrameData) : Bool × WriterState :=
  match stackFrame h arch registerBuf registers frame with
  | none => (true, s)
  | some bunFrame =>
      let (written, s) := bunFrameWrite h s bunFrame
      (decide (written > 0), s)

theorem libunwindstackWriteFrame_writes (h : Host) (arch : BunArchitecture)
    (registerBuf : List UInt8) (registers : Nat → UInt64) (s : WriterState) (frame : FrameData) :
    ∃ frames, (libunwindstackWriteFrame h arch registerBuf registers s frame).2
      = (writeFrames h s frames).2 := by
  unfold libunwindstackWriteFrame
  split
  · exact ⟨[], rfl⟩
  · exact ⟨[_], rfl⟩

/-! ## Collected frames -/

/-- The loop over `unwinder.frames()`, from the `i`-th on; false if a frame was not written. -/
def framesLoop (h : Host) (arch : BunArchitecture) (locals : Locals) (registers : Nat → UInt64) :
    Nat → WriterState → List FrameData → Bool × WriterState
  | _, s, [] => (true, s)
  | i, s, frame :: frames =>
      let (ok, s) := libunwindstackWriteFrame h arch (locals.registerBuf i) registers s frame
      if ok = false then (false, s) else framesLoop h arch locals registers (i + 1) s frames

theorem framesLoop_writes (h : Host) (arch : BunArchitecture) (locals : Locals)
    (registers : Nat → UInt64) (i : Nat) (s : WriterState) (frames : List FrameData) :
    ∃ written, (framesLoop h arch locals registers i s frames).2 = (writeFrames h s written).2 := by
  induction frames generalizing i s with
  | nil => exact ⟨[], rfl⟩
  | cons frame frames ih =>
      obtain ⟨first, hfirst⟩ :=
        libunwindstackWriteFrame_writes h arch (locals.registerBuf i) registers s frame
      rw [framesLoop]
      dsimp only
      split
      · exact ⟨first, hfirst⟩
      · obtain ⟨rest, hrest⟩ := ih (i + 1)
          (libunwindstackWriteFrame h arch (locals.registerBuf i) registers s frame).2
        refine ⟨first ++ rest, ?_⟩
        rw [hrest, hfirst, writeFrames_append]

/-- What the unwinder of the local entry point answers. -/
structure LocalAnswers where
  parse : Bool
  frames : List FrameData
  registers : Nat → UInt64

/-- `libunwindstack_unwind`, between its ends, run by thread `tid`. -/
def libunwindstackSession (h : Host) (arch : BunArchitecture) (tid : UInt32) (locals : Locals)
    (answers : LocalAnswers) (s : WriterState) : Session :=
  let s := bunHeaderBackendSet s .libunwindstack
  let s := bunHeaderTidSet s tid
  if answers.parse = false then
    { finished := false, state := s, calls := [] }
  else
    let (finished, s) := framesLoop h arch locals answers.registers 0 s answers.frames
    { finished := finished, state := s, calls := [] }

/-- The writer of an entry point, once the backend and the thread are set. -/
def stackOpened (s : WriterState) (tid : UInt32) : WriterState :=
  bunHeaderTidSet (bunHeaderBackendSet s .libunwindstack) tid

@[simp] theorem length_stackOpened (s : WriterState) (tid : UInt32) :
    (stackOpened s tid).mem.bytes.length = s.mem.bytes.length := by
  rw [stackOpened, bunHeaderTidSet, WriterState.length_setField, bunHeaderBackendSet,
    WriterState.length_setField]

theorem libunwindstackSession_writes (h : Host) (arch : BunArchitecture) (tid : UInt32)
    (locals : Locals) (answers : LocalAnswers) (s : WriterState) :
    ∃ frames, (libunwindstackSession h arch tid locals answers s).state
      = (writeFrames h (stackOpened s tid) frames).2 := by
  unfold libunwindstackSession
  dsimp only
  split
  · exact ⟨[], rfl⟩
  · exact framesLoop_writes h arch locals answers.registers 0 _ answers.frames

/-- `libunwindstack_unwind`, run by thread `self`. -/
def libunwindstackUnwind {h : Host} (handles : HandleRef → BunHandle) (self : UInt32)
    (locals : Locals) (buffer : BunBuffer h) (arch : BunArchitecture) (handle : Option HandleRef)
    (answers : LocalAnswers) : Unwound h :=
  runSession handles self locals.writer buffer arch handle
    (libunwindstackSession h arch self locals answers)
    fun s => by
      obtain ⟨frames, hstate⟩ := libunwindstackSession_writes h arch self locals answers s
      rw [hstate, length_writeFrames, length_stackOpened]

/-- What `ptrace`, `waitpid` and the unwinder of the remote entry point answer. -/
structure RemoteAnswers where
  /-- `PTRACE_ATTACH` succeeds. -/
  attached : Bool
  /-- `WIFSTOPPED` of the status `waitpid` stores; `none` if it stores none. -/
  stopped : Option Bool
  parse : Bool
  frames : List FrameData
  registers : Nat → UInt64

/-- `libunwindstack_unwind_remote`, between its ends. -/
def libunwindstackRemoteSession (h : Host) (arch : BunArchitecture) (pid : UInt32)
    (locals : Locals) (answers : RemoteAnswers) (s : WriterState) : Session :=
  let s := bunHeaderBackendSet s .libunwindstack
  let s := bunHeaderTidSet s pid
  if answers.attached = false then
    { finished := false, state := s, calls := [.ptraceAttach pid] }
  else if answers.stopped.getD locals.waitpidStopped = false then
    { finished := false, state := s, calls := [.ptraceAttach pid] }
  else if answers.parse = false then
    { finished := false, state := s, calls := [.ptraceAttach pid, .ptraceDetach pid] }
  else
    let (finished, s) := framesLoop h arch locals answers.registers 0 s answers.frames
    { finished := finished, state := s, calls := [.ptraceAttach pid, .ptraceDetach pid] }

theorem libunwindstackRemoteSession_writes (h : Host) (arch : BunArchitecture) (pid : UInt32)
    (locals : Locals) (answers : RemoteAnswers) (s : WriterState) :
    ∃ frames, (libunwindstackRemoteSession h arch pid locals answers s).state
      = (writeFrames h (stackOpened s pid) frames).2 := by
  unfold libunwindstackRemoteSession
  dsimp only
  split
  · exact ⟨[], rfl⟩
  split
  · exact ⟨[], rfl⟩
  split
  · exact ⟨[], rfl⟩
  · exact framesLoop_writes h arch locals answers.registers 0 _ answers.frames

/-- `libunwindstack_unwind_remote`, run by thread `self`. -/
def libunwindstackUnwindRemote {h : Host} (handles : HandleRef → BunHandle) (self : UInt32)
    (locals : Locals) (buffer : BunBuffer h) (arch : BunArchitecture) (handle : Option HandleRef)
    (pid : UInt32) (answers : RemoteAnswers) : Unwound h :=
  runSession handles self locals.writer buffer arch handle
    (libunwindstackRemoteSession h arch pid locals answers)
    fun s => by
      obtain ⟨frames, hstate⟩ := libunwindstackRemoteSession_writes h arch pid locals answers s
      rw [hstate, length_writeFrames, length_stackOpened]

/-! ## Single steps -/

/-- What the calls of one iteration of `libunwindstack_unwind_context` answer. -/
structure ContextStep where
  /-- `local_maps.Find` finds a map. -/
  map : Bool
  elf : Bool
  relativePc : UInt64
  pcAdjustment : UInt64
  step : Bool
  frame : FrameData
  registers : Nat → UInt64

/-- `max_frames` of `libunwindstack_unwind_context`. -/
def contextMaxFrames : Nat := 128

/-- The loop, with `fuel` iterations left and the `i`-th next. -/
def contextLoop (h : Host) (arch : BunArchitecture) (locals : Locals)
    (answers : Nat → ContextStep) : Nat → Nat → WriterState → Session
  | 0, _, s => { finished := true, state := s, calls := [] }
  | fuel + 1, i, s =>
      let answer := answers i
      if answer.map = false then
        { finished := true, state := s, calls := [] }
      else if answer.elf = false then
        { finished := true, state := s, calls := [] }
      else
        let adjustedRelativePc :=
          if answer.relativePc ≠ 0 then locals.adjustedRelativePc i - answer.pcAdjustment
          else locals.adjustedRelativePc i
        let call := ExternalCall.elfStep adjustedRelativePc answer.relativePc
        if answer.step = false then
          { finished := true, state := s, calls := [call] }
        else
          let (ok, s) := libunwindstackWriteFrame h arch (locals.registerBuf i) answer.registers s
            answer.frame
          if ok = false then
            { finished := false, state := s, calls := [call] }
          else
            let rest := contextLoop h arch locals answers fuel (i + 1) s
            { rest with calls := call :: rest.calls }

theorem contextLoop_writes (h : Host) (arch : BunArchitecture) (locals : Locals)
    (answers : Nat → ContextStep) (fuel i : Nat) (s : WriterState) :
    ∃ frames, (contextLoop h arch locals answers fuel i s).state
      = (writeFrames h s frames).2 := by
  induction fuel generalizing i s with
  | zero => exact ⟨[], rfl⟩
  | succ fuel ih =>
      obtain ⟨first, hfirst⟩ := libunwindstackWriteFrame_writes h arch (locals.registerBuf i)
        (answers i).registers s (answers i).frame
      rw [contextLoop]
      dsimp only
      split
      · exact ⟨[], rfl⟩
      split
      · exact ⟨[], rfl⟩
      split
      · exact ⟨[], rfl⟩
      split
      · exact ⟨first, hfirst⟩
      · obtain ⟨rest, hrest⟩ := ih (i + 1) (libunwindstackWriteFrame h arch (locals.registerBuf i)
          (answers i).registers s (answers i).frame).2
        refine ⟨first ++ rest, ?_⟩
        rw [hrest, hfirst, writeFrames_append]

/-- What the unwinder of the entry point for a context answers. -/
structure ContextAnswers where
  parse : Bool
  /-- The iterations of the loop, were there no end to it. -/
  steps : Nat → ContextStep

/-- `libunwindstack_unwind_context`, between its ends, run by thread `tid`. -/
def libunwindstackContextSession (h : Host) (arch : BunArchitecture) (tid : UInt32)
    (locals : Locals) (answers : ContextAnswers) (s : WriterState) : Session :=
  let s := bunHeaderBackendSet s .libunwindstack
  let s := bunHeaderTidSet s tid
  if answers.parse = false then
    { finished := false, state := s, calls := [] }
  else
    contextLoop h arch locals answers.steps contextMaxFrames 0 s

theorem libunwindstackContextSession_writes (h : Host) (arch : BunArchitecture) (tid : UInt32)
    (locals : Locals) (answers : ContextAnswers) (s : WriterState) :
    ∃ frames, (libunwindstackContextSession h arch tid locals answers s).state
      = (writeFrames h (stackOpened s tid) frames).2 := by
  unfold libunwindstackContextSession
  dsimp only
  split
  · exact ⟨[], rfl⟩
  · exact contextLoop_writes h arch locals answers.steps contextMaxFrames 0 _

/-- `libunwindstack_unwind_context`, run by thread `self`. -/
def libunwindstackUnwindContext {h : Host} (handles : HandleRef → BunHandle) (self : UInt32)
    (locals : Locals) (buffer : BunBuffer h) (arch : BunArchitecture) (handle : Option HandleRef)
    (answers : ContextAnswers) : Unwound h :=
  runSession handles self locals.writer buffer arch handle
    (libunwindstackContextSession h arch self locals answers)
    fun s => by
      obtain ⟨frames, hstate⟩ := libunwindstackContextSession_writes h arch self locals answers s
      rw [hstate, length_writeFrames, length_stackOpened]

end LibBun
