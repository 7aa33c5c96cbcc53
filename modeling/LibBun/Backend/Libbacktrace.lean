import LibBun.Backend

/-!
# The libbacktrace backend

`backtrace_full` drives: it calls back with one frame after the other and stops
when a call returns something else than 0. The result of `bun_writer_init` is
dropped, and the callback goes through whatever the writer on the stack holds.
-/

namespace LibBun

/-- `BUN_WRITE_ERROR`. -/
def bunWriteError : Int := -1

/-- `LIBBACKTRACE_MAX_SYMBOL_NAME`. -/
def libbacktraceMaxSymbolName : Nat := 256

/-- A call of `full_callback`, and what the look-up it makes comes up with. -/
structure FullCall where
  pc : UInt64
  filename : Option CString
  lineno : Int
  function : Option CString
  /-- The name `backtrace_syminfo` calls back with, if it does and it is not `NULL`. -/
  symname : Option CString

/-- What `backtrace_full` does when no callback stops it. -/
structure BacktraceAnswers where
  calls : List FullCall
  ret : Int

/-- `syminfo_callback`: what it leaves in an array that was all zero. -/
def syminfoCallback (symname : Option CString) : CString :=
  match symname with
  | some name => name.take (libbacktraceMaxSymbolName - 1)
  | none => CString.empty

/-- The frame `full_callback` writes. -/
def fullFrame (h : Host) (call : FullCall) : BunFrame :=
  let frame := { BunFrame.zero with
    addr := call.pc
    lineNo := h.toSizeT call.lineno
    symbol := call.function.map CString.ptr
    filename := call.filename.map CString.ptr }
  match call.function with
  | none => frame
  | some _ =>
      let functionName := syminfoCallback call.symname
      { frame with symbol := some functionName.ptr, symbolLength := functionName.1.length }

/-- `full_callback`. -/
def fullCallback (h : Host) (ctx : WriterState) (call : FullCall) : Int × WriterState :=
  let (written, ctx) := bunFrameWrite h ctx (fullFrame h call)
  if written = 0 then (bunWriteError, ctx) else (0, ctx)

/-- `backtrace_full`, run on the callbacks it is going to make. -/
def backtraceFull (h : Host) (ret : Int) : WriterState → List FullCall → Int × WriterState
  | ctx, [] => (ret, ctx)
  | ctx, call :: calls =>
      let (stop, ctx) := fullCallback h ctx call
      if stop ≠ 0 then (stop, ctx) else backtraceFull h ret ctx calls

/-- However it ends, some frames have been written. -/
theorem backtraceFull_writes (h : Host) (ret : Int) (ctx : WriterState) (calls : List FullCall) :
    ∃ frames, (backtraceFull h ret ctx calls).2 = (writeFrames h ctx frames).2 := by
  induction calls generalizing ctx with
  | nil => exact ⟨[], rfl⟩
  | cons call calls ih =>
      have hwrite : (fullCallback h ctx call).2 = (bunFrameWrite h ctx (fullFrame h call)).2 := by
        unfold fullCallback
        dsimp only
        split <;> rfl
      rw [backtraceFull]
      dsimp only
      split
      · exact ⟨[fullFrame h call], hwrite⟩
      · obtain ⟨frames, hframes⟩ := ih (fullCallback h ctx call).2
        rw [hwrite] at hframes ⊢
        exact ⟨fullFrame h call :: frames, hframes⟩

/-- `libbacktrace_unwind`, between its ends. -/
def libbacktraceSession (h : Host) (answers : BacktraceAnswers) (ctx : WriterState) : Session :=
  let ctx := bunHeaderBackendSet ctx .libbacktrace
  let (ret, ctx) := backtraceFull h answers.ret ctx answers.calls
  { finished := decide (ret = 0), state := ctx, calls := [] }

theorem libbacktraceSession_writes (h : Host) (answers : BacktraceAnswers) (ctx : WriterState) :
    ∃ frames, (libbacktraceSession h answers ctx).state
      = (writeFrames h (bunHeaderBackendSet ctx .libbacktrace) frames).2 :=
  backtraceFull_writes h answers.ret _ answers.calls

/-- `libbacktrace_unwind`, run by thread `self`. -/
def libbacktraceUnwind {h : Host} (handles : HandleRef → BunHandle) (self : UInt32)
    (locals : Locals) (buffer : BunBuffer h) (arch : BunArchitecture) (handle : Option HandleRef)
    (answers : BacktraceAnswers) : Unwound h :=
  runSession handles self locals.writer buffer arch handle (libbacktraceSession h answers)
    fun ctx => by
      obtain ⟨frames, hstate⟩ := libbacktraceSession_writes h answers ctx
      rw [hstate, length_writeFrames, bunHeaderBackendSet, WriterState.length_setField]

end LibBun
