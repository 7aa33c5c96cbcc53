import LibBun.Proof.Portable
import LibBun.Proof.Refused
import LibBun.Proof.Shown

/-!
# What is left on the stack

The backends have local variables they do not initialise, and hand them to calls that
store something in them only if they succeed. The question is whether what was on the
stack before can be told from the payload, or from what is passed on to the unwinder.

It can, in both backends that are looked at here, and in a refused session always. In
`libunwind_unwind_impl` an iteration gives something away if the program counter could
not be read and is then looked up or shown, or if the name could not be looked up and
the offset is shown; `Settled` is that no iteration the loop gets to does. In
`libunwindstack_unwind_context` the first step already subtracts from a variable that
was never set, so only a loop that takes no step is safe.
-/

namespace LibBun

variable {h : Host} {arch : BunArchitecture} {safety : BunUnwindSignalSafety}

/-- Two sessions leave the same payload and have made the same calls. -/
structure Session.Same (a b : Session) : Prop where
  payload : a.state.mem.bytes = b.state.mem.bytes
  calls : a.calls = b.calls

namespace Session.Same

variable {a b c : Session}

theorem symm (hab : a.Same b) : b.Same a := ⟨hab.payload.symm, hab.calls.symm⟩

theorem trans (hab : a.Same b) (hbc : b.Same c) : a.Same c :=
  ⟨hab.payload.trans hbc.payload, hab.calls.trans hbc.calls⟩

end Session.Same

/-! ## The frame of an iteration -/

theorem bunFrameRegisterAppend_withInts (f : BunFrame) (a : UInt64) (o reg : Nat)
    (value : UInt64) : (bunFrameRegisterAppend h (f.withInts a o) reg value).2
      = (bunFrameRegisterAppend h f reg value).2.withInts a o := by
  by_cases hfull : f.registerBufferSize / registerSize ≤ f.registerCount
  · rw [bunFrameRegisterAppend_of_full hfull,
      bunFrameRegisterAppend_of_full (f := f.withInts a o) hfull]
  · unfold bunFrameRegisterAppend
    rw [maxRegisters_eq, maxRegisters_eq, if_neg hfull, BunFrame.withInts, if_neg hfull]
    rfl

theorem appendRegisters_withInts (f : BunFrame) (a : UInt64) (o : Nat)
    (regs : List (Nat × UInt64)) :
    appendRegisters h (f.withInts a o) regs = (appendRegisters h f regs).withInts a o := by
  induction regs generalizing f with
  | nil => rfl
  | cons reg regs ih =>
      have hstep := bunFrameRegisterAppend_withInts (h := h) f a o reg.1 reg.2
      exact (congrArg (fun g => appendRegisters h g regs) hstep).trans (ih _)

/-- `off`, after the name has been asked for in the `i`-th iteration. -/
def stepOff (locals : Locals) (i : Nat) (step : UnwStep) : UInt64 :=
  match step.procName with
  | .stored _ off _ => off
  | .failed => locals.off i

/-- Uninitialised locals that happen to hold one number everywhere. -/
def filledLocals (v : UInt64) : Locals :=
  { strayLocals unopenedWriter with ip := fun _ => v, off := fun _ => v }

/-- The frame of a step, with 0 for what is not stored. -/
def settledFrame (h : Host) (arch : BunArchitecture) (safety : BunUnwindSignalSafety)
    (step : UnwStep) : BunFrame := implFrame h arch safety (filledLocals 0) 0 step

/-- The frame is one and the same but for two integers. -/
theorem implFrame_eq (locals : Locals) (i : Nat) (step : UnwStep) :
    implFrame h arch safety locals i step = (settledFrame h arch safety step).withInts
      (stepIp locals i step) (h.toSizeT (stepOff locals i step).toNat) := by
  unfold settledFrame implFrame
  rw [← appendRegisters_withInts]
  rfl

/-- A frame with a name and the two integers, before the registers are appended. -/
def namedFrame (name : CString) (addr : UInt64) (offset : Nat) : BunFrame :=
  { BunFrame.zero with
    symbol := some name.ptr
    symbolLength := name.1.length
    addr := addr
    offset := offset
    registerBufferSize := 512
    registerData := some ⟨0, List.replicate 512 0⟩ }

/-- What `symbol` holds before the name is demangled. -/
def foundName (step : UnwStep) : CString :=
  match step.procName with
  | .stored name _ _ => name
  | .failed => fallbackDladdrFunctionName 256 step.dliSname

/-- What `symbol` holds in the end. -/
def frameName (safety : BunUnwindSignalSafety) (step : UnwStep) : CString :=
  if safety = .notRequired then
    (bunUnwindDemangle 256 step.demangled).getD (foundName step)
  else foundName step

theorem implFrame_named (locals : Locals) (i : Nat) (step : UnwStep) :
    implFrame h arch safety locals i step
      = appendRegisters h (namedFrame (frameName safety step) (stepIp locals i step)
        (h.toSizeT (stepOff locals i step).toNat)) (readRegisters arch step) := rfl

/-- The name that is fallen back on fits the buffer, if `"<unknown>"` does. -/
theorem length_fallback_lt {n : Nat} (hn : 9 < n) (dliSname : Option CString) :
    (fallbackDladdrFunctionName n dliSname).1.length < n := by
  unfold fallbackDladdrFunctionName
  cases dliSname with
  | none => exact hn
  | some name =>
      dsimp only
      split
      · rw [CString.take, List.length_take]
        omega
      · omega

theorem length_demangled_lt {n : Nat} {demangled : Option CString} {name : CString}
    (hname : bunUnwindDemangle n demangled = some name) : name.1.length < n := by
  unfold bunUnwindDemangle at hname
  cases demangled with
  | none => cases hname
  | some result =>
      dsimp only at hname
      split at hname
      · cases hname
      · rename_i hlt
        rw [← Option.some.inj hname]
        exact Nat.lt_of_not_le hlt

/-- The name of a frame fits `symbol`. -/
theorem length_frameName_lt (safety : BunUnwindSignalSafety) (step : UnwStep) :
    (frameName safety step).1.length < 256 := by
  have hfound : (foundName step).1.length < 256 := by
    unfold foundName
    cases step.procName with
    | stored name off name_lt => exact name_lt
    | failed => exact length_fallback_lt (by decide) step.dliSname
  unfold frameName
  split
  · cases hname : bunUnwindDemangle 256 step.demangled with
    | none => exact hfound
    | some name => exact length_demangled_lt hname
  · exact hfound

/-- All the registers there are have room in `registers`. -/
theorem length_readRegisters_le (arch : BunArchitecture) (step : UnwStep) :
    (readRegisters arch step).length ≤ 51 := by
  have hmap : (registerMap arch).length ≤ 51 := by cases arch <;> decide
  have hread : (readRegisters arch step).length ≤ (registerMap arch).zipIdx.length :=
    List.length_filterMap_le ..
  rw [List.length_zipIdx] at hread
  exact hread.trans hmap

/-- Appending the registers leaves the name and the integers alone. -/
theorem implFrame_shape (locals : Locals) (i : Nat) (step : UnwStep) :
    ∃ data, implFrame h arch safety locals i step =
      { namedFrame (frameName safety step) (stepIp locals i step)
          (h.toSizeT (stepOff locals i step).toNat) with
        registerCount := (readRegisters arch step).length
        registerData := data } := by
  have hroom : registerSize * (0 + (readRegisters arch step).length) ≤ 512 := by
    have hle := length_readRegisters_le arch step
    rw [registerSize]
    omega
  obtain ⟨data, happend⟩ := PortableFrame.appendRegisters_eq (h := h)
    (f := namedFrame (frameName safety step) (stepIp locals i step)
      (h.toSizeT (stepOff locals i step).toNat)) hroom
  refine ⟨data, ?_⟩
  rw [implFrame_named, happend]
  congr 1
  exact Nat.zero_add _

theorem implFrame_wellFormed (locals : Locals) (i : Nat) (step : UnwStep) :
    (implFrame h arch safety locals i step).WellFormed h := by
  obtain ⟨data, heq⟩ := implFrame_shape (h := h) locals i step
  have hsizes := h.sizes
  have hname := length_frameName_lt safety step
  have hle := length_readRegisters_le arch step
  rw [heq]
  refine ⟨?_, ?_, ?_, ?_, Or.inr rfl, Or.inl rfl, ?_⟩
  · show 0 < h.sizeMod
    omega
  · show h.toSizeT (stepOff locals i step).toNat < h.sizeMod
    exact h.toSizeT_lt _
  · show (frameName safety step).1.length < h.ptrdiffMax
    omega
  · show 0 < h.ptrdiffMax
    omega
  · show (readRegisters arch step).length < 2 ^ 16
    omega

/-- No frame is estimated at less than its first integer. -/
theorem le_wouldWrite_settledFrame (step : UnwStep) :
    8 ≤ wouldWrite h (settledFrame h arch safety step) := by
  have hwf : (settledFrame h arch safety step).WellFormed h :=
    implFrame_wellFormed (filledLocals 0) 0 step
  have hlen : (settledFrame h arch safety step).encodedLength
      = 28 + (frameName safety step).1.length + 0 + 10 * (readRegisters arch step).length := by
    obtain ⟨data, heq⟩ := implFrame_shape (h := h) (filledLocals 0) 0 step
    rw [settledFrame, heq]
    rfl
  have hname := length_frameName_lt safety step
  have hle := length_readRegisters_le arch step
  have hsizes := h.sizes
  have hshort : h.shortfall ≤ 18 := Nat.sub_le _ _
  have hlt : (settledFrame h arch safety step).encodedLength - h.shortfall < h.sizeMod := by omega
  rw [wouldWrite_eq hwf, Nat.mod_eq_of_lt hlt]
  omega

/-! ## Settled loops -/

/--
Whatever was on the stack, the iteration that takes the step with the writer `w` does
the same: the program counter was read if it is looked up or shown, and the name was
found if the offset is shown.
-/
structure StepSettled (h : Host) (arch : BunArchitecture) (safety : BunUnwindSignalSafety)
    (w : BunWriter) (step : UnwStep) : Prop where
  lookup : step.procName = .failed → step.ip.isSome
  addr : Shows h w (settledFrame h arch safety step) 8 → step.ip.isSome
  offset : Shows h w (settledFrame h arch safety step) 24 → step.procName ≠ .failed

/-- The frame of the step is refused, which ends the loop. -/
def StepRefused (h : Host) (arch : BunArchitecture) (safety : BunUnwindSignalSafety)
    (w : BunWriter) (step : UnwStep) : Prop :=
  writerAvailable h w < wouldWrite h (settledFrame h arch safety step)

/-- Every iteration the loop gets to is settled. -/
def Settled (h : Host) (arch : BunArchitecture) (safety : BunUnwindSignalSafety) :
    WriterState → List UnwStep → Prop
  | _, [] => True
  | s, step :: steps => StepSettled h arch safety s.writer step
      ∧ (¬StepRefused h arch safety s.writer step →
        Settled h arch safety (frameStep h s (settledFrame h arch safety step)) steps)

section Loop

variable {s t : WriterState} {off : Nat} {locals locals' : Locals} {i : Nat} {step : UnwStep}
  {steps : List UnwStep}

theorem wouldWrite_implFrame (locals : Locals) (i : Nat) (step : UnwStep) :
    wouldWrite h (implFrame h arch safety locals i step)
      = wouldWrite h (settledFrame h arch safety step) := by
  rw [implFrame_eq]
  rfl

theorem implLoop_of_refused (href : StepRefused h arch safety s.writer step) :
    implLoop h arch safety locals i s (step :: steps)
      = { finished := false, state := s, calls := implCalls locals i step } := by
  unfold StepRefused at href
  rw [← wouldWrite_implFrame locals i] at href
  rw [implLoop, bunFrameWrite_eq, if_pos href]
  rfl

theorem implLoop_of_accepted (hacc : ¬StepRefused h arch safety s.writer step) :
    implLoop h arch safety locals i s (step :: steps) =
      { implLoop h arch safety locals (i + 1)
          (frameStep h s (implFrame h arch safety locals i step)) steps with
        calls := implCalls locals i step ++ (implLoop h arch safety locals (i + 1)
          (frameStep h s (implFrame h arch safety locals i step)) steps).calls } := by
  have hest : 8 ≤ wouldWrite h (settledFrame h arch safety step) :=
    le_wouldWrite_settledFrame step
  unfold StepRefused at hacc
  rw [← wouldWrite_implFrame locals i] at hacc hest
  rw [implLoop, frameStep, bunFrameWrite_eq, if_neg hacc]
  dsimp only
  rw [if_neg (by omega)]

/-- From states that are alike the loop goes on alike. -/
theorem implLoop_alike (hst : Alike s t) (locals : Locals) (i : Nat) (steps : List UnwStep) :
    (implLoop h arch safety locals i s steps).Same (implLoop h arch safety locals i t steps) := by
  induction steps generalizing i s t with
  | nil => exact ⟨hst.bytes, rfl⟩
  | cons step steps ih =>
      by_cases href : StepRefused h arch safety s.writer step
      · rw [implLoop_of_refused href, implLoop_of_refused (hst.writer ▸ href)]
        exact ⟨hst.bytes, rfl⟩
      · rw [implLoop_of_accepted href, implLoop_of_accepted (hst.writer ▸ href)]
        have hframe : Alike (frameStep h s (implFrame h arch safety locals i step))
            (frameStep h t (implFrame h arch safety locals i step)) := hst.frameStep _
        have hrest := ih hframe (i + 1)
        exact ⟨hrest.payload, congrArg (implCalls locals i step ++ ·) hrest.calls⟩

/-- A program counter that was read is the same on every stack. -/
theorem stepIp_eq (hip : step.ip.isSome) : stepIp locals i step = stepIp locals' i step := by
  obtain ⟨ip, hip⟩ := Option.isSome_iff_exists.mp hip
  rw [stepIp, stepIp, hip]
  rfl

theorem stepOff_eq (hname : step.procName ≠ .failed) :
    stepOff locals i step = stepOff locals' i step := by
  unfold stepOff
  cases hproc : step.procName with
  | stored name off name_lt => rfl
  | failed => exact absurd hproc hname

namespace StepSettled

theorem calls (hstep : StepSettled h arch safety s.writer step) (locals locals' : Locals)
    (i : Nat) : implCalls locals i step = implCalls locals' i step := by
  unfold implCalls
  cases hproc : step.procName with
  | stored name off name_lt => rfl
  | failed =>
      have hip : stepIp locals i step = stepIp locals' i step := stepIp_eq (hstep.lookup hproc)
      dsimp only
      rw [hip]

/-- **One settled iteration** leaves the same behind on every stack. -/
theorem frames (hstep : StepSettled h arch safety s.writer step) (hs : WriterAt h s off)
    (locals locals' : Locals) (i : Nat) :
    Alike (frameStep h s (implFrame h arch safety locals i step))
      (frameStep h s (implFrame h arch safety locals' i step)) := by
  rw [implFrame_eq locals i, implFrame_eq locals' i]
  refine frameStep_withInts hs (Alike.refl s) (le_wouldWrite_settledFrame step) ?_ ?_
  · intro hshows
    exact stepIp_eq (hstep.addr hshows)
  · intro hshows
    rw [stepOff_eq (hstep.offset hshows)]

end StepSettled

/-- **A settled loop** does what it would do on a stack of zeros. -/
theorem Settled.same (hsettled : Settled h arch safety s steps) (hs : WriterAt h s off)
    (locals : Locals) (i : Nat) :
    (implLoop h arch safety locals i s steps).Same
      (implLoop h arch safety (filledLocals 0) i s steps) := by
  induction steps generalizing i s off with
  | nil => exact ⟨rfl, rfl⟩
  | cons step steps ih =>
      obtain ⟨hstep, hrest⟩ := hsettled
      have hcalls := hstep.calls locals (filledLocals 0) i
      by_cases href : StepRefused h arch safety s.writer step
      · rw [implLoop_of_refused href, implLoop_of_refused href]
        exact ⟨rfl, hcalls⟩
      · obtain ⟨off', _, hs'⟩ := hs.frameStep (settledFrame h arch safety step)
        have hframes := hstep.frames hs locals (filledLocals 0) i
        have hsame := (implLoop_alike hframes locals (i + 1) steps).trans
          (ih (hrest href) hs' (i + 1))
        rw [implLoop_of_accepted href, implLoop_of_accepted href]
        exact ⟨hsame.payload, congrArg₂ (· ++ ·) hcalls hsame.calls⟩

/-! ## Loops that are not settled -/

/-- The last of the three integers is the offset. -/
theorem BunFrame.drop_intBytes (f : BunFrame) :
    f.intBytes.drop 16 = LittleEndian.encode 8 f.offset := by
  have hlen : (LittleEndian.encode 8 f.addr.toNat ++ LittleEndian.encode 8 f.lineNo).length
      = 16 := by
    rw [List.length_append, LittleEndian.length_encode, LittleEndian.length_encode]
  rw [BunFrame.intBytes, ← List.append_assoc, List.drop_left' hlen]

theorem encode_toSizeT_ne (h : Host) :
    LittleEndian.encode 8 (h.toSizeT (0 : UInt64).toNat)
      ≠ LittleEndian.encode 8 (h.toSizeT (1 : UInt64).toNat) := by
  obtain ⟨word, endian⟩ := h
  cases word <;> cases endian <;> decide

/-- What an accepted frame shows of its address is in the payload when the loop is done. -/
theorem implLoop_addr (hs : WriterAt h s off)
    (hshows : Shows h s.writer (settledFrame h arch safety step) 8) (locals : Locals) (i : Nat)
    (steps : List UnwStep) :
    ((implLoop h arch safety locals i s (step :: steps)).state.mem.bytes.drop off).take 8
      = LittleEndian.encode 8 (stepIp locals i step).toNat := by
  obtain ⟨rest, hrest⟩ := implLoop_writes h arch safety locals (i + 1)
    (frameStep h s (implFrame h arch safety locals i step)) steps
  have hshows' : Shows h s.writer (implFrame h arch safety locals i step) 8 := by
    rw [implFrame_eq]
    exact hshows
  rw [implLoop_of_accepted hshows.1]
  dsimp only
  rw [hrest, addr_of_shows hs (implFrame_wellFormed locals i step) hshows', implFrame_eq]
  rfl

/-- The same for the offset. -/
theorem implLoop_offset (hs : WriterAt h s off)
    (hshows : Shows h s.writer (settledFrame h arch safety step) 24) (locals : Locals) (i : Nat)
    (steps : List UnwStep) :
    ((implLoop h arch safety locals i s (step :: steps)).state.mem.bytes.drop off).take 24
      = ((settledFrame h arch safety step).withInts (stepIp locals i step)
        (h.toSizeT (stepOff locals i step).toNat)).intBytes := by
  obtain ⟨rest, hrest⟩ := implLoop_writes h arch safety locals (i + 1)
    (frameStep h s (implFrame h arch safety locals i step)) steps
  have hshows' : Shows h s.writer (implFrame h arch safety locals i step) 24 := by
    rw [implFrame_eq]
    exact hshows
  rw [implLoop_of_accepted hshows.1]
  dsimp only
  rw [hrest, ints_of_shows hs (implFrame_wellFormed locals i step) hshows', implFrame_eq]

/-- An iteration that is the same on a stack of zeros and on one of ones is settled. -/
theorem stepSettled_of_same (hs : WriterAt h s off)
    (hsame : (implLoop h arch safety (filledLocals 1) i s (step :: steps)).Same
      (implLoop h arch safety (filledLocals 0) i s (step :: steps))) :
    StepSettled h arch safety s.writer step := by
  have hip : ∀ v, ¬step.ip.isSome → stepIp (filledLocals v) i step = v := by
    intro v hnone
    rw [stepIp, Option.not_isSome_iff_eq_none.mp hnone]
    rfl
  constructor
  · intro hproc
    by_contra hnone
    -- `dladdr` is passed what was on the stack
    have hhead : ∀ v, (implLoop h arch safety (filledLocals v) i s (step :: steps)).calls.head?
        = some (.dladdr v) := by
      intro v
      have hcalls : implCalls (filledLocals v) i step = [.dladdr v] := by
        rw [implCalls, hproc]
        dsimp only
        rw [hip v hnone]
      by_cases href : StepRefused h arch safety s.writer step
      · rw [implLoop_of_refused href, hcalls]
        rfl
      · rw [implLoop_of_accepted href, hcalls]
        rfl
    have hboth := (hhead 1).symm.trans ((congrArg List.head? hsame.calls).trans (hhead 0))
    exact absurd hboth (by decide)
  · intro hshows
    by_contra hnone
    have hone := implLoop_addr hs hshows (filledLocals 1) i steps
    have hzero := implLoop_addr hs hshows (filledLocals 0) i steps
    rw [hsame.payload, hzero, hip 0 hnone, hip 1 hnone] at hone
    exact absurd hone (by decide)
  · intro hshows hproc
    have hoff : ∀ v, stepOff (filledLocals v) i step = v := by
      intro v
      rw [stepOff, hproc]
      rfl
    have hone := implLoop_offset hs hshows (filledLocals 1) i steps
    have hzero := implLoop_offset hs hshows (filledLocals 0) i steps
    rw [hsame.payload, hzero, hoff, hoff] at hone
    have hlast := congrArg (List.drop 16) hone
    rw [BunFrame.drop_intBytes, BunFrame.drop_intBytes] at hlast
    exact encode_toSizeT_ne h hlast

/-- **Only a settled loop** is the same on every stack. -/
theorem settled_of_same (hs : WriterAt h s off)
    (hsame : ∀ locals, (implLoop h arch safety locals i s steps).Same
      (implLoop h arch safety (filledLocals 0) i s steps)) : Settled h arch safety s steps := by
  induction steps generalizing i s off with
  | nil => trivial
  | cons step steps ih =>
      have hstep := stepSettled_of_same hs (hsame (filledLocals 1))
      refine ⟨hstep, fun hacc => ?_⟩
      obtain ⟨off', _, hs'⟩ := hs.frameStep (settledFrame h arch safety step)
      refine ih hs' (i := i + 1) fun locals => ?_
      -- the rest of the loop, from the state a stack of zeros has led to
      have hframes := hstep.frames hs locals (filledLocals 0) i
      have hwhole := hsame locals
      rw [implLoop_of_accepted hacc, implLoop_of_accepted hacc] at hwhole
      have hcalls := hwhole.calls
      dsimp only at hcalls
      rw [hstep.calls locals (filledLocals 0) i] at hcalls
      have hrest : (implLoop h arch safety locals (i + 1)
          (frameStep h s (implFrame h arch safety locals i step)) steps).Same
            (implLoop h arch safety (filledLocals 0) (i + 1)
              (frameStep h s (settledFrame h arch safety step)) steps) :=
        ⟨hwhole.payload, List.append_cancel_left hcalls⟩
      exact (implLoop_alike hframes locals (i + 1) steps).symm.trans hrest

end Loop

/-! ## The entry points -/

namespace EntryPoint

/-- The payload and the calls are the same, whatever was on the stack. -/
def IgnoresStack (e : EntryPoint) (handles : HandleRef → BunHandle) (self : UInt32)
    (buf : BunBuffer h) (arch : BunArchitecture) (handle : Option HandleRef) : Prop :=
  ∀ locals locals' : Locals,
    (e.run handles self locals buf arch handle).buffer.payload
        = (e.run handles self locals' buf arch handle).buffer.payload
      ∧ (e.run handles self locals buf arch handle).calls
        = (e.run handles self locals' buf arch handle).calls

/-- The state in which the first frame is written, if the session is opened. -/
def openedOn (e : EntryPoint) (handles : HandleRef → BunHandle) (self : UInt32)
    (buf : BunBuffer h) (arch : BunArchitecture) (handle : Option HandleRef) : WriterState :=
  let (_, writer, buf) := bunWriterInit handles self unopenedWriter buf arch handle
  e.opened self ⟨writer, buf.memory⟩

variable {handles : HandleRef → BunHandle} {self : UInt32} {buf buf' : BunBuffer h}
  {handle : Option HandleRef} {w : BunWriter}

/-- A header that lies before the payload is set without a trace. -/
theorem opened_before (e : EntryPoint) {s : WriterState}
    (hbefore : s.writer.data.buffer + headerSize ≤ 0) :
    (e.opened self s).mem.bytes = s.mem.bytes := by
  have hset : ∀ {s : WriterState} (f : HeaderField) (v : Nat), f.start + f.width ≤ headerSize →
      s.writer.data.buffer + headerSize ≤ 0 → (s.setField f v).mem.bytes = s.mem.bytes := by
    intro s f v hf hs
    exact setField_before v (by omega)
  have hbackend : ∀ b, (bunHeaderBackendSet s b).mem.bytes = s.mem.bytes :=
    fun b => hset .backend _ (by decide) hbefore
  have htid : ∀ b tid, (bunHeaderTidSet (bunHeaderBackendSet s b) tid).mem.bytes = s.mem.bytes :=
    fun b tid =>
      (hset (s := bunHeaderBackendSet s b) .tid _ (by decide) hbefore).trans (hbackend b)
  cases e with
  | libbacktraceUnwind answers => exact hbackend _
  | libunwindUnwindImpl tid safety steps => exact htid _ _
  | libunwindstackUnwind answers => exact htid _ _
  | libunwindstackUnwindRemote pid answers => exact htid _ _
  | libunwindstackUnwindContext answers => exact htid _ _

/-- **A refused session** shows the writer that was on the stack. -/
theorem opened_of_ignoresStack (hbuf : bunBufferPayloadHeaderSize ≤ buf.size) (e : EntryPoint)
    (he : e.IsThread) (hignores : e.IgnoresStack handles self buf arch handle) :
    (bunWriterInit handles self unopenedWriter buf arch handle).1 = true := by
  by_contra hfalse
  have href : (bunWriterInit handles self unopenedWriter buf arch handle).1 = false := by
    simpa using hfalse
  obtain ⟨locals, hchanged⟩ := e.exists_changed hbuf href he
  -- far before the payload, with the cursor behind it, nothing is stored in it
  let lost := strayLocals (strayWriter (-100) buf.payload.length)
  obtain ⟨frames, hpay⟩ := e.payload_run href lost
  have hwritten := writeFrames_beyond (h := h)
    (s := e.opened self ⟨strayWriter (-100) buf.payload.length, buf.memory⟩) frames
    (by rw [e.opened_writer]; exact (by decide : (-100 : Int) + 16 ≤ 0))
    (by rw [e.opened_writer, e.length_opened]; exact Int.le_refl _)
  have hopened : (e.opened self ⟨strayWriter (-100) buf.payload.length, buf.memory⟩).mem.bytes
      = buf.payload := e.opened_before (by decide : (-100 : Int) + 24 ≤ 0)
  have hsame := (hignores locals lost).1
  exact hchanged (hsame.trans (hpay.trans (hwritten.trans hopened)))

/-- An opened session goes on with a writer that owes nothing to the stack. -/
theorem runSession_opened
    (hinit : bunWriterInit handles self unopenedWriter buf arch handle = (true, w, buf'))
    (writer : BunWriter) (body : WriterState → Session)
    (hbody : ∀ s, (body s).state.mem.bytes.length = s.mem.bytes.length) :
    (runSession handles self writer buf arch handle body hbody).buffer.payload
        = (body ⟨w, buf'.memory⟩).state.mem.bytes
      ∧ (runSession handles self writer buf arch handle body hbody).calls
        = (body ⟨w, buf'.memory⟩).calls := by
  unfold runSession
  rw [bunWriterInit_opened hinit writer]
  exact ⟨rfl, rfl⟩

/-- Then it comes down to the part between the two ends. -/
theorem ignoresStack_iff_same {e : EntryPoint} {session : Locals → WriterState → Session}
    (hrun : ∀ locals, ∃ hbody, e.run handles self locals buf arch handle
      = runSession handles self locals.writer buf arch handle (session locals) hbody)
    (hinit : bunWriterInit handles self unopenedWriter buf arch handle = (true, w, buf')) :
    e.IgnoresStack handles self buf arch handle
      ↔ ∀ locals locals', (session locals ⟨w, buf'.memory⟩).Same
        (session locals' ⟨w, buf'.memory⟩) := by
  have hopened : ∀ locals, (e.run handles self locals buf arch handle).buffer.payload
        = (session locals ⟨w, buf'.memory⟩).state.mem.bytes
      ∧ (e.run handles self locals buf arch handle).calls
        = (session locals ⟨w, buf'.memory⟩).calls := by
    intro locals
    obtain ⟨hbody, heq⟩ := hrun locals
    rw [heq]
    exact runSession_opened hinit locals.writer (session locals) hbody
  constructor
  · intro hignores locals locals'
    obtain ⟨hpayload, hcalls⟩ := hignores locals locals'
    rw [(hopened locals).1, (hopened locals').1] at hpayload
    rw [(hopened locals).2, (hopened locals').2] at hcalls
    exact ⟨hpayload, hcalls⟩
  · intro hsame locals locals'
    rw [(hopened locals).1, (hopened locals').1, (hopened locals).2, (hopened locals').2]
    exact ⟨(hsame locals locals').payload, (hsame locals locals').calls⟩

/-- **The libunwind backend**, in a session that was opened. -/
theorem libunwind_ignoresStack_iff (hbuf : bunBufferPayloadHeaderSize ≤ buf.size)
    (hinit : bunWriterInit handles self unopenedWriter buf arch handle = (true, w, buf'))
    (tid : UInt32) (safety : BunUnwindSignalSafety) (steps : List UnwStep) :
    (libunwindUnwindImpl tid safety steps).IgnoresStack handles self buf arch handle
      ↔ Settled h arch safety
        (bunHeaderTidSet (bunHeaderBackendSet ⟨w, buf'.memory⟩ .libunwind) tid) steps := by
  have hs := ((bunWriterInit_at hbuf hinit).1.setField HeaderField.backend
    BunUnwindBackend.libunwind.toUInt16).setField HeaderField.tid tid.toNat
  have hrun : ∀ locals, ∃ hbody,
      (libunwindUnwindImpl tid safety steps).run handles self locals buf arch handle
        = runSession handles self locals.writer buf arch handle
          (libunwindSession h arch tid safety locals steps) hbody := by
    intro locals
    rw [run, LibBun.libunwindUnwindImpl]
    exact ⟨_, rfl⟩
  rw [ignoresStack_iff_same hrun hinit]
  constructor
  · intro hsame
    exact settled_of_same hs (i := 0) fun locals => hsame locals (filledLocals 0)
  · intro hsettled locals locals'
    exact (hsettled.same hs locals 0).trans (hsettled.same hs locals' 0).symm

end EntryPoint

/-! ## A signal context -/

section Context

variable {answers : ContextAnswers} {self : UInt32} {s : WriterState}

/-- A loop that takes no step leaves nothing but the header behind. -/
theorem contextSession_of_stops (hstops : answers.parse = false ∨ (answers.steps 0).map = false
      ∨ (answers.steps 0).elf = false) (locals : Locals) :
    (libunwindstackContextSession h arch self locals answers s).state = stackOpened s self
      ∧ (libunwindstackContextSession h arch self locals answers s).calls = [] := by
  unfold libunwindstackContextSession
  dsimp only
  split
  · exact ⟨rfl, rfl⟩
  · rename_i hparse
    rw [contextMaxFrames, contextLoop]
    dsimp only
    rcases hstops with hno | hmap | helf
    · exact absurd hno hparse
    · rw [if_pos hmap]
      exact ⟨rfl, rfl⟩
    · rw [if_pos helf]
      split <;> exact ⟨rfl, rfl⟩

/-- The first step that is taken is given what was on the stack, or that less a number. -/
theorem contextSession_head (hparse : answers.parse = true) (hmap : (answers.steps 0).map = true)
    (helf : (answers.steps 0).elf = true) (locals : Locals) :
    (libunwindstackContextSession h arch self locals answers s).calls.head?
      = some (.elfStep
        (if (answers.steps 0).relativePc ≠ 0 then
          locals.adjustedRelativePc 0 - (answers.steps 0).pcAdjustment
        else locals.adjustedRelativePc 0) (answers.steps 0).relativePc) := by
  have hp : ¬answers.parse = false := by rw [hparse]; decide
  have hm : ¬(answers.steps 0).map = false := by rw [hmap]; decide
  have he : ¬(answers.steps 0).elf = false := by rw [helf]; decide
  unfold libunwindstackContextSession
  dsimp only
  rw [if_neg hp, contextMaxFrames, contextLoop]
  dsimp only
  rw [if_neg hm, if_neg he]
  split
  · rfl
  split
  · rfl
  · rfl

/-- A variable that holds another number gives another argument. -/
theorem contextSession_shows (hparse : answers.parse = true)
    (hmap : (answers.steps 0).map = true) (helf : (answers.steps 0).elf = true)
    {locals locals' : Locals}
    (hne : locals.adjustedRelativePc 0 ≠ locals'.adjustedRelativePc 0) :
    (libunwindstackContextSession h arch self locals answers s).calls
      ≠ (libunwindstackContextSession h arch self locals' answers s).calls := by
  intro hcalls
  have hheads := congrArg List.head? hcalls
  rw [contextSession_head hparse hmap helf, contextSession_head hparse hmap helf] at hheads
  injection hheads with hstep
  injection hstep with hadjusted _
  split at hadjusted
  · exact hne ((UInt64.sub_left_inj _).mp hadjusted)
  · exact hne hadjusted

end Context

namespace EntryPoint

variable {handles : HandleRef → BunHandle} {self : UInt32} {buf buf' : BunBuffer h}
  {handle : Option HandleRef} {w : BunWriter}

/-- **The libunwindstack backend**, for a signal context and in a session that was opened. -/
theorem libunwindstack_ignoresStack_iff
    (hinit : bunWriterInit handles self unopenedWriter buf arch handle = (true, w, buf'))
    (answers : ContextAnswers) :
    (libunwindstackUnwindContext answers).IgnoresStack handles self buf arch handle
      ↔ answers.parse = false ∨ (answers.steps 0).map = false
        ∨ (answers.steps 0).elf = false := by
  have hrun : ∀ locals, ∃ hbody,
      (libunwindstackUnwindContext answers).run handles self locals buf arch handle
        = runSession handles self locals.writer buf arch handle
          (libunwindstackContextSession h arch self locals answers) hbody := by
    intro locals
    rw [run, LibBun.libunwindstackUnwindContext]
    exact ⟨_, rfl⟩
  rw [ignoresStack_iff_same hrun hinit]
  constructor
  · intro hsame
    by_contra hsteps
    simp only [not_or, Bool.not_eq_false] at hsteps
    obtain ⟨hparse, hmap, helf⟩ := hsteps
    have hcalls := (hsame (strayLocals unopenedWriter)
      { strayLocals unopenedWriter with adjustedRelativePc := fun _ => 1 }).calls
    exact contextSession_shows hparse hmap helf (by decide) hcalls
  · intro hstops locals locals'
    obtain ⟨hstate, hcalls⟩ := contextSession_of_stops hstops locals
    obtain ⟨hstate', hcalls'⟩ := contextSession_of_stops hstops locals'
    constructor
    · rw [hstate, hstate']
    · rw [hcalls, hcalls']

/--
**When what was on the stack cannot be told.** The session has to be opened; then, in
the libunwind backend, no iteration that is reached may look up or show what was not
stored, and in the libunwindstack backend no step may be taken at all.
-/
theorem ignoresStack_iff (hbuf : bunBufferPayloadHeaderSize ≤ buf.size) :
    (∀ (tid : UInt32) (safety : BunUnwindSignalSafety) (steps : List UnwStep), tid ≠ 0 →
      ((libunwindUnwindImpl tid safety steps).IgnoresStack handles self buf arch handle
        ↔ (bunWriterInit handles self unopenedWriter buf arch handle).1 = true
          ∧ Settled h arch safety ((libunwindUnwindImpl tid safety steps).openedOn handles self buf
            arch handle) steps))
    ∧ ∀ answers : ContextAnswers,
      (libunwindstackUnwindContext answers).IgnoresStack handles self buf arch handle
        ↔ (bunWriterInit handles self unopenedWriter buf arch handle).1 = true
          ∧ (answers.parse = false ∨ (answers.steps 0).map = false
            ∨ (answers.steps 0).elf = false) := by
  constructor
  · intro tid safety steps htid
    unfold openedOn
    rcases hinit : bunWriterInit handles self unopenedWriter buf arch handle with ⟨ok, w, buf'⟩
    constructor
    · intro hignores
      have hopened := opened_of_ignoresStack hbuf (libunwindUnwindImpl tid safety steps) htid
        hignores
      rw [hinit] at hopened
      obtain rfl : ok = true := hopened
      exact ⟨rfl, (libunwind_ignoresStack_iff hbuf hinit tid safety steps).mp hignores⟩
    · rintro ⟨hopened, hsettled⟩
      obtain rfl : ok = true := hopened
      exact (libunwind_ignoresStack_iff hbuf hinit tid safety steps).mpr hsettled
  · intro answers
    rcases hinit : bunWriterInit handles self unopenedWriter buf arch handle with ⟨ok, w, buf'⟩
    constructor
    · intro hignores
      have hopened := opened_of_ignoresStack hbuf (libunwindstackUnwindContext answers) trivial
        hignores
      rw [hinit] at hopened
      obtain rfl : ok = true := hopened
      exact ⟨rfl, (libunwindstack_ignoresStack_iff hinit answers).mp hignores⟩
    · rintro ⟨hopened, hstops⟩
      obtain rfl : ok = true := hopened
      exact (libunwindstack_ignoresStack_iff hinit answers).mpr hstops

end EntryPoint

/-- A step for which the unwinder knows everything. -/
def namedStep : UnwStep := { namelessStep with procName := .stored CString.unknown 4 (by decide) }

/-- A step of the unwinder for a signal context that cannot be taken. -/
def lastContextStep : ContextStep where
  map := true
  elf := true
  relativePc := 16
  pcAdjustment := 1
  step := false
  frame := ⟨0, [], [], 0, none⟩
  registers := fun _ => 0

/-- A name that is found, and maps that cannot be parsed, leave nothing to the stack. -/
theorem ignoresStack_named :
    ∃ buf, bunBufferInit (zeroedObject ⟨.w64, .little⟩ 100 (by decide)) = some buf
      ∧ (EntryPoint.libunwindUnwindImpl 8 .required [namedStep]).IgnoresStack (fun _ => ⟨0⟩) 8 buf
        .x86_64 (some 5)
      ∧ (EntryPoint.libunwindstackUnwindContext ⟨false, fun _ => lastContextStep⟩).IgnoresStack
        (fun _ => ⟨0⟩) 8 buf .x86_64 (some 5) := by
  have hopen : ∃ buf, bunBufferInit (zeroedObject ⟨.w64, .little⟩ 100 (by decide)) = some buf
      ∧ bunBufferPayloadHeaderSize ≤ buf.size
      ∧ (bunWriterInit (fun _ => ⟨0⟩) 8 unopenedWriter buf .x86_64 (some 5)).1 = true :=
    ⟨_, rfl, by decide, rfl⟩
  obtain ⟨buf, hinit, hroom, hopened⟩ := hopen
  have hsettled : ∀ s, Settled ⟨.w64, .little⟩ .x86_64 .required s [namedStep] :=
    fun s => ⟨⟨fun _ => rfl, fun _ => rfl, fun _ hproc => nomatch hproc⟩, fun _ => trivial⟩
  refine ⟨buf, hinit, ?_, ?_⟩
  · exact ((EntryPoint.ignoresStack_iff hroom).1 8 .required [namedStep] (by decide)).mpr
      ⟨hopened, hsettled _⟩
  · exact ((EntryPoint.ignoresStack_iff hroom).2 ⟨false, fun _ => lastContextStep⟩).mpr
      ⟨hopened, Or.inl rfl⟩

/-- A name that is not found, and the first step for a signal context, show the stack. -/
theorem not_ignoresStack_nameless :
    ∃ buf, bunBufferInit (zeroedObject ⟨.w64, .little⟩ 100 (by decide)) = some buf
      ∧ ¬(EntryPoint.libunwindUnwindImpl 8 .required [namelessStep]).IgnoresStack (fun _ => ⟨0⟩) 8
        buf .x86_64 (some 5)
      ∧ ¬(EntryPoint.libunwindstackUnwindContext ⟨true, fun _ => lastContextStep⟩).IgnoresStack
        (fun _ => ⟨0⟩) 8 buf .x86_64 (some 5) := by
  refine ⟨_, rfl, fun hignores => ?_, fun hignores => ?_⟩
  · exact absurd (hignores (filledLocals 0) (filledLocals 1)).1 (by decide +kernel)
  · exact absurd (hignores (strayLocals unopenedWriter)
      { strayLocals unopenedWriter with adjustedRelativePc := fun _ => 1 }).2 (by decide +kernel)

end LibBun
