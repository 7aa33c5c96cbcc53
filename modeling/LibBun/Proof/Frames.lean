import LibBun.Proof.Registers
import LibBun.Proof.Stale

/-!
# What the frames of the backends say

Each backend puts its frames together in its own way: names are cut, demangled or left
out, numbers end up in fields that are called something else, registers are appended to
memory of the backend's own. Here each such frame is well-formed, and what it says is
what the unwinder had to say: no name is longer than its buffer, and every register that
was read has room, down to the last byte in libunwindstack, where 34 registers go into
340 bytes.

The frames of libunwindstack take the lengths of two strings from objects that may hold
anything; that they hold no NUL is `FrameData.Sound`.
-/

namespace LibBun

variable {h : Host}

/-! ## The registers of a frame -/

theorem BunRegister.toNat_lt (r : BunRegister) : r.toNat < 65536 := by
  cases r <;> exact Nat.le_of_ble_eq_true rfl

/-- Registers that have room are all in the frame, in order. -/
theorem registers_appendRegisters (hend : h.endian = .little) {f : BunFrame}
    (hcount : f.registerCount = 0) (hdata : f.registerBufferSize ≤ f.dataBytes.length)
    {regs : List (Nat × UInt64)} (hid : ∀ reg ∈ regs, reg.1 < 65536)
    (hroom : registerSize * regs.length ≤ f.registerBufferSize) :
    ((appendRegisters h f regs).content h).registers = regs.map some := by
  have hstep : ∀ s (l : RegisterList f.registerBufferSize) (reg : Nat × UInt64),
      Represents h f s l → reg.1 < 65536 →
        (bunFrameRegisterAppend h s reg.1 reg.2).1 = (l.push reg).1
          ∧ Represents h f (bunFrameRegisterAppend h s reg.1 reg.2).2 (l.push reg).2 :=
    fun s l reg hs hreg => hs.append hend hdata hreg
  obtain ⟨_, hrep⟩ := Run.simulates hstep (Represents.empty hcount) hid
  have hspace : (BoundedList.empty : RegisterList f.registerBufferSize).room
      = f.registerBufferSize / registerSize := Nat.sub_zero _
  have hitems : (Run.final BoundedList.push
      (BoundedList.empty : RegisterList f.registerBufferSize) regs).items = regs := by
    rw [BoundedList.items_of_fits]
    · rfl
    · rw [hspace]
      rw [registerSize] at hroom ⊢
      omega
  have hcount' : (appendRegisters h f regs).registerCount = regs.length := by
    have hc := hrep.count
    rw [hitems] at hc
    exact hc
  rw [BunFrame.content, hcount']
  refine List.ext_getElem (by rw [List.length_map, List.length_map, List.length_range]) ?_
  intro i hi hi'
  rw [List.length_map] at hi'
  have hget := hrep.get i
  rw [hitems, List.getElem?_eq_getElem hi'] at hget
  rw [List.getElem_map, List.getElem_map, List.getElem_range]
  exact hget

/-! ## What the frames of the backends say -/

/-- What `backtrace_full` has to say in a call. -/
def FullCall.content (h : Host) (call : FullCall) : FrameContent where
  addr := call.pc
  lineNo := h.toSizeT call.lineno
  offset := 0
  symbol := if call.function.isSome then (syminfoCallback call.symname).1 else []
  filename := (call.filename.getD CString.empty).1
  registers := []

/-- What there is to say about the `i`-th step. -/
def UnwStep.content (h : Host) (arch : BunArchitecture) (safety : BunUnwindSignalSafety)
    (locals : Locals) (i : Nat) (step : UnwStep) : FrameContent where
  addr := stepIp locals i step
  lineNo := 0
  offset := h.toSizeT (stepOff locals i step).toNat
  symbol := (frameName safety step).1
  filename := []
  registers := (readRegisters arch step).map some

/-- What there is to say about a frame: the offset into the function is said in `line_no`. -/
def FrameData.content (h : Host) (arch : BunArchitecture) (registers : Nat → UInt64)
    (frame : FrameData) : FrameContent where
  addr := frame.pc
  lineNo := h.toSizeT frame.functionOffset.toNat
  offset := 0
  symbol := ((bunUnwindDemangle 4096 frame.demangled).map Subtype.val).getD frame.functionName
  filename := frame.mapName
  registers := (populateRegs arch).zipIdx.map fun (reg, i) => some (reg.toNat, registers i)

/-- A frame without a name is left out. -/
def FrameData.Named (frame : FrameData) : Prop := frame.functionName ≠ []

instance (frame : FrameData) : Decidable frame.Named := inferInstanceAs (Decidable (_ ≠ _))

/-- The strings of a frame hold no NUL and are objects. -/
structure FrameData.Sound (h : Host) (frame : FrameData) : Prop where
  name : 0 ∉ frame.functionName
  map : 0 ∉ frame.mapName
  name_lt : frame.functionName.length < h.ptrdiffMax
  map_lt : frame.mapName.length < h.ptrdiffMax

theorem length_syminfoCallback (symname : Option CString) :
    (syminfoCallback symname).1.length < libbacktraceMaxSymbolName := by
  cases symname with
  | none => exact Nat.zero_lt_succ _
  | some name =>
      show (name.1.take (libbacktraceMaxSymbolName - 1)).length < libbacktraceMaxSymbolName
      rw [List.length_take, libbacktraceMaxSymbolName]
      omega

theorem fullFrame_wellFormed {call : FullCall}
    (hfile : (call.filename.getD CString.empty).1.length < h.ptrdiffMax) :
    (fullFrame h call).WellFormed h := by
  obtain ⟨pc, filename, lineno, function, symname⟩ := call
  have hsizes := h.sizes
  have hname := length_syminfoCallback symname
  rw [libbacktraceMaxSymbolName] at hname
  have hfile' : (fullFrame h ⟨pc, filename, lineno, function, symname⟩).filenameStr
      = filename.getD CString.empty := by
    cases function <;> cases filename <;> rfl
  have hsymbol : (fullFrame h ⟨pc, filename, lineno, function, symname⟩).symbolStr.1.length
      < 256 := by
    cases function with
    | none => exact Nat.zero_lt_succ _
    | some _ => exact hname
  refine ⟨?_, ?_, ?_, ?_, ?_, ?_, ?_⟩
  · cases function <;> exact h.toSizeT_lt _
  · cases function <;> exact Nat.lt_of_lt_of_le Nat.zero_lt_one (by omega)
  · omega
  · rw [hfile']
    exact hfile
  · cases function with
    | none => exact Or.inl rfl
    | some _ => exact Or.inr rfl
  · cases function <;> exact Or.inl rfl
  · cases function <;> exact Nat.zero_lt_succ _

theorem fullFrame_content (call : FullCall) :
    (fullFrame h call).content h = call.content h := by
  obtain ⟨pc, filename, lineno, function, symname⟩ := call
  cases function <;> cases filename <;> rfl

theorem implFrame_content (hend : h.endian = .little) (arch : BunArchitecture)
    (safety : BunUnwindSignalSafety) (locals : Locals) (i : Nat) (step : UnwStep) :
    (implFrame h arch safety locals i step).content h
      = step.content h arch safety locals i := by
  have hid : ∀ reg ∈ readRegisters arch step, reg.1 < 65536 := by
    intro reg hreg
    obtain ⟨p, _, hp⟩ := List.mem_filterMap.mp hreg
    obtain ⟨value, _, rfl⟩ := Option.map_eq_some_iff.mp hp
    exact p.1.toNat_lt
  have hroom : registerSize * (readRegisters arch step).length ≤ 512 := by
    have hle := length_readRegisters_le arch step
    rw [registerSize]
    omega
  have hregs := registers_appendRegisters hend
    (f := namedFrame (frameName safety step) (stepIp locals i step)
      (h.toSizeT (stepOff locals i step).toNat)) rfl
    (Nat.le_of_eq (List.length_replicate (n := 512) (a := (0 : UInt8))).symm) hid hroom
  rw [← implFrame_named] at hregs
  obtain ⟨data, heq⟩ := implFrame_shape (h := h) locals i step
  have hfields : (implFrame h arch safety locals i step).content h =
      { UnwStep.content h arch safety locals i step with
        registers := ((implFrame h arch safety locals i step).content h).registers } := by
    rw [heq]
    rfl
  rw [hfields, hregs]
  rfl

/-- The frame of some named data, before the registers are appended. -/
def stackBase (h : Host) (registerBuf : List UInt8) (frame : FrameData) : BunFrame :=
  let name := (bunUnwindDemangle 4096 frame.demangled).getD (Codec.upTo 0 frame.functionName)
  { BunFrame.zero with
    addr := frame.pc
    symbol := some name.ptr
    symbolLength := ((bunUnwindDemangle 4096 frame.demangled).map
      fun name => name.1.length).getD frame.functionName.length
    filename := some (CString.ptr (Codec.upTo 0 frame.mapName))
    filenameLength := frame.mapName.length
    lineNo := h.toSizeT frame.functionOffset.toNat
    registerBufferSize := 340
    registerData := some ⟨0, registerBuf⟩ }

/-- The registers of a frame with their ids. -/
def stackRegisters (arch : BunArchitecture) (registers : Nat → UInt64) : List (Nat × UInt64) :=
  (populateRegs arch).zipIdx.map fun (reg, i) => (reg.toNat, registers i)

theorem stackFrame_eq (arch : BunArchitecture) (registerBuf : List UInt8)
    (registers : Nat → UInt64) (frame : FrameData) :
    stackFrame h arch registerBuf registers frame =
      if frame.Named then
        some (appendRegisters h (stackBase h registerBuf frame) (stackRegisters arch registers))
      else none := by
  obtain ⟨pc, functionName, mapName, functionOffset, demangled⟩ := frame
  cases functionName with
  | nil => rfl
  | cons c cs =>
      have hnamed : FrameData.Named ⟨pc, c :: cs, mapName, functionOffset, demangled⟩ :=
        List.cons_ne_nil c cs
      rw [if_pos hnamed]
      unfold stackFrame stackBase
      cases bunUnwindDemangle 4096 demangled <;> rfl

/-- The buffer for the registers has room for exactly those of the largest set. -/
theorem length_stackRegisters_le (arch : BunArchitecture) (registers : Nat → UInt64) :
    registerSize * (stackRegisters arch registers).length ≤ 340 := by
  rw [stackRegisters, List.length_map, List.length_zipIdx]
  cases arch <;> decide

section

variable {frame : FrameData}

theorem stackBase_shape (arch : BunArchitecture) (registerBuf : List UInt8)
    (registers : Nat → UInt64) (frame : FrameData) :
    ∃ data, appendRegisters h (stackBase h registerBuf frame) (stackRegisters arch registers) =
      { stackBase h registerBuf frame with
        registerCount := (stackRegisters arch registers).length
        registerData := data } := by
  have hroom := length_stackRegisters_le arch registers
  have hspace : registerSize * ((stackBase h registerBuf frame).registerCount
      + (stackRegisters arch registers).length)
        ≤ (stackBase h registerBuf frame).registerBufferSize := by
    rw [show (stackBase h registerBuf frame).registerCount = 0 from rfl, Nat.zero_add]
    exact hroom
  obtain ⟨data, happend⟩ := PortableFrame.appendRegisters_eq (h := h) hspace
  refine ⟨data, ?_⟩
  rw [happend]
  congr 1
  exact Nat.zero_add _

theorem FrameData.Sound.wellFormed (hframe : frame.Sound h) (arch : BunArchitecture)
    (registerBuf : List UInt8) (registers : Nat → UInt64) :
    (appendRegisters h (stackBase h registerBuf frame)
      (stackRegisters arch registers)).WellFormed h := by
  have hsizes := h.sizes
  have hname : (stackBase h registerBuf frame).symbolLength
        = (stackBase h registerBuf frame).symbolStr.1.length
      ∧ (stackBase h registerBuf frame).symbolStr.1.length < h.ptrdiffMax := by
    unfold stackBase
    dsimp only
    cases hdem : bunUnwindDemangle 4096 frame.demangled with
    | none =>
        show frame.functionName.length = (Codec.upTo 0 frame.functionName).1.length
          ∧ (Codec.upTo 0 frame.functionName).1.length < h.ptrdiffMax
        rw [upTo_eq_self hframe.name]
        exact ⟨rfl, hframe.name_lt⟩
    | some name =>
        have hlt := length_demangled_lt hdem
        exact ⟨rfl, by show name.1.length < h.ptrdiffMax; omega⟩
  have hmap : (Codec.upTo 0 frame.mapName).1.length = frame.mapName.length := by
    rw [upTo_eq_self hframe.map]
  obtain ⟨data, heq⟩ := stackBase_shape (h := h) arch registerBuf registers frame
  have hroom := length_stackRegisters_le arch registers
  rw [heq]
  refine ⟨?_, ?_, ?_, ?_, Or.inr hname.1, Or.inr hmap.symm, ?_⟩
  · show h.toSizeT frame.functionOffset.toNat < h.sizeMod
    exact h.toSizeT_lt _
  · show 0 < h.sizeMod
    omega
  · exact hname.2
  · show (Codec.upTo 0 frame.mapName).1.length < h.ptrdiffMax
    rw [hmap]
    exact hframe.map_lt
  · show (stackRegisters arch registers).length < 2 ^ 16
    rw [registerSize] at hroom
    omega

theorem FrameData.Sound.content_eq (hframe : frame.Sound h) (hend : h.endian = .little)
    (arch : BunArchitecture) {registerBuf : List UInt8} (hbuf : registerBuf.length = 340)
    (registers : Nat → UInt64) :
    (appendRegisters h (stackBase h registerBuf frame)
      (stackRegisters arch registers)).content h = frame.content h arch registers := by
  have hid : ∀ reg ∈ stackRegisters arch registers, reg.1 < 65536 := by
    intro reg hreg
    obtain ⟨p, _, rfl⟩ := List.mem_map.mp hreg
    exact p.1.toNat_lt
  have hregs := registers_appendRegisters hend (f := stackBase h registerBuf frame) rfl
    (Nat.le_of_eq hbuf.symm) hid (length_stackRegisters_le arch registers)
  obtain ⟨data, heq⟩ := stackBase_shape (h := h) arch registerBuf registers frame
  have hsymbol : (stackBase h registerBuf frame).symbolStr.1
      = (frame.content h arch registers).symbol := by
    unfold stackBase FrameData.content
    dsimp only
    cases bunUnwindDemangle 4096 frame.demangled with
    | none => exact upTo_eq_self hframe.name
    | some name => rfl
  have hfields : (appendRegisters h (stackBase h registerBuf frame)
        (stackRegisters arch registers)).content h =
      { addr := frame.pc
        lineNo := h.toSizeT frame.functionOffset.toNat
        offset := 0
        symbol := (stackBase h registerBuf frame).symbolStr.1
        filename := (Codec.upTo 0 frame.mapName).1
        registers := ((appendRegisters h (stackBase h registerBuf frame)
          (stackRegisters arch registers)).content h).registers } := by
    rw [heq]
    rfl
  rw [hfields, hregs, hsymbol, upTo_eq_self hframe.map, stackRegisters, List.map_map]
  rfl

end

end LibBun
