import LibBun.Proof.Frames
import LibBun.Proof.Metadata
import LibBun.Proof.Until

/-!
# What an unwind reports

An entry point is there to bring what the unwinder answers to whoever reads the
buffer. `EntryPoint.report` is what there is to bring, made from the answers and not
from anything the library writes: for every step an address, a name and the registers,
in the order of the steps. Where libunwind does not give the address, or the offset into
a function, the code takes what is in the variable, and so does the report; with every
question answered (`EntryPoint.Answered`) it does not depend on the stack. The result is
that a fresh reader on the buffer gets the first of it and nothing else, however full the
buffer is, and that in a buffer with room for all of it what is read, and the number that
is returned, are functions of the lengths alone.

On the way the five loops are shown to be one, `writeUntil` on five lists of frames.
The header says which backend it was, and which thread.
-/

namespace LibBun

variable {h : Host}

/-! ## Five loops and one -/

theorem backtraceFull_eq (ret : Int) (ctx : WriterState) (calls : List FullCall) :
    backtraceFull h ret ctx calls =
      (if (writeUntil h ctx (calls.map (fullFrame h))).1 then ret else bunWriteError,
        (writeUntil h ctx (calls.map (fullFrame h))).2) := by
  induction calls generalizing ctx with
  | nil => rfl
  | cons call calls ih =>
      rw [List.map_cons, writeUntil_cons, backtraceFull]
      unfold fullCallback
      dsimp only
      by_cases hzero : (bunFrameWrite h ctx (fullFrame h call)).1 = 0
      · rw [if_pos hzero, if_pos hzero, if_pos (by rw [bunWriteError]; simp)]
        rfl
      · rw [if_neg hzero, if_neg hzero, if_neg (by simp), ih]
        rfl

theorem implLoop_eq (arch : BunArchitecture) (safety : BunUnwindSignalSafety) (locals : Locals)
    (i : Nat) (s : WriterState) (steps : List UnwStep) :
    ((implLoop h arch safety locals i s steps).finished,
        (implLoop h arch safety locals i s steps).state)
      = writeUntil h s ((steps.zipIdx i).map fun p =>
        implFrame h arch safety locals p.2 p.1) := by
  induction steps generalizing i s with
  | nil => rfl
  | cons step steps ih =>
      rw [List.zipIdx_cons, List.map_cons, writeUntil_cons, ← ih, implLoop]
      dsimp only
      split <;> rfl

/-- The frames for some data and the registers that go with each. -/
def stackFrames (h : Host) (arch : BunArchitecture) (locals : Locals) (i : Nat)
    (data : List (FrameData × (Nat → UInt64))) : List BunFrame :=
  (data.zipIdx i).filterMap fun p => stackFrame h arch (locals.registerBuf p.2) p.1.2 p.1.1

/-- What there is to say about them. -/
def stackReport (h : Host) (arch : BunArchitecture) (data : List (FrameData × (Nat → UInt64))) :
    List FrameContent :=
  (data.filter fun p => p.1.Named).map fun p => p.1.content h arch p.2

/-- Writing the first of the frames, and then the others unless that failed. -/
theorem writeUntil_stackFrames (arch : BunArchitecture) (locals : Locals) (i : Nat)
    (s : WriterState) (p : FrameData × (Nat → UInt64))
    (data : List (FrameData × (Nat → UInt64))) :
    writeUntil h s (stackFrames h arch locals i (p :: data)) =
      if (libunwindstackWriteFrame h arch (locals.registerBuf i) p.2 s p.1).1 = false then
        (false, (libunwindstackWriteFrame h arch (locals.registerBuf i) p.2 s p.1).2)
      else writeUntil h (libunwindstackWriteFrame h arch (locals.registerBuf i) p.2 s p.1).2
        (stackFrames h arch locals (i + 1) data) := by
  unfold libunwindstackWriteFrame stackFrames
  rw [List.zipIdx_cons, List.filterMap_cons]
  dsimp only
  cases stackFrame h arch (locals.registerBuf i) p.2 p.1 with
  | none => rfl
  | some frame =>
      dsimp only
      rw [writeUntil_cons]
      by_cases hzero : (bunFrameWrite h s frame).1 = 0
      · have hno : decide ((bunFrameWrite h s frame).1 > 0) = false := by simp [hzero]
        rw [if_pos hzero, if_pos hno]
        rfl
      · have hyes : ¬decide ((bunFrameWrite h s frame).1 > 0) = false := by simpa using hzero
        rw [if_neg hzero, if_neg hyes]
        rfl

theorem framesLoop_eq (arch : BunArchitecture) (locals : Locals) (registers : Nat → UInt64)
    (i : Nat) (s : WriterState) (frames : List FrameData) :
    framesLoop h arch locals registers i s frames
      = writeUntil h s (stackFrames h arch locals i (frames.map fun f => (f, registers))) := by
  induction frames generalizing i s with
  | nil => rfl
  | cons frame frames ih =>
      rw [List.map_cons, writeUntil_stackFrames, ← ih]
      rfl

/-- The iterations for a context that get as far as a frame. -/
def contextTaken (answers : Nat → ContextStep) : Nat → Nat → List ContextStep
  | 0, _ => []
  | fuel + 1, i =>
      if (answers i).map ∧ (answers i).elf ∧ (answers i).step then
        answers i :: contextTaken answers fuel (i + 1)
      else []

theorem mem_contextTaken {answers : Nat → ContextStep} {fuel i : Nat} {step : ContextStep}
    (hstep : step ∈ contextTaken answers fuel i) : ∃ k, step = answers k := by
  induction fuel generalizing i with
  | zero => exact absurd hstep List.not_mem_nil
  | succ fuel ih =>
      rw [contextTaken] at hstep
      split at hstep
      · rcases List.mem_cons.mp hstep with rfl | hrest
        · exact ⟨i, rfl⟩
        · exact ih hrest
      · exact absurd hstep List.not_mem_nil

theorem contextLoop_eq (arch : BunArchitecture) (locals : Locals) (answers : Nat → ContextStep)
    (fuel i : Nat) (s : WriterState) :
    ((contextLoop h arch locals answers fuel i s).finished,
        (contextLoop h arch locals answers fuel i s).state)
      = writeUntil h s (stackFrames h arch locals i
        ((contextTaken answers fuel i).map fun step => (step.frame, step.registers))) := by
  induction fuel generalizing i s with
  | zero => rfl
  | succ fuel ih =>
      rw [contextLoop, contextTaken]
      dsimp only
      by_cases htaken : (answers i).map = true ∧ (answers i).elf = true ∧ (answers i).step = true
      · obtain ⟨hmap, helf, hstep⟩ := id htaken
        rw [if_pos htaken, if_neg (by simp [hmap]), if_neg (by simp [helf]), List.map_cons,
          writeUntil_stackFrames, ← ih]
        simp only [hstep, Bool.true_eq_false, if_false]
        split <;> rfl
      · -- an iteration that gets to no frame is the last, and the loop is done
        rw [if_neg htaken]
        cases hmap : (answers i).map with
        | false => rfl
        | true =>
            cases helf : (answers i).elf with
            | false => rfl
            | true =>
                cases hstep : (answers i).step with
                | false => rfl
                | true => exact absurd ⟨hmap, helf, hstep⟩ htaken

theorem stackFrames_wellFormed (arch : BunArchitecture) (locals : Locals) (i : Nat)
    {data : List (FrameData × (Nat → UInt64))} (hdata : ∀ p ∈ data, p.1.Sound h) :
    ∀ f ∈ stackFrames h arch locals i data, f.WellFormed h := by
  intro f hf
  obtain ⟨⟨p, k⟩, hp, hsome⟩ := List.mem_filterMap.mp hf
  have hsound := hdata p (List.fst_mem_of_mem_zipIdx hp)
  rw [stackFrame_eq] at hsome
  split at hsome
  · rw [← Option.some.inj hsome]
    exact hsound.wellFormed arch _ _
  · cases hsome

theorem stackFrames_content (hend : h.endian = .little) (arch : BunArchitecture)
    (locals : Locals) (i : Nat) {data : List (FrameData × (Nat → UInt64))}
    (hdata : ∀ p ∈ data, p.1.Sound h) :
    (stackFrames h arch locals i data).map (BunFrame.content h) = stackReport h arch data := by
  induction data generalizing i with
  | nil => rfl
  | cons p data ih =>
      have hp := hdata p (List.mem_cons_self ..)
      have hrest := ih (i + 1) fun q hq => hdata q (List.mem_cons_of_mem _ hq)
      rw [stackFrames, List.zipIdx_cons, List.filterMap_cons, stackFrame_eq]
      rw [stackReport]
      by_cases hnamed : p.1.Named
      · rw [List.filter_cons_of_pos (by simpa using hnamed), if_pos hnamed, List.map_cons,
          List.map_cons, hp.content_eq hend arch (locals.registerBuf i).2]
        exact congrArg _ hrest
      · rw [List.filter_cons_of_neg (by simpa using hnamed), if_neg hnamed]
        exact hrest

/-! ## The entry points -/

namespace EntryPoint

/-- The part of an entry point between its ends, run by thread `self`. -/
def session (h : Host) (arch : BunArchitecture) (self : UInt32) (locals : Locals) :
    EntryPoint → WriterState → Session
  | .libbacktraceUnwind answers => libbacktraceSession h answers
  | .libunwindUnwindImpl tid safety steps => libunwindSession h arch tid safety locals steps
  | .libunwindstackUnwind answers => libunwindstackSession h arch self locals answers
  | .libunwindstackUnwindRemote pid answers => libunwindstackRemoteSession h arch pid locals answers
  | .libunwindstackUnwindContext answers => libunwindstackContextSession h arch self locals answers

/-- It gets to its last line, if no frame is turned away. -/
def completes (locals : Locals) : EntryPoint → Bool
  | .libbacktraceUnwind answers => decide (answers.ret = 0)
  | .libunwindUnwindImpl .. => true
  | .libunwindstackUnwind answers => answers.parse
  | .libunwindstackUnwindRemote _ answers =>
      answers.attached && answers.stopped.getD locals.waitpidStopped && answers.parse
  | .libunwindstackUnwindContext answers => answers.parse

/-- What libunwindstack comes up with, the registers with each frame. -/
def data (locals : Locals) (e : EntryPoint) : List (FrameData × (Nat → UInt64)) :=
  if e.completes locals then
    match e with
    | .libunwindstackUnwind answers => answers.frames.map fun frame => (frame, answers.registers)
    | .libunwindstackUnwindRemote _ answers =>
        answers.frames.map fun frame => (frame, answers.registers)
    | .libunwindstackUnwindContext answers =>
        (contextTaken answers.steps contextMaxFrames 0).map fun step => (step.frame, step.registers)
    | _ => []
  else []

/-- The frames it writes, if none is turned away. -/
def frames (h : Host) (arch : BunArchitecture) (locals : Locals) (e : EntryPoint) :
    List BunFrame :=
  match e with
  | .libbacktraceUnwind answers => answers.calls.map (fullFrame h)
  | .libunwindUnwindImpl _ safety steps =>
      steps.zipIdx.map fun p => implFrame h arch safety locals p.2 p.1
  | .libunwindstackUnwind .. | .libunwindstackUnwindRemote .. | .libunwindstackUnwindContext .. =>
      stackFrames h arch locals 0 (e.data locals)

/--
What there is to say: what the unwinder has answered, and in place of an address or an
offset that it has not given, what was on the stack.
-/
def report (h : Host) (arch : BunArchitecture) (locals : Locals) (e : EntryPoint) :
    List FrameContent :=
  match e with
  | .libbacktraceUnwind answers => answers.calls.map (FullCall.content h)
  | .libunwindUnwindImpl _ safety steps =>
      steps.zipIdx.map fun p => p.1.content h arch safety locals p.2
  | .libunwindstackUnwind .. | .libunwindstackUnwindRemote .. | .libunwindstackUnwindContext .. =>
      stackReport h arch (e.data locals)

/-- The strings the unwinder hands over are as its interface has them. -/
def Sound (h : Host) : EntryPoint → Prop
  | .libbacktraceUnwind answers =>
      ∀ call ∈ answers.calls, (call.filename.getD CString.empty).1.length < h.ptrdiffMax
  | .libunwindUnwindImpl .. => True
  | .libunwindstackUnwind answers => ∀ frame ∈ answers.frames, frame.Sound h
  | .libunwindstackUnwindRemote _ answers => ∀ frame ∈ answers.frames, frame.Sound h
  | .libunwindstackUnwindContext answers => ∀ i, (answers.steps i).frame.Sound h

/-- Every address and every name is given, and so is the status of a thread that is waited for. -/
def Answered : EntryPoint → Prop
  | .libunwindUnwindImpl _ _ steps => ∀ step ∈ steps, step.ip.isSome ∧ step.procName ≠ .failed
  | .libunwindstackUnwindRemote _ answers => answers.stopped.isSome
  | .libbacktraceUnwind _ | .libunwindstackUnwind _ | .libunwindstackUnwindContext _ => True

variable {e : EntryPoint} (arch : BunArchitecture) (locals : Locals)

theorem Answered.completes_eq (he : e.Answered) (locals' : Locals) :
    e.completes locals = e.completes locals' := by
  cases e with
  | libunwindstackUnwindRemote pid answers =>
      obtain ⟨stopped, hstopped⟩ := Option.isSome_iff_exists.mp he
      rw [completes, completes, hstopped]
      rfl
  | libbacktraceUnwind answers | libunwindUnwindImpl tid safety steps
  | libunwindstackUnwind answers | libunwindstackUnwindContext answers => rfl

/-- **With every question answered the report is made of the answers alone.** -/
theorem Answered.report_eq (he : e.Answered) (locals' : Locals) :
    e.report h arch locals = e.report h arch locals' := by
  have hstack : e.data locals = e.data locals' := by
    unfold EntryPoint.data
    rw [he.completes_eq locals locals']
  cases e with
  | libbacktraceUnwind answers => rfl
  | libunwindUnwindImpl tid safety steps =>
      refine List.map_congr_left fun p hp => ?_
      obtain ⟨hip, hname⟩ := he p.1 (List.fst_mem_of_mem_zipIdx hp)
      rw [UnwStep.content, UnwStep.content, stepIp_eq hip, stepOff_eq hname]
  | libunwindstackUnwind answers => exact congrArg (stackReport h arch) hstack
  | libunwindstackUnwindRemote pid answers => exact congrArg (stackReport h arch) hstack
  | libunwindstackUnwindContext answers => exact congrArg (stackReport h arch) hstack

theorem Sound.data (he : e.Sound h) : ∀ p ∈ e.data locals, p.1.Sound h := by
  intro p hp
  unfold EntryPoint.data at hp
  split at hp
  · cases e with
    | libbacktraceUnwind answers => exact absurd hp List.not_mem_nil
    | libunwindUnwindImpl tid safety steps => exact absurd hp List.not_mem_nil
    | libunwindstackUnwind answers =>
        obtain ⟨frame, hframe, rfl⟩ := List.mem_map.mp hp
        exact he frame hframe
    | libunwindstackUnwindRemote pid answers =>
        obtain ⟨frame, hframe, rfl⟩ := List.mem_map.mp hp
        exact he frame hframe
    | libunwindstackUnwindContext answers =>
        obtain ⟨step, hstep, rfl⟩ := List.mem_map.mp hp
        obtain ⟨k, rfl⟩ := mem_contextTaken hstep
        exact he k
  · exact absurd hp List.not_mem_nil

theorem Sound.wellFormed (he : e.Sound h) : ∀ f ∈ e.frames h arch locals, f.WellFormed h := by
  have hstack := stackFrames_wellFormed arch locals 0 (he.data locals)
  cases e with
  | libbacktraceUnwind answers =>
      intro f hf
      obtain ⟨call, hcall, rfl⟩ := List.mem_map.mp hf
      exact fullFrame_wellFormed (he call hcall)
  | libunwindUnwindImpl tid safety steps =>
      intro f hf
      obtain ⟨p, _, rfl⟩ := List.mem_map.mp hf
      exact implFrame_wellFormed locals p.2 p.1
  | libunwindstackUnwind answers => exact hstack
  | libunwindstackUnwindRemote pid answers => exact hstack
  | libunwindstackUnwindContext answers => exact hstack

/-- **The frames say what the report says.** -/
theorem Sound.content (he : e.Sound h) (hend : h.endian = .little) :
    (e.frames h arch locals).map (BunFrame.content h) = e.report h arch locals := by
  have hstack := stackFrames_content hend arch locals 0 (he.data locals)
  cases e with
  | libbacktraceUnwind answers =>
      rw [frames, report, List.map_map]
      exact List.map_congr_left fun call _ => fullFrame_content call
  | libunwindUnwindImpl tid safety steps =>
      rw [frames, report, List.map_map]
      exact List.map_congr_left fun p _ => implFrame_content hend arch safety locals p.2 p.1
  | libunwindstackUnwind answers => exact hstack
  | libunwindstackUnwindRemote pid answers => exact hstack
  | libunwindstackUnwindContext answers => exact hstack

/-- A part that does not get as far as its loop writes nothing. -/
theorem stopped_eq (hno : e.completes locals = false) {session : Session} {s : WriterState}
    (hfinished : session.finished = false) (hstate : session.state = s) :
    session.state = (writeUntil h s (stackFrames h arch locals 0 (e.data locals))).2
      ∧ session.finished = (e.completes locals
        && (writeUntil h s (stackFrames h arch locals 0 (e.data locals))).1) := by
  have hdata : e.data locals = [] := if_neg (by rw [hno]; exact Bool.false_ne_true)
  rw [hdata, hno, hfinished, hstate]
  exact ⟨rfl, rfl⟩

/-- **Each entry point writes its frames until a call returns 0.** -/
theorem session_eq (e : EntryPoint) (self : UInt32) (s : WriterState) :
    (e.session h arch self locals s).state
        = (writeUntil h (e.opened self s) (e.frames h arch locals)).2
      ∧ (e.session h arch self locals s).finished
        = (e.completes locals
          && (writeUntil h (e.opened self s) (e.frames h arch locals)).1) := by
  cases e with
  | libbacktraceUnwind answers =>
      have hloop := backtraceFull_eq (h := h) answers.ret
        (bunHeaderBackendSet s .libbacktrace) answers.calls
      refine ⟨congrArg Prod.snd hloop, ?_⟩
      have hret : (libbacktraceSession h answers s).finished
          = decide ((backtraceFull h answers.ret (bunHeaderBackendSet s .libbacktrace)
            answers.calls).1 = 0) := rfl
      refine hret.trans ?_
      rw [hloop]
      show decide ((if (writeUntil h (bunHeaderBackendSet s .libbacktrace)
          (answers.calls.map (fullFrame h))).1 then answers.ret else bunWriteError) = 0)
        = (decide (answers.ret = 0) && (writeUntil h (bunHeaderBackendSet s .libbacktrace)
          (answers.calls.map (fullFrame h))).1)
      cases (writeUntil h (bunHeaderBackendSet s .libbacktrace)
        (answers.calls.map (fullFrame h))).1 with
      | true => exact (Bool.and_true _).symm
      | false => exact (Bool.and_false _).symm
  | libunwindUnwindImpl tid safety steps =>
      have hloop := implLoop_eq (h := h) arch safety locals 0
        (bunHeaderTidSet (bunHeaderBackendSet s .libunwind) tid) steps
      exact ⟨congrArg Prod.snd hloop,
        (congrArg Prod.fst hloop).trans (Bool.true_and _).symm⟩
  | libunwindstackUnwind answers =>
      show (libunwindstackSession h arch self locals answers s).state = _
        ∧ (libunwindstackSession h arch self locals answers s).finished = _
      unfold libunwindstackSession
      dsimp only
      by_cases hparse : answers.parse = false
      · rw [if_pos hparse]
        exact stopped_eq arch locals (e := .libunwindstackUnwind answers) hparse rfl rfl
      · have hall : EntryPoint.completes locals (.libunwindstackUnwind answers) = true :=
          Bool.not_eq_false _ ▸ hparse
        rw [if_neg hparse, framesLoop_eq, hall, Bool.true_and, frames, EntryPoint.data,
          if_pos hall]
        exact ⟨rfl, rfl⟩
  | libunwindstackUnwindRemote pid answers =>
      show (libunwindstackRemoteSession h arch pid locals answers s).state = _
        ∧ (libunwindstackRemoteSession h arch pid locals answers s).finished = _
      unfold libunwindstackRemoteSession
      dsimp only
      by_cases hattached : answers.attached = false
      · rw [if_pos hattached]
        exact stopped_eq arch locals (e := .libunwindstackUnwindRemote pid answers)
          (by rw [completes, hattached]; rfl) rfl rfl
      rw [if_neg hattached]
      by_cases hstopped : answers.stopped.getD locals.waitpidStopped = false
      · rw [if_pos hstopped]
        exact stopped_eq arch locals (e := .libunwindstackUnwindRemote pid answers)
          (by rw [completes, hstopped, Bool.and_false, Bool.false_and]) rfl rfl
      rw [if_neg hstopped]
      by_cases hparse : answers.parse = false
      · rw [if_pos hparse]
        exact stopped_eq arch locals (e := .libunwindstackUnwindRemote pid answers)
          (by rw [completes, hparse, Bool.and_false]) rfl rfl
      · have hall : EntryPoint.completes locals (.libunwindstackUnwindRemote pid answers)
            = true := by
          rw [Bool.not_eq_false] at hattached hstopped hparse
          rw [completes, hattached, hstopped, hparse]
          rfl
        rw [if_neg hparse, framesLoop_eq, hall, Bool.true_and, frames, EntryPoint.data,
          if_pos hall]
        exact ⟨rfl, rfl⟩
  | libunwindstackUnwindContext answers =>
      show (libunwindstackContextSession h arch self locals answers s).state = _
        ∧ (libunwindstackContextSession h arch self locals answers s).finished = _
      unfold libunwindstackContextSession
      dsimp only
      by_cases hparse : answers.parse = false
      · rw [if_pos hparse]
        exact stopped_eq arch locals (e := .libunwindstackUnwindContext answers) hparse rfl rfl
      · have hloop := contextLoop_eq (h := h) arch locals answers.steps contextMaxFrames 0
          (stackOpened s self)
        have hall : EntryPoint.completes locals (.libunwindstackUnwindContext answers) = true :=
          Bool.not_eq_false _ ▸ hparse
        rw [if_neg hparse, hall, Bool.true_and, frames, EntryPoint.data, if_pos hall]
        exact ⟨congrArg Prod.snd hloop, congrArg Prod.fst hloop⟩

theorem length_session (e : EntryPoint) (self : UInt32) (s : WriterState) :
    (e.session h arch self locals s).state.mem.bytes.length = s.mem.bytes.length := by
  rw [(e.session_eq arch locals self s).1, length_writeUntil, length_opened]

theorem run_eq (e : EntryPoint) (handles : HandleRef → BunHandle) (self : UInt32)
    (buf : BunBuffer h) (handle : Option HandleRef) :
    e.run handles self locals buf arch handle
      = runSession handles self locals.writer buf arch handle (e.session h arch self locals)
        (e.length_session arch locals self) := by
  cases e <;> rfl

/-- The buffer keeps its size. -/
theorem size_run (e : EntryPoint) {handles : HandleRef → BunHandle} {self : UInt32}
    {w : BunWriter} {buf buf' : BunBuffer h} {handle : Option HandleRef}
    (hinit : bunWriterInit handles self unopenedWriter buf arch handle = (true, w, buf')) :
    (e.run handles self locals buf arch handle).buffer.size = buf.size := by
  rw [e.run_eq, runSession, bunWriterInit_opened hinit locals.writer]
  exact (bunWriterInit_eq_true hinit).2.1

/-- The backend and the thread are set on a live writer, and the declared size stays. -/
theorem live_opened (e : EntryPoint) (self : UInt32) {s : WriterState} {rs : List Record}
    (hl : Live h s rs) : Live h (e.opened self s) rs
      ∧ HeaderField.size.get (e.opened self s).mem.bytes 0
        = HeaderField.size.get s.mem.bytes 0 := by
  have hset : ∀ {t : WriterState}, Live h t rs → ∀ (f : HeaderField) (v : Nat),
      HeaderField.size.start + HeaderField.size.width ≤ f.start → f.start + f.width ≤ headerSize →
      Live h (t.setField f v) rs ∧ HeaderField.size.get (t.setField f v).mem.bytes 0
        = HeaderField.size.get t.mem.bytes 0 := by
    intro t ht f v hstart hwidth
    refine ⟨ht.setField f v hstart hwidth, ?_⟩
    rw [ht.at_.mem_setField]
    exact HeaderField.get_setField_of_disjoint _ (by decide) ht.at_.head v (Or.inl hstart)
  have hboth : ∀ (b : BunUnwindBackend) (tid : UInt32),
      Live h (bunHeaderTidSet (bunHeaderBackendSet s b) tid) rs
        ∧ HeaderField.size.get (bunHeaderTidSet (bunHeaderBackendSet s b) tid).mem.bytes 0
          = HeaderField.size.get s.mem.bytes 0 := by
    intro b tid
    obtain ⟨hl₁, hs₁⟩ := hset hl .backend b.toUInt16 (by decide) (by decide)
    obtain ⟨hl₂, hs₂⟩ := hset hl₁ .tid tid.toNat (by decide) (by decide)
    exact ⟨hl₂, hs₂.trans hs₁⟩
  cases e with
  | libbacktraceUnwind answers => exact hset hl .backend _ (by decide) (by decide)
  | libunwindUnwindImpl tid safety steps => exact hboth .libunwind tid
  | libunwindstackUnwind answers => exact hboth .libunwindstack self
  | libunwindstackUnwindRemote pid answers => exact hboth .libunwindstack pid
  | libunwindstackUnwindContext answers => exact hboth .libunwindstack self

/-- The backend of an entry point. -/
def backend : EntryPoint → BunUnwindBackend
  | .libbacktraceUnwind _ => .libbacktrace
  | .libunwindUnwindImpl .. => .libunwind
  | .libunwindstackUnwind _ | .libunwindstackUnwindRemote .. | .libunwindstackUnwindContext _ =>
      .libunwindstack

/-- The thread that is unwound; `self` makes the call. -/
def thread (self : UInt32) : EntryPoint → UInt32
  | .libunwindUnwindImpl tid _ _ => tid
  | .libunwindstackUnwindRemote pid _ => pid
  | .libbacktraceUnwind _ | .libunwindstackUnwind _ | .libunwindstackUnwindContext _ => self

theorem toUInt16_backend (e : EntryPoint) : (e.backend.toUInt16 : Int) = e.backend.toInt := by
  cases e <;> rfl

theorem header_opened (e : EntryPoint) {self : UInt32} {s : WriterState}
    (hs : Header h s self .none) : Header h (e.opened self s) (e.thread self) e.backend := by
  cases e with
  | libbacktraceUnwind answers => exact hs.apply (.backendSet .libbacktrace)
  | libunwindUnwindImpl tid safety steps =>
      exact (hs.apply (.backendSet .libunwind)).apply (.tidSet tid)
  | libunwindstackUnwind answers =>
      exact (hs.apply (.backendSet .libunwindstack)).apply (.tidSet self)
  | libunwindstackUnwindRemote pid answers =>
      exact (hs.apply (.backendSet .libunwindstack)).apply (.tidSet pid)
  | libunwindstackUnwindContext answers =>
      exact (hs.apply (.backendSet .libunwindstack)).apply (.tidSet self)

end EntryPoint

/-- The frames leave the thread and the backend in the header alone. -/
theorem Header.writeUntil {s : WriterState} {tid : UInt32} {backend : BunUnwindBackend}
    (hs : Header h s tid backend) (frames : List BunFrame) :
    Header h (writeUntil h s frames).2 tid backend := by
  induction frames generalizing s with
  | nil => exact hs
  | cons f fs ih =>
      have hframe : Header h (frameStep h s f) tid backend := hs.apply (.frameWrite f)
      rw [writeUntil_cons]
      split
      · exact hframe
      · exact ih hframe

/-! ## The result -/

/-- The bytes a report takes. -/
def reportLength (report : List FrameContent) : Nat := (report.map FrameContent.length).sum

/-- The frames of a report that begin before `stop`, the first of them beginning at `start`. -/
def startingBefore (stop : Nat) : Nat → List FrameContent → List FrameContent
  | _, [] => []
  | start, c :: cs =>
      if start < stop then c :: startingBefore stop (start + c.length) cs else []

/-- The size that is declared for a report that is there as a whole. -/
def declaredSize (h : Host) (report : List FrameContent) : Nat :=
  headerSize + reportLength report - h.shortfall * report.length

/-- The buffer has room for the report, and the header for the size. -/
def ReportFits (buf : BunBuffer h) (report : List FrameContent) : Prop :=
  headerSize + reportLength report ≤ buf.payload.length ∧ buf.payload.length < 2 ^ 32

/-- What an entry point that was called by thread `self` returns and leaves to be read. -/
structure Reports (self : UInt32) (arch : BunArchitecture) (locals : Locals) (e : EntryPoint)
    (u : Unwound h) : Prop where
  /-- A fresh reader goes through the first frames of the report, however full the buffer is. -/
  read : ∀ r₀ handle f₀, ∃ r frames, bunReaderInit r₀ u.buffer handle = some (true, r)
    ∧ bunHeaderTidGet u.buffer.payload r = some (e.thread self).toNat
    ∧ bunHeaderBackendGet u.buffer.payload r = some e.backend.toInt
    ∧ readFrames h u.buffer.payload (u.buffer.payload.length / 28 + 1) r f₀ = some frames
    ∧ frames.map (BunFrame.content h) <+: e.report h arch locals
    ∧ (ReportFits u.buffer (e.report h arch locals) → frames.map (BunFrame.content h)
      = startingBefore (declaredSize h (e.report h arch locals)) headerSize
        (e.report h arch locals))
  /-- With room for everything the number returned is what is declared. -/
  ret : ReportFits u.buffer (e.report h arch locals) →
    u.ret = if e.completes locals then declaredSize h (e.report h arch locals) else 0
  /-- In any case it is the declared size or 0. -/
  ret_cases : u.ret = 0
    ∨ e.completes locals = true ∧ u.ret = HeaderField.size.get u.buffer.payload 0

/-- What the walk over a live stream sees, by the lengths of what it says. -/
theorem map_openPart {size : Nat} {rs : List Record} {off : Nat} (hsize : size < 2 ^ 32)
    (hin : size ≤ h.ptrdiffMax) (hoff : off + (frameCodec.encodeAll rs).length ≤ h.ptrdiffMax) :
    (frameCodec.openPart (gate h size) off rs).map (Record.content h)
      = startingBefore size off (rs.map (Record.content h)) := by
  induction rs generalizing off with
  | nil => rfl
  | cons rec rs ih =>
      rw [Codec.encodeAll, List.length_append] at hoff
      have hgate : gate h size off = true ↔ off < size := by
        rw [gate_eq_true_iff (by omega) hsize]
        omega
      rw [Codec.openPart, List.map_cons, startingBefore, rec.length_content]
      by_cases hlt : off < size
      · rw [if_pos hlt, if_pos (hgate.mpr hlt), List.map_cons, ih (by omega), rec.length_encode]
      · rw [if_neg hlt, if_neg (fun hopen => hlt (hgate.mp hopen))]
        rfl

/-- A record takes at least 28 bytes. -/
theorem length_le_encodeAll (rs : List Record) :
    28 * rs.length ≤ (frameCodec.encodeAll rs).length := by
  induction rs with
  | nil => exact Nat.le_refl _
  | cons rec rs ih =>
      have hge := rec.length_ge
      rw [Codec.encodeAll, List.length_append, rec.length_encode, List.length_cons]
      omega

theorem totalLength_eq {frames : List BunFrame} {report : List FrameContent}
    (hreport : frames.map (BunFrame.content h) = report) :
    totalLength frames = reportLength report ∧ frames.length = report.length := by
  subst hreport
  refine ⟨?_, (List.length_map _).symm⟩
  rw [totalLength, reportLength, List.map_map]
  exact congrArg List.sum (List.map_congr_left fun f _ => f.length_content.symm)

/-- Readable memory, to the frame. -/
theorem Readable.read_exact {buf : BunBuffer h} {rs : List Record}
    (hm : Readable h buf.payload rs) (hbuf : bunBufferPayloadHeaderSize ≤ buf.size)
    (hend : streamEnd rs ≤ buf.payload.length) (hsmall : buf.payload.length < 2 ^ 32)
    (hsize : HeaderField.size.get buf.payload 0 ≤ streamEnd rs) {r : BunReader}
    {r₀ : BunReader} {handle : Option HandleRef}
    (hinit : bunReaderInit r₀ buf handle = some (true, r)) {f₀ : BunFrame} {frames : List BunFrame}
    (hread : readFrames h buf.payload (buf.payload.length / 28 + 1) r f₀ = some frames) :
    frames.map (BunFrame.content h) = startingBefore (HeaderField.size.get buf.payload 0)
      headerSize (rs.map (Record.content h)) := by
  have hle := (buf.payload_room hbuf).2.1
  obtain ⟨hr, hov, _⟩ := bunReaderInit_at hinit
  have hcalls : (buf.payload.length - headerSize) / 28 < buf.payload.length / 28 + 1 :=
    Nat.lt_succ_of_le (Nat.div_le_div_right (Nat.sub_le _ _))
  obtain ⟨frames', hread', hmap⟩ := readFrames_content hr hr.off_le hov f₀ hcalls
  rw [hread] at hread'
  have hfuel : rs.length ≤ buf.payload.length / 28 + 1 := by
    have hcount := length_le_encodeAll rs
    rw [streamEnd] at hend
    omega
  rw [Option.some.inj hread', hmap, hm.stream, Codec.collect_eq_openPart hm.stops hfuel]
  exact map_openPart (by omega) (by omega) (by rw [streamEnd] at hend; omega)

/--
**What the unwinder answers is what a reader gets.** For every entry point, every
answer of the unwinder, and every buffer on which the session is opened.
-/
theorem reports_of_opened {handles : HandleRef → BunHandle} {self : UInt32} {w : BunWriter}
    {buf buf' : BunBuffer h} {arch : BunArchitecture} {handle : Option HandleRef}
    (hend : h.endian = .little) (hbuf : bunBufferPayloadHeaderSize ≤ buf.size)
    (hinit : bunWriterInit handles self unopenedWriter buf arch handle = (true, w, buf'))
    {e : EntryPoint} (he : e.Sound h) (locals : Locals) :
    Reports self arch locals e (e.run handles self locals buf arch handle) := by
  have hrun := e.run_eq arch locals handles self buf handle
  obtain ⟨hstate, hfinished⟩ := e.session_eq arch locals self ⟨w, buf'.memory⟩
  obtain ⟨hlive, hopened⟩ := e.live_opened self (Live.start hbuf hinit)
  have hdeclared : HeaderField.size.get (e.opened self ⟨w, buf'.memory⟩).mem.bytes 0
      = headerSize := hopened.trans (bunWriterInit_at hbuf hinit).2.2.2
  have hheader := (e.header_opened (Header.init hbuf hinit)).writeUntil (e.frames h arch locals)
  have hwf := he.wellFormed arch locals
  have hcontent := he.content arch locals hend
  -- what is left of the entry point is the loop
  have hret : (e.run handles self locals buf arch handle).ret
      = if e.completes locals && (writeUntil h (e.opened self ⟨w, buf'.memory⟩)
          (e.frames h arch locals)).1
        then HeaderField.size.get (e.run handles self locals buf arch handle).buffer.payload 0
        else 0 := by
    rw [hrun, runSession, bunWriterInit_opened hinit locals.writer, ← hfinished]
    rfl
  have hpayload : (e.run handles self locals buf arch handle).buffer.payload
      = (writeUntil h (e.opened self ⟨w, buf'.memory⟩) (e.frames h arch locals)).2.mem.bytes := by
    rw [hrun, (EntryPoint.runSession_opened hinit locals.writer _ _).1, hstate]
  have hsize : bunBufferPayloadHeaderSize
      ≤ (e.run handles self locals buf arch handle).buffer.size := by
    rw [e.size_run arch locals hinit]
    exact hbuf
  generalize e.run handles self locals buf arch handle = u at hret hpayload hsize ⊢
  -- with room for all of it the loop gets to its end
  have hfits : ReportFits u.buffer (e.report h arch locals) → ∃ rs,
      Live h (writeUntil h (e.opened self ⟨w, buf'.memory⟩) (e.frames h arch locals)).2 rs
        ∧ rs.map (Record.content h) = e.report h arch locals
        ∧ HeaderField.size.get u.buffer.payload 0 = declaredSize h (e.report h arch locals)
        ∧ (writeUntil h (e.opened self ⟨w, buf'.memory⟩) (e.frames h arch locals)).1 = true := by
    rintro ⟨hfit, hsmall⟩
    obtain ⟨htotal, hnum⟩ := totalLength_eq hcontent
    have hlen := length_writeUntil (h := h) (e.opened self ⟨w, buf'.memory⟩)
      (e.frames h arch locals)
    rw [hpayload, hlen] at hfit hsmall
    rw [← htotal] at hfit
    rw [hpayload, hlive.writeUntil_of_fits hwf hfit]
    obtain ⟨new, hlive', hnew, hgap⟩ := hlive.run hsmall hwf hfit
    refine ⟨new, hlive', hnew.trans hcontent, ?_, rfl⟩
    rw [hdeclared] at hgap
    rw [declaredSize, ← htotal, ← hnum]
    exact Nat.eq_sub_of_add_eq hgap
  refine ⟨?_, ?_, ?_⟩
  · intro r₀ handle' f₀
    obtain ⟨new, hreadable, hnew⟩ := hlive.readable_writeUntil hwf
    rw [List.nil_append, ← hpayload] at hreadable
    obtain ⟨r, frames, hr, hread, hprefix⟩ :=
      hreadable.read hsize r₀ handle' f₀ (Nat.lt_succ_self _)
    rw [hcontent] at hnew
    obtain ⟨htid, hbackend⟩ := hheader.get (bunReaderInit_at hr).1.buffer
    rw [← hpayload] at htid hbackend
    rw [e.toUInt16_backend] at hbackend
    refine ⟨r, frames, hr, htid, hbackend, hread, hprefix.trans hnew, fun hfit => ?_⟩
    obtain ⟨rs, hl, hrs, hexact, _⟩ := hfits hfit
    have hreadable' : Readable h u.buffer.payload rs := by
      rw [hpayload]
      exact hl.readable (Region.SameOn.refl 0 (streamEnd rs) _) (Int.le_refl _)
    have hinside : streamEnd rs ≤ u.buffer.payload.length := by
      rw [hpayload]
      exact hl.inside
    have hbehind : HeaderField.size.get u.buffer.payload 0 ≤ streamEnd rs := by
      rw [hpayload]
      exact hl.size_le
    rw [← hexact, ← hrs]
    exact hreadable'.read_exact hsize hinside hfit.2 hbehind hr hread
  · intro hfit
    obtain ⟨_, _, _, hexact, hall⟩ := hfits hfit
    rw [hret, hall, hexact, Bool.and_true]
  · rw [hret]
    split
    · rename_i hdone
      exact Or.inr ⟨(Bool.and_eq_true_iff.mp hdone).1, rfl⟩
    · exact Or.inl rfl

/-- Any other content of the stack gives the same report, if every question is answered. -/
theorem Reports.of_answered {self : UInt32} {arch : BunArchitecture} {locals : Locals}
    {e : EntryPoint} {u : Unwound h} (hreports : Reports self arch locals e u) (he : e.Answered)
    (locals' : Locals) : Reports self arch locals' e u := by
  obtain ⟨hread, hret, hcases⟩ := hreports
  rw [he.report_eq arch locals locals'] at hret
  simp only [he.report_eq arch locals locals'] at hread
  rw [he.completes_eq locals locals'] at hret hcases
  exact ⟨hread, hret, hcases⟩

/-! ## Two steps in three ways -/

/-- A step in `f`, for which libunwind has two registers. -/
def leafStep : UnwStep where
  ip := some 0x401106
  procName := .stored leafName 4 (by decide)
  dliSname := none
  demangled := none
  registers := fun i => if i < 2 then some (UInt64.ofNat i) else none

/-- A step in `main`. -/
def mainStep : UnwStep :=
  { leafStep with
    ip := some 0x401136
    procName := .stored mainName 22 (by decide) }

/-- The same two as libunwindstack has them, in "a.out". -/
def stackAnswers : LocalAnswers where
  parse := true
  frames := [⟨0x401106, leafName.1, [97, 46, 111, 117, 116], 4, none⟩,
    ⟨0x401136, mainName.1, [97, 46, 111, 117, 116], 22, none⟩]
  registers := UInt64.ofNat

/-- And as libbacktrace has them, in "a.c". -/
def fullAnswers : BacktraceAnswers where
  calls := [⟨0x401106, some sourceName, 3, some leafName, some leafName⟩,
    ⟨0x401136, some sourceName, 12, some mainName, some mainName⟩]
  ret := 0

theorem stackAnswers_sound :
    (EntryPoint.libunwindstackUnwind stackAnswers).Sound ⟨.w64, .little⟩ := by
  rintro frame (_ | ⟨_, _ | ⟨_, hframe⟩⟩)
  · exact ⟨by decide, by decide, by decide, by decide⟩
  · exact ⟨by decide, by decide, by decide, by decide⟩
  · exact absurd hframe List.not_mem_nil

theorem steps_answered (tid : UInt32) (safety : BunUnwindSignalSafety) :
    (EntryPoint.libunwindUnwindImpl tid safety [leafStep, mainStep]).Answered := by
  rintro step (_ | ⟨_, _ | ⟨_, hstep⟩⟩)
  · exact ⟨rfl, ProcName.noConfusion⟩
  · exact ⟨rfl, ProcName.noConfusion⟩
  · exact absurd hstep List.not_mem_nil

end LibBun
