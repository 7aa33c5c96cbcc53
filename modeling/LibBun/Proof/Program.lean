import LibBun.Program
import LibBun.Proof.Handle
import LibBun.Proof.Print
import LibBun.Proof.Saved
import LibBun.Proof.WriteOnce

/-!
# What a program may do, and what it has then

`discipline` is the protocol of a program: what it may do with its handles and buffers,
told from what it has done before. It knows of no memory, no counter and no writer. Of a
handle it keeps the phase and the flags, of a buffer the handle it is bound to, whether
its one session was used up, and the last call that unwound into it.

Two theorems say that this is all that matters. A program gets through without anything
undefined if and only if it keeps to the protocol; and a reader of a buffer gets what the
unwinder answered to the last call on it, whatever was done with other buffers and with
handles since.
-/

namespace LibBun

variable {h : Host} {build : Build}

/-! ## The protocol -/

/-- A call that unwound: who made it, what its locals held, and the entry point. -/
structure LastUnwind where
  self : UInt32
  locals : Locals
  entry : EntryPoint

/-- A buffer, to a program. -/
structure BufferUse where
  bound : Option HandleRef
  /-- A session was opened while the write-once flag was set. -/
  spent : Bool
  last : Option LastUnwind

/-- A buffer that was just initialised. -/
def BufferUse.blank : BufferUse := ⟨none, false, none⟩

/-- A call through handle `r` gets to its entry point, and may go on there or not. -/
def BufferUse.enter (t : BufferUse) (r : HandleRef) (flags : UInt64) (x : LastUnwind) :
    Option BufferUse :=
  if (t.bound = none ∨ t.bound = some r) ∧ ¬(flags &&& bunHandleWriteOnce ≠ 0 ∧ t.spent = true) then
    some ⟨some r, t.spent || flags &&& bunHandleWriteOnce != 0, some x⟩
  else
    none

/--
Where a call leads through a handle in this phase: to an entry point, or back before it
gets to one. `none` is neither, because the call is not to be made or does not return.
-/
def Unwinding.leads (x : Unwinding) (phase : Phase) : Option (Option EntryPoint) :=
  match x.call, phase.backend with
  | .unwind, .libunwind =>
      some (some (.libunwindUnwindImpl x.self .required x.answers.libunwind))
  | .unwind, .libbacktrace => some (some (.libbacktraceUnwind x.answers.libbacktrace))
  | .unwind, .libunwindstack => some (some (.libunwindstackUnwind x.answers.libunwindstack))
  | .unwindContext, .libunwindstack =>
      some (some (.libunwindstackUnwindContext x.answers.libunwindstackContext))
  | .unwindRemote pid _, .libunwindstack =>
      some (some (.libunwindstackUnwindRemote pid x.answers.libunwindstackRemote))
  | .unwindRemote pid fuel, .libunwind =>
      if x.answers.libunwindRemote.attached = false then
        some none
      else
        match bunWaitpid (pidT pid) 5000 x.answers.libunwindRemote.wait fuel with
        | none => none
        | some status =>
            if status < 0 then some none
            else if phase = .destroyed .libunwind then none
            else if x.answers.libunwindRemote.init = false then some none
            else some (some (.libunwindUnwindImpl pid .notRequired x.answers.libunwindRemote.steps))
  | _, _ => none

/-- A program, from far enough. -/
structure ProgramState where
  handles : HandleRef → HandleState
  flags : HandleRef → UInt64
  buffers : BufferRef → Option BufferUse

/-- Nothing has been initialised. -/
def ProgramState.start : ProgramState := ⟨fun _ => HandleState.blank, fun _ => 0, fun _ => none⟩

/-- What a program may do, and where it leads. -/
def discipline (build : Build) : Protocol ProgramState (ProgramOp h) := fun s op =>
  match op with
  | .handleInit r backend malloc =>
      ((lifecycle (h := h) build).family s.handles (r, .init backend malloc)).map fun handles =>
        { s with handles := handles, flags := Function.update s.flags r 0 }
  | .setFlags r flags => some { s with flags := Function.update s.flags r flags }
  | .handleDeinit r =>
      ((lifecycle (h := h) build).family s.handles (r, .deinit)).map fun handles =>
        { s with handles := handles }
  | .bufferInit b data =>
      if data.1.length < bunBufferPayloadHeaderSize then some s
      else some { s with buffers := Function.update s.buffers b (some .blank) }
  | .unwind r b x =>
      match s.buffers b, x.leads (s.handles r).phase with
      | some _, some none => some s
      | some t, some (some entry) =>
          (t.enter r (s.flags r) ⟨x.self, x.locals, entry⟩).map fun t =>
            { s with buffers := Function.update s.buffers b (some t) }
      | _, _ => none

/-! ## Where a call leads -/

/-- **A call leads where the phase of its handle has it**, and nothing else matters. -/
theorem Unwinding.run_cases (build : Build) {p : Process} {owner : Nat → HandleRef} {r : HandleRef}
    {t : HandleState} (hr : HandleIn p.heap owner r (p.handles r) t) (x : Unwinding)
    (buffer : BunBuffer h) :
    (x.leads t.phase = none ∧ (x.run build p buffer r).join = none)
      ∨ (x.leads t.phase = some none ∧ x.enters p r = false
        ∧ ∃ u, x.run build p buffer r = some (some u) ∧ u.buffer = buffer)
      ∨ ∃ e u, x.leads t.phase = some (some e) ∧ x.enters p r = true
        ∧ x.run build p buffer r = some (some u)
        ∧ u.buffer = (e.run p.bunHandles x.self x.locals buffer build.arch (some r)).buffer := by
  obtain ⟨call, self, locals, answers⟩ := x
  cases call with
  | unwind =>
      have hfn := hr.pointsTo.unwind
      unfold Unwinding.leads Unwinding.run Unwinding.enters bunUnwind
      dsimp only
      rw [hfn]
      cases hbackend : t.phase.backend with
      | none => exact Or.inl ⟨rfl, rfl⟩
      | libunwind => exact Or.inr (Or.inr ⟨_, _, rfl, rfl, rfl, rfl⟩)
      | libbacktrace => exact Or.inr (Or.inr ⟨_, _, rfl, rfl, rfl, rfl⟩)
      | libunwindstack => exact Or.inr (Or.inr ⟨_, _, rfl, rfl, rfl, rfl⟩)
  | unwindContext =>
      have hfn := hr.pointsTo.unwindContext
      unfold Unwinding.leads Unwinding.run Unwinding.enters bunUnwindContext
      dsimp only
      rw [hfn]
      cases hbackend : t.phase.backend with
      | none => exact Or.inl ⟨rfl, rfl⟩
      | libunwind => exact Or.inl ⟨rfl, rfl⟩
      | libbacktrace => exact Or.inl ⟨rfl, rfl⟩
      | libunwindstack => exact Or.inr (Or.inr ⟨_, _, rfl, rfl, rfl, rfl⟩)
  | unwindRemote pid fuel =>
      have hfn := hr.pointsTo.unwindRemote
      unfold Unwinding.leads Unwinding.run Unwinding.enters bunUnwindRemote
      dsimp only
      rw [hfn]
      cases hbackend : t.phase.backend with
      | none => exact Or.inl ⟨rfl, rfl⟩
      | libbacktrace => exact Or.inl ⟨rfl, rfl⟩
      | libunwindstack => exact Or.inr (Or.inr ⟨_, _, rfl, rfl, rfl, rfl⟩)
      | libunwind =>
          have hlive := hr.liveContext hbackend
          dsimp only [unwindRemoteFn]
          unfold UnwRemoteAnswers.getsToInit libunwindUnwindRemote
          cases hattached : answers.libunwindRemote.attached with
          | false => exact Or.inr (Or.inl ⟨rfl, rfl, _, rfl, rfl⟩)
          | true =>
              simp only [Bool.true_eq_false, if_false, Bool.true_and]
              cases hwait : bunWaitpid (pidT pid) 5000 answers.libunwindRemote.wait fuel with
              | none => exact Or.inl ⟨rfl, rfl⟩
              | some status =>
                  dsimp only [Option.any_some]
                  by_cases hneg : status < 0
                  · simp only [hneg, not_true, decide_false, if_true]
                    exact Or.inr (Or.inl ⟨trivial, rfl, _, rfl, rfl⟩)
                  · -- the thread has stopped, and the context is followed
                    simp only [hneg, not_false_eq_true, decide_true, if_false, true_and]
                    by_cases hgone : t.phase = .destroyed .libunwind
                    · rw [if_pos hgone, if_pos (hlive.mpr hgone)]
                      exact Or.inl ⟨rfl, rfl⟩
                    · rw [if_neg hgone, if_neg (hgone ∘ hlive.mp)]
                      cases hinit : answers.libunwindRemote.init with
                      | false => exact Or.inr (Or.inl ⟨rfl, rfl, _, rfl, rfl⟩)
                      | true => exact Or.inr (Or.inr ⟨_, _, rfl, rfl, rfl, rfl⟩)

/-! ## Buffers -/

/-- The buffer is as its state has it. -/
structure BufferIn (arch : BunArchitecture) (buf : BunBuffer h) (t : BufferUse) : Prop where
  room : bunBufferPayloadHeaderSize ≤ buf.size
  handle : buf.handle = t.bound
  /-- Attempts that are counted and refused are not survived. -/
  count : buf.writeCount = if t.spent then 1 else 0
  blank : t.last = none → ∀ r₀ handle, bunReaderInit r₀ buf handle = some (false, r₀)
  /-- A call has left it like this, and it tells what the call was told. -/
  told : ∀ x, t.last = some x → h.endian = .little → x.entry.Sound h →
    ∃ u : Unwound h, u.buffer = buf ∧ Reports x.self arch x.locals x.entry u

namespace BufferIn

variable {arch : BunArchitecture} {buf : BunBuffer h} {t : BufferUse}

theorem fresh {data : CObject h} (hbuf : bunBufferInit data = some buf) :
    BufferIn arch buf .blank := by
  obtain ⟨_, _, hcount, hhandle, _⟩ := bunBufferInit_eq_some hbuf
  refine ⟨bunBufferInit_size hbuf, hhandle, hcount, fun _ => bunReaderInit_fresh hbuf, ?_⟩
  intro x hx
  exact absurd hx (by simp [BufferUse.blank])

theorem countedOut_iff (hb : BufferIn arch buf t) (handles : HandleRef → BunHandle)
    (r : HandleRef) : CountedOut handles buf (some r)
      ↔ (handles r).flags &&& bunHandleWriteOnce ≠ 0 ∧ t.spent = true := by
  have hcount := hb.count
  have honce : isWriteOnce handles (some r) = true
      ↔ (handles r).flags &&& bunHandleWriteOnce ≠ 0 := by simp [isWriteOnce]
  rw [CountedOut, honce, hcount]
  cases t.spent with
  | false => exact iff_of_false (fun h => absurd h.2 (by decide)) (by simp)
  | true => exact and_congr_right fun _ => iff_of_true (by decide) rfl

/-- **A session is opened if the state of the buffer allows it.** -/
theorem opening (hb : BufferIn arch buf t) (handles : HandleRef → BunHandle) (r : HandleRef)
    (self : UInt32) (w₀ : BunWriter) (x : LastUnwind) :
    ((bunWriterInit handles self w₀ buf arch (some r)).1 = false
        ∧ t.enter r (handles r).flags x = none)
      ∨ ∃ w buf' t', bunWriterInit handles self w₀ buf arch (some r) = (true, w, buf')
        ∧ t.enter r (handles r).flags x = some t' ∧ buf'.size = buf.size
        ∧ buf'.handle = t'.bound ∧ buf'.writeCount = (if t'.spent then 1 else 0)
        ∧ t'.last = some x := by
  have hout := hb.countedOut_iff handles r
  have hhandle := hb.handle
  have hsize : headerSize ≤ buf.size := headerSize_le_payloadHeaderSize.trans hb.room
  unfold BufferUse.enter
  by_cases hbound : t.bound = none ∨ t.bound = some r
  · have hbind : bindHandle buf.handle (some r) = some (some r) :=
      bindHandle_same (hhandle ▸ hbound)
    by_cases hspent : (handles r).flags &&& bunHandleWriteOnce ≠ 0 ∧ t.spent = true
    · rw [bunWriterInit_of_countedOut hsize hbind (hout.mpr hspent)]
      exact Or.inl ⟨rfl, if_neg fun hboth => hboth.2 hspent⟩
    · refine Or.inr ⟨_, _, _, bunWriterInit_of_admitted hsize hbind (hspent ∘ hout.mp),
        if_pos ⟨hbound, hspent⟩, rfl, rfl, ?_, rfl⟩
      show (if isWriteOnce handles (some r) then buf.writeCount + 1 else buf.writeCount) = _
      rw [hb.count]
      cases honce : (handles r).flags &&& bunHandleWriteOnce != 0 with
      | false => simp [isWriteOnce, honce]
      | true =>
          have hfirst : t.spent = false := by
            simpa using fun h => hspent ⟨by simpa using honce, h⟩
          simp [isWriteOnce, honce, hfirst]
  · have hbind : bindHandle buf.handle (some r) = none := by
      rw [hhandle]
      cases hr : t.bound with
      | none => exact absurd (Or.inl hr) hbound
      | some j =>
          have hne : j ≠ r := fun heq => hbound (Or.inr (heq ▸ hr))
          simp [bindHandle, Ne.symm hne]
    rw [bunWriterInit_of_turnedAway (Or.inr hbind)]
    exact Or.inl ⟨rfl, if_neg fun hboth => hbound hboth.1⟩

/-- **What an entry point leaves** is a buffer that tells of it. -/
theorem entered (hroom : bunBufferPayloadHeaderSize ≤ buf.size) {handles : HandleRef → BunHandle}
    {r : HandleRef} {x : LastUnwind} {w₀ w : BunWriter} {buf' : BunBuffer h} {t' : BufferUse}
    (hinit : bunWriterInit handles x.self w₀ buf arch (some r) = (true, w, buf'))
    (hsize : buf'.size = buf.size) (hhandle : buf'.handle = t'.bound)
    (hcount : buf'.writeCount = if t'.spent then 1 else 0) (hlast : t'.last = some x) :
    BufferIn arch (x.entry.run handles x.self x.locals buf arch (some r)).buffer t' := by
  have hrun := x.entry.run_eq arch x.locals handles x.self buf (some r)
  rw [runSession, bunWriterInit_opened hinit x.locals.writer] at hrun
  have hleft := congrArg Unwound.buffer hrun
  refine ⟨?_, ?_, ?_, ?_, ?_⟩
  · rw [hleft]
    show bunBufferPayloadHeaderSize ≤ buf'.size
    rw [hsize]
    exact hroom
  · rw [hleft]
    exact hhandle
  · rw [hleft]
    exact hcount
  · intro hnone
    exact absurd (hnone.symm.trans hlast) (by simp)
  · intro y hy hend hsound
    obtain rfl : x = y := Option.some.inj (hlast.symm.trans hy)
    exact ⟨_, rfl, reports_of_opened hend hroom (bunWriterInit_opened hinit unopenedWriter) hsound
      x.locals⟩

end BufferIn

/-! ## Handles -/

/-- The program is as the protocol has it. -/
structure Program.InState (build : Build) (p : Program h) (s : ProgramState) : Prop where
  handles : p.process.InPhase s.handles
  flags : ∀ r, (p.process.handles r).flags = s.flags r
  buffers : ∀ b, Option.Rel (BufferIn build.arch) (p.buffers b) (s.buffers b)

namespace Program.InState

variable {p : Program h} {s : ProgramState}

/-- A buffer that changes is a matter of its own. -/
theorem update (hf : p.InState build s) {b : BufferRef} {buf : BunBuffer h} {t : BufferUse}
    (hb : BufferIn build.arch buf t) :
    Program.InState build { p with buffers := Function.update p.buffers b (some buf) }
      { s with buffers := Function.update s.buffers b (some t) } := by
  refine ⟨hf.handles, hf.flags, fun j => ?_⟩
  show Option.Rel _ (Function.update p.buffers b (some buf) j)
    (Function.update s.buffers b (some t) j)
  by_cases hj : j = b
  · subst hj
    rw [Function.update_self, Function.update_self]
    exact Option.Rel.some hb
  · rw [Function.update_of_ne hj, Function.update_of_ne hj]
    exact hf.buffers j

/-- **A call that unwinds.** -/
theorem unwind (hf : p.InState build s) (r : HandleRef) (b : BufferRef) (x : Unwinding) :
    (Program.step build p (.unwind r b x) = none
        ∧ discipline (h := h) build s (.unwind r b x) = none)
      ∨ ∃ p' s', Program.step build p (.unwind r b x) = some p'
        ∧ discipline (h := h) build s (.unwind r b x) = some s' ∧ p'.InState build s' := by
  obtain ⟨owner, hall⟩ := hf.handles
  have hbuf := hf.buffers b
  unfold Program.step discipline
  dsimp only
  cases hp : p.buffers b with
  | none =>
      rw [hp] at hbuf
      cases hs : s.buffers b with
      | none => exact Or.inl ⟨rfl, rfl⟩
      | some t =>
          rw [hs] at hbuf
          cases hbuf
  | some buf =>
      rw [hp] at hbuf
      cases hs : s.buffers b with
      | none =>
          rw [hs] at hbuf
          cases hbuf
      | some t =>
          rw [hs] at hbuf
          cases hbuf with
          | some hb =>
          dsimp only
          rcases x.run_cases build (hall r) buf with
            ⟨hleads, hrun⟩ | ⟨hleads, henters, u, hrun, hu⟩ | ⟨e, u, hleads, henters, hrun, hu⟩
          · rw [hleads, hrun]
            refine Or.inl ⟨?_, rfl⟩
            split <;> rfl
          · -- it comes back before it gets to the buffer
            rw [hleads, hrun, henters, if_neg (by simp), Option.join_some, Option.map_some, hu,
              ← hp, Function.update_eq_self]
            exact Or.inr ⟨_, _, rfl, rfl, hf⟩
          · have hflags : (p.process.bunHandles r).flags = s.flags r := hf.flags r
            have hopening := hb.opening p.process.bunHandles r x.self x.locals.writer
              ⟨x.self, x.locals, e⟩
            rw [hflags] at hopening
            rw [hleads, hrun, henters, Option.join_some, Option.map_some, hu]
            dsimp only
            rcases hopening with ⟨hinit, henter⟩ | ⟨w, buf', t', hinit, henter, hafter⟩
            · have hrefused : x.refused build p.process buf r = true := by
                rw [Unwinding.refused, hinit]
                rfl
              rw [hrefused, henter, if_pos ⟨rfl, rfl⟩]
              exact Or.inl ⟨rfl, rfl⟩
            · have hopened : x.refused build p.process buf r = false := by
                rw [Unwinding.refused, hinit]
                rfl
              obtain ⟨hsize, hhandle, hcount, hlast⟩ := hafter
              have hleft := BufferIn.entered (x := ⟨x.self, x.locals, e⟩) hb.room hinit hsize
                hhandle hcount hlast
              rw [hopened, henter, if_neg (by simp), Option.map_some]
              exact Or.inr ⟨_, _, rfl, rfl, hf.update hleft⟩

end Program.InState

/-- The second call that unwinds into a write-once buffer is not refused: it is undefined. -/
example : ((discipline fullBuild).run ProgramState.start
    [.handleInit 5 .libbacktrace true, .setFlags 5 bunHandleWriteOnce,
      .bufferInit 0 (zeroedObject ⟨.w64, .little⟩ 100 (by decide)),
      .unwind 5 0 ⟨.unwind, 7, strayLocals unopenedWriter, twoStepAnswers⟩,
      .unwind 5 0 ⟨.unwind, 7, strayLocals unopenedWriter, twoStepAnswers⟩]).isSome = false := rfl

end LibBun
