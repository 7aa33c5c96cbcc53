import LibBun.Proof.Refused
import LibBun.Proof.Waitpid

/-!
# Who traces the target

A thread has one tracer at most, and it does not run while it is stopped for one.
The remote entry points make the caller the tracer of their target for as long as
they look at it, and should leave it as they have found it, on every path.

What `ptrace` does to the target is the relation `TraceStep` here, and an entry
point is seen as the list of its calls. `leavesAsFound_bracket` says when an attach
that is followed by a detach is undone by it, and `unwindRemote_leavesAsFound_iff` on
which paths something is left. The libunwind backend detaches even if it could not attach,
and so lets go of a thread the caller was tracing before; the libunwindstack backend
takes what is on the stack for the status of the target if `waitpid` stores none,
and may return without a detach.
-/

namespace LibBun

variable {h : Host}

/-! ## The target -/

/-- Whom a thread is traced by. -/
inductive Tracing where
  | untraced
  | byCaller
  | byOther
deriving DecidableEq

/-- The call is about the tracing of the thread. -/
def ExternalCall.Ptraces (pid : UInt32) (c : ExternalCall) : Prop :=
  c = .ptraceAttach pid ∨ c = .ptraceDetach pid

/--
What a call makes of the thread `pid`, `none` if there is no such thread. An attach
succeeds if `attached`, and then only on a thread without a tracer.
-/
inductive TraceStep (pid : UInt32) (attached : Bool) :
    Option Tracing → ExternalCall → Option Tracing → Prop where
  | gone (t : Option Tracing) (c : ExternalCall) : TraceStep pid attached t c none
  | attach (h : attached = true) :
      TraceStep pid attached (some .untraced) (.ptraceAttach pid) (some .byCaller)
  | refused (h : attached = false) (t : Tracing) :
      TraceStep pid attached (some t) (.ptraceAttach pid) (some t)
  | detach : TraceStep pid attached (some .byCaller) (.ptraceDetach pid) (some .untraced)
  | notOurs {t : Tracing} (h : t ≠ .byCaller) :
      TraceStep pid attached (some t) (.ptraceDetach pid) (some t)
  | other {c : ExternalCall} (h : ¬c.Ptraces pid) (t : Tracing) :
      TraceStep pid attached (some t) c (some t)

/-- What a list of calls makes of the thread. -/
inductive TraceRun (pid : UInt32) (attached : Bool) :
    Option Tracing → List ExternalCall → Option Tracing → Prop where
  | nil (t : Option Tracing) : TraceRun pid attached t [] t
  | cons {t u v : Option Tracing} {c : ExternalCall} {cs : List ExternalCall}
      (hstep : TraceStep pid attached t c u) (hrun : TraceRun pid attached u cs v) :
      TraceRun pid attached t (c :: cs) v

/-- If the target still exists after the calls, it is traced by whom it was traced before. -/
def LeavesAsFound (pid : UInt32) (attached : Bool) (t : Tracing) (calls : List ExternalCall) :
    Prop :=
  ∀ t', TraceRun pid attached (some t) calls (some t') → t' = t

variable {pid : UInt32} {attached : Bool} {t t' : Tracing} {c : ExternalCall}
  {cs : List ExternalCall}

/-- A thread that is gone does not come back. -/
theorem TraceRun.exists_head {v : Tracing} {u : Option Tracing}
    (hrun : TraceRun pid attached u (c :: cs) (some v)) :
    ∃ t t', u = some t ∧ TraceStep pid attached (some t) c (some t')
      ∧ TraceRun pid attached (some t') cs (some v) := by
  have hgone : ∀ {u : Option Tracing} {cs : List ExternalCall} {w : Option Tracing},
      TraceRun pid attached u cs w → w = some v → ∃ t, u = some t := by
    intro u cs w hrun hw
    induction hrun with
    | nil t => exact ⟨v, hw⟩
    | cons hstep _ ih =>
        obtain ⟨t', rfl⟩ := ih hw
        cases hstep <;> exact ⟨_, rfl⟩
  cases hrun with
  | cons hstep hrest =>
      obtain ⟨t', rfl⟩ := hgone hrest rfl
      have hfirst : ∃ t, u = some t := by cases hstep <;> exact ⟨_, rfl⟩
      obtain ⟨t, rfl⟩ := hfirst
      exact ⟨t, t', rfl, hstep, hrest⟩

/-! ## Attach and detach -/

theorem TraceStep.attach_cases (hstep : TraceStep pid attached (some t) (.ptraceAttach pid)
    (some t')) :
    (attached = true ∧ t = .untraced ∧ t' = .byCaller) ∨ (attached = false ∧ t' = t) := by
  cases hstep with
  | attach hatt => exact Or.inl ⟨hatt, rfl, rfl⟩
  | refused hatt t => exact Or.inr ⟨hatt, rfl⟩
  | other hnot t => exact absurd (Or.inl rfl) hnot

theorem TraceStep.detach_cases (hstep : TraceStep pid attached (some t) (.ptraceDetach pid)
    (some t')) :
    (t = .byCaller ∧ t' = .untraced) ∨ (t ≠ .byCaller ∧ t' = t) := by
  cases hstep with
  | detach => exact Or.inl ⟨rfl, rfl⟩
  | notOurs hne => exact Or.inr ⟨hne, rfl⟩
  | other hnot t => exact absurd (Or.inr rfl) hnot

theorem TraceStep.eq_of_not_ptraces (hnot : ¬c.Ptraces pid)
    (hstep : TraceStep pid attached (some t) c (some t')) : t' = t := by
  cases hstep with
  | attach _ => exact absurd (Or.inl rfl) hnot
  | refused _ t => rfl
  | detach => exact absurd (Or.inr rfl) hnot
  | notOurs _ => rfl
  | other _ t => rfl

/-- Calls of another kind, up to a detach. -/
theorem TraceRun.until_detach (hcs : ∀ c ∈ cs, ¬c.Ptraces pid)
    (hrun : TraceRun pid attached (some t) (cs ++ [.ptraceDetach pid]) (some t')) :
    TraceStep pid attached (some t) (.ptraceDetach pid) (some t') := by
  induction cs generalizing t with
  | nil =>
      obtain ⟨u, v, hu, hstep, hrest⟩ := hrun.exists_head
      cases hu
      cases hrest
      exact hstep
  | cons c cs ih =>
      obtain ⟨u, v, hu, hstep, hrest⟩ := hrun.exists_head
      cases hu
      have hsame := hstep.eq_of_not_ptraces (hcs c (List.mem_cons_self ..))
      exact ih (fun d hd => hcs d (List.mem_cons_of_mem _ hd)) (hsame ▸ hrest)

/-- There is such a run: the calls of another kind change nothing. -/
theorem TraceRun.append_detach (hcs : ∀ c ∈ cs, ¬c.Ptraces pid)
    (hstep : TraceStep pid attached (some t) (.ptraceDetach pid) (some t')) :
    TraceRun pid attached (some t) (cs ++ [.ptraceDetach pid]) (some t') := by
  induction cs with
  | nil => exact .cons hstep (.nil _)
  | cons c cs ih =>
      have hrest := ih fun d hd => hcs d (List.mem_cons_of_mem _ hd)
      exact .cons (.other (hcs c (List.mem_cons_self ..)) t) hrest

/-- An attach that takes effect and is not followed by a detach. -/
theorem leavesAsFound_attach :
    LeavesAsFound pid attached t [.ptraceAttach pid] ↔ ¬(t = .untraced ∧ attached = true) := by
  constructor
  · rintro hleaves ⟨rfl, hatt⟩
    exact nomatch hleaves _ (.cons (.attach hatt) (.nil _))
  · intro hfree t' hrun
    obtain ⟨u, v, hu, hstep, hrest⟩ := hrun.exists_head
    cases hu
    cases hrest
    rcases hstep.attach_cases with ⟨hatt, rfl, _⟩ | ⟨_, hsame⟩
    · exact absurd ⟨rfl, hatt⟩ hfree
    · exact hsame

/--
**A bracket.** An attach and, after calls of another kind, a detach: the target is as
it was, unless the caller was its tracer before and could not attach.
-/
theorem leavesAsFound_bracket (hcs : ∀ c ∈ cs, ¬c.Ptraces pid) :
    LeavesAsFound pid attached t (.ptraceAttach pid :: (cs ++ [.ptraceDetach pid]))
      ↔ ¬(t = .byCaller ∧ attached = false) := by
  constructor
  · rintro hleaves ⟨rfl, hatt⟩
    exact nomatch hleaves _ (.cons (.refused hatt _) (.append_detach hcs .detach))
  · intro hfree t' hrun
    obtain ⟨u, v, hu, hstep, hrest⟩ := hrun.exists_head
    cases hu
    have hlast := (hrest.until_detach hcs).detach_cases
    rcases hstep.attach_cases with ⟨hatt, rfl, rfl⟩ | ⟨hatt, rfl⟩
    · rcases hlast with ⟨_, hend⟩ | ⟨hne, _⟩
      · exact hend
      · exact absurd rfl hne
    · rcases hlast with ⟨hours, _⟩ | ⟨_, hend⟩
      · exact absurd ⟨hours, hatt⟩ hfree
      · exact hend

/-! ## The calls of the entry points -/

/-- In between, the libunwind backend looks for names. -/
theorem implLoop_calls (arch : BunArchitecture) (safety : BunUnwindSignalSafety) (locals : Locals)
    (i : Nat) (s : WriterState) (steps : List UnwStep) :
    ∀ c ∈ (implLoop h arch safety locals i s steps).calls, ∃ ip, c = .dladdr ip := by
  have hhead : ∀ (i : Nat) (step : UnwStep), ∀ c ∈ implCalls locals i step,
      ∃ ip, c = .dladdr ip := by
    intro i step c hc
    unfold implCalls at hc
    split at hc
    · cases hc
    · exact ⟨_, List.mem_singleton.mp hc⟩
  induction steps generalizing i s with
  | nil =>
      intro c hc
      cases hc
  | cons step steps ih =>
      intro c hc
      rw [implLoop] at hc
      dsimp only at hc
      split at hc
      · exact hhead i step c hc
      · rcases List.mem_append.mp hc with hc | hc
        · exact hhead i step c hc
        · exact ih _ _ c hc

theorem libunwindUnwindImpl_calls (handles : HandleRef → BunHandle) (self : UInt32)
    (locals : Locals) (buffer : BunBuffer h) (arch : BunArchitecture) (handle : Option HandleRef)
    (tid : UInt32) (safety : BunUnwindSignalSafety) (steps : List UnwStep) (pid : UInt32) :
    ∀ c ∈ (libunwindUnwindImpl handles self locals buffer arch handle tid safety steps).calls,
      ¬c.Ptraces pid := by
  intro c hc hptraces
  have hdladdr : ∃ ip, c = .dladdr ip := implLoop_calls arch safety locals 0 _ steps c hc
  obtain ⟨ip, rfl⟩ := hdladdr
  rcases hptraces with heq | heq <;> cases heq

/-- Every path of the libunwind backend attaches first and detaches last. -/
theorem libunwindUnwindRemote_calls {handles : HandleRef → BunHandle} {self : UInt32}
    {locals : Locals} {buffer : BunBuffer h} {arch : BunArchitecture} {handle : Option HandleRef}
    {answers : UnwRemoteAnswers} {fuel : Nat} {u : Unwound h}
    (hret : libunwindUnwindRemote handles self locals buffer arch handle pid answers fuel
      = some u) :
    ∃ cs, (∀ c ∈ cs, ¬c.Ptraces pid)
      ∧ u.calls = .ptraceAttach pid :: (cs ++ [.ptraceDetach pid]) := by
  unfold libunwindUnwindRemote at hret
  dsimp only at hret
  split at hret
  · cases hret
    exact ⟨[], List.forall_mem_nil _, rfl⟩
  split at hret
  · cases hret
  split at hret
  · cases hret
    exact ⟨[], List.forall_mem_nil _, rfl⟩
  split at hret
  · cases hret
    exact ⟨[], List.forall_mem_nil _, rfl⟩
  · cases hret
    exact ⟨_, libunwindUnwindImpl_calls handles self locals buffer arch handle pid .notRequired
      answers.steps pid, rfl⟩

/-- The calls of the libunwindstack backend, by what it takes for the status of the target. -/
theorem libunwindstackUnwindRemote_calls (handles : HandleRef → BunHandle) (self : UInt32)
    (locals : Locals) (buffer : BunBuffer h) (arch : BunArchitecture) (handle : Option HandleRef)
    (pid : UInt32) (answers : RemoteAnswers) :
    (libunwindstackUnwindRemote handles self locals buffer arch handle pid answers).calls
      = if answers.attached = true ∧ answers.stopped.getD locals.waitpidStopped = true then
          [.ptraceAttach pid, .ptraceDetach pid]
        else [.ptraceAttach pid] := by
  unfold libunwindstackUnwindRemote runSession libunwindstackRemoteSession
  dsimp only
  cases hatt : answers.attached with
  | false => rfl
  | true =>
      cases hstopped : answers.stopped.getD locals.waitpidStopped with
      | false => rfl
      | true => cases hparse : answers.parse <;> rfl

/-! ## The result -/

/-- `waitpid` has reported the end of the target. -/
def RemoteAnswers.Exited (answers : RemoteAnswers) : Prop :=
  answers.attached = true ∧ answers.stopped = some false

theorem libunwindUnwindRemote_leavesAsFound {handles : HandleRef → BunHandle} {self : UInt32}
    {locals : Locals} {buffer : BunBuffer h} {arch : BunArchitecture} {handle : Option HandleRef}
    {answers : UnwRemoteAnswers} {fuel : Nat} :
    (∀ u, libunwindUnwindRemote handles self locals buffer arch handle pid answers fuel = some u →
        LeavesAsFound pid answers.attached t u.calls)
      ↔ ¬(t = .byCaller ∧ answers.attached = false) := by
  constructor
  · rintro hleaves ⟨rfl, hatt⟩
    have hret : libunwindUnwindRemote handles self locals buffer arch handle pid answers fuel
        = some ⟨0, buffer, [.ptraceAttach pid, .ptraceDetach pid]⟩ := by
      rw [libunwindUnwindRemote, if_pos hatt]
    exact (leavesAsFound_bracket (List.forall_mem_nil _)).mp (hleaves _ hret) ⟨rfl, hatt⟩
  · intro hfree u hret
    obtain ⟨cs, hcs, hcalls⟩ := libunwindUnwindRemote_calls hret
    rw [hcalls]
    exact (leavesAsFound_bracket hcs).mpr hfree

theorem libunwindstackUnwindRemote_leavesAsFound {handles : HandleRef → BunHandle} {self : UInt32}
    {locals : Locals} {buffer : BunBuffer h} {arch : BunArchitecture} {handle : Option HandleRef}
    {answers : RemoteAnswers} :
    (¬answers.Exited → LeavesAsFound pid answers.attached t
        (libunwindstackUnwindRemote handles self locals buffer arch handle pid answers).calls)
      ↔ ¬(t = .untraced ∧ answers.attached = true ∧ answers.stopped = none
        ∧ locals.waitpidStopped = false) := by
  rw [libunwindstackUnwindRemote_calls]
  unfold RemoteAnswers.Exited
  split
  · -- it looks like a stop, and whatever happens the target is detached from
    rename_i hstop
    have hkept : LeavesAsFound pid answers.attached t [.ptraceAttach pid, .ptraceDetach pid] := by
      refine (leavesAsFound_bracket (List.forall_mem_nil _)).mpr fun hfailed => ?_
      rw [hstop.1] at hfailed
      exact nomatch hfailed.2
    refine iff_of_true (fun _ => hkept) ?_
    rintro ⟨_, _, hnone, hgarbage⟩
    rw [hnone, Option.getD_none, hgarbage] at hstop
    exact nomatch hstop.2
  · rename_i hlost
    rw [leavesAsFound_attach]
    cases hstored : answers.stopped with
    | none =>
        rw [hstored, Option.getD_none] at hlost
        cases hgarbage : locals.waitpidStopped with
        | false => simp
        | true =>
            rw [hgarbage] at hlost
            have hatt : answers.attached = false := by simpa using hlost
            simp [hatt]
    | some stopped =>
        cases stopped with
        | false =>
            refine iff_of_true ?_ ?_
            · intro hexited hleft
              exact hexited ⟨hleft.2, rfl⟩
            · rintro ⟨_, _, hnone, _⟩
              cases hnone
        | true =>
            rw [hstored] at hlost
            have hatt : answers.attached = false := by simpa using hlost
            simp [hatt]

/--
**When a remote entry point leaves its target as it found it**, for every answer of the
outside. The libunwind backend does, whenever it returns, unless the caller was the
tracer already; the libunwindstack backend does unless `waitpid` fails after an attach
and what is on the stack does not look like a stop.
-/
theorem unwindRemote_leavesAsFound_iff (handles : HandleRef → BunHandle) (self : UInt32)
    (locals : Locals) (buffer : BunBuffer h) (arch : BunArchitecture) (handle : Option HandleRef)
    (pid : UInt32) (t : Tracing) :
    (∀ (answers : UnwRemoteAnswers) (fuel : Nat),
      (∀ u, libunwindUnwindRemote handles self locals buffer arch handle pid answers fuel = some u →
          LeavesAsFound pid answers.attached t u.calls)
        ↔ ¬(t = .byCaller ∧ answers.attached = false))
    ∧ ∀ answers : RemoteAnswers,
      (¬answers.Exited → LeavesAsFound pid answers.attached t
          (libunwindstackUnwindRemote handles self locals buffer arch handle pid answers).calls)
        ↔ ¬(t = .untraced ∧ answers.attached = true ∧ answers.stopped = none
          ∧ locals.waitpidStopped = false) :=
  ⟨fun _ _ => libunwindUnwindRemote_leavesAsFound,
    fun _ => libunwindstackUnwindRemote_leavesAsFound⟩

/--
The caller traces thread 8, cannot attach to it again, and no longer traces it in the
end; a thread nobody traces is left to the caller when `waitpid` is interrupted.
-/
theorem unwindRemote_leaves_otherwise :
    ∃ buf, bunBufferInit (zeroedObject ⟨.w64, .little⟩ 100 (by decide)) = some buf
      ∧ (∃ u, libunwindUnwindRemote (fun _ => ⟨0⟩) 7 (strayLocals unopenedWriter) buf .x86_64
          (some 5) 8 ⟨false, fun _ => noEvent, true, []⟩ 0 = some u
        ∧ ¬LeavesAsFound 8 false .byCaller u.calls)
      ∧ ¬RemoteAnswers.Exited ⟨true, none, true, [], fun _ => 0⟩
      ∧ ¬LeavesAsFound 8 true .untraced (libunwindstackUnwindRemote (fun _ => ⟨0⟩) 7
          (strayLocals unopenedWriter) buf .x86_64 (some 5) 8
          ⟨true, none, true, [], fun _ => 0⟩).calls := by
  refine ⟨_, rfl, ⟨_, rfl, fun hleaves => ?_⟩, (fun hexit => nomatch hexit.2),
    fun hleaves => ?_⟩
  · have hrun : TraceRun 8 false (some .byCaller) [.ptraceAttach 8, .ptraceDetach 8]
        (some .untraced) := .cons (.refused rfl _) (.cons .detach (.nil _))
    exact nomatch hleaves _ hrun
  · have hrun : TraceRun 8 true (some .untraced) [.ptraceAttach 8] (some .byCaller) :=
      .cons (.attach rfl) (.nil _)
    exact nomatch hleaves _ hrun

end LibBun
