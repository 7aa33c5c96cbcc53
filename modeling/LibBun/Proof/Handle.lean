import LibBun.Handle
import LibBun.Proof.Report

/-!
# The life of a handle

What may be done with a handle depends on what has been done with it before, and on
nothing else: `lifecycle` is the protocol of one handle, which knows of no memory. That
a process keeps to the protocols of its handles is exactly what it takes for it never to
call what is no function, to release a block twice or to follow a pointer to a block
that is gone, however the calls on different handles are interleaved.

The protocol is a loose one. A handle goes on working after it was destroyed, because
the destructors clear nothing, with two exceptions in the libunwind backend; and it may
be initialised again at any time, only that a block of the libunwind backend is lost if
it was not destroyed in between.
-/

namespace LibBun

variable {h : Host} {build : Build}

/-! ## The protocol of one handle -/

/-- Where a handle is in its life. -/
inductive Phase where
  /-- It was never initialised, or could not be. -/
  | blank
  | ready (backend : BunUnwindBackend)
  /-- It was destroyed. -/
  | destroyed (backend : BunUnwindBackend)
deriving DecidableEq

/-- The backend the handle was initialised for. -/
def Phase.backend : Phase → BunUnwindBackend
  | .blank => .none
  | .ready backend => backend
  | .destroyed backend => backend

/-- The handle is the owner of a block. -/
def Phase.owns (phase : Phase) : Bool := phase = .ready .libunwind

/-- The phase of a handle, and the number of blocks that nothing points to any more. -/
structure HandleState where
  phase : Phase
  lost : Nat
deriving DecidableEq

/-- A handle nothing has happened to. -/
def HandleState.blank : HandleState := ⟨.blank, 0⟩

/-- What the handle is after `bun_handle_init`. -/
def initPhase (build : Build) (malloc : Bool) (backend : BunUnwindBackend) : Phase :=
  if build.enabled backend = false then
    .blank
  else
    match backend with
    | .libunwind => if malloc = false then .blank else .ready .libunwind
    | .libbacktrace => .ready .libbacktrace
    | .libunwindstack => if build.arch = .x86 then .blank else .ready .libunwindstack
    | .none => .blank

/-- What may be done with a handle, and where it leads. -/
def lifecycle (build : Build) : Protocol HandleState (HandleOp h) := fun s op =>
  match op with
  | .init backend malloc =>
      some ⟨initPhase build malloc backend, s.lost + if s.phase.owns then 1 else 0⟩
  | .setFlags _ => some s
  | .deinit =>
      if s.phase.backend = .none ∨ s.phase = .destroyed .libunwind then none
      else some { s with phase := .destroyed s.phase.backend }
  | .unwind .. => if s.phase.backend = .none then none else some s
  | .unwindContext .. => if s.phase.backend = .libunwindstack then some s else none
  | .unwindRemote _ _ _ answers pid fuel =>
      if s.phase.backend = .libunwindstack then
        some s
      else if s.phase.backend = .libunwind then
        -- a destroyed handle will do as long as the thread does not stop
        if s.phase = .destroyed .libunwind
            ∧ answers.libunwindRemote.getsToInit pid fuel = true then none
        else some s
      else none

/-- The three functions that unwind. -/
def HandleOp.isUnwind : HandleOp h → Bool
  | .unwind .. | .unwindContext .. | .unwindRemote .. => true
  | .init .. | .setFlags _ | .deinit => false

/-- Unwinding leaves a handle as it is. -/
theorem lifecycle_unwind {op : HandleOp h} (hop : op.isUnwind = true) {s t : HandleState}
    (hstep : lifecycle build s op = some t) : t = s := by
  cases op with
  | init backend malloc => exact absurd hop Bool.false_ne_true
  | setFlags flags => exact absurd hop Bool.false_ne_true
  | deinit => exact absurd hop Bool.false_ne_true
  | unwind self locals buffer answers =>
      simp only [lifecycle, Option.ite_none_left_eq_some, Option.some.injEq] at hstep
      exact hstep.2.symm
  | unwindContext self locals buffer answers =>
      simp only [lifecycle, Option.ite_none_right_eq_some, Option.some.injEq] at hstep
      exact hstep.2.symm
  | unwindRemote self locals buffer answers pid fuel =>
      unfold lifecycle at hstep
      dsimp only at hstep
      split at hstep
      · exact (Option.some.inj hstep).symm
      split at hstep
      · split at hstep
        · exact absurd hstep (by simp)
        · exact (Option.some.inj hstep).symm
      · exact absurd hstep (by simp)

/-! ## What a handle holds -/

def unwindFn : BunUnwindBackend → Option UnwindFn
  | .none => none
  | .libunwind => some .libunwindUnwind
  | .libbacktrace => some .libbacktraceUnwind
  | .libunwindstack => some .libunwindstackUnwind

def unwindContextFn : BunUnwindBackend → Option UnwindContextFn
  | .none | .libunwind | .libbacktrace => none
  | .libunwindstack => some .libunwindstackUnwindContext

def unwindRemoteFn : BunUnwindBackend → Option UnwindRemoteFn
  | .none | .libbacktrace => none
  | .libunwind => some .libunwindUnwindRemote
  | .libunwindstack => some .libunwindstackUnwindRemote

def handleDestructorFn : BunUnwindBackend → Option HandleDestructorFn
  | .none => none
  | .libunwind => some .libunwindDestroyHandle
  | .libbacktrace => some .libbacktraceDestroy
  | .libunwindstack => some .libunwindstackDestroyHandle

/-- The function pointers are those of the backend. -/
structure Handle.PointsTo (handle : Handle) (backend : BunUnwindBackend) : Prop where
  unwind : handle.unwind = unwindFn backend
  unwindContext : handle.unwindContext = unwindContextFn backend
  unwindRemote : handle.unwindRemote = unwindRemoteFn backend
  destroy : handle.destroy = handleDestructorFn backend

theorem Handle.zero_pointsTo : Handle.zero.PointsTo .none := ⟨rfl, rfl, rfl, rfl⟩

/-- The handle is as the protocol has it, given whose the blocks are. -/
structure HandleIn (m : Heap) (owner : Nat → HandleRef) (r : HandleRef) (handle : Handle)
    (s : HandleState) : Prop where
  pointsTo : handle.PointsTo s.phase.backend
  /-- The context of a handle that can be used is its own. -/
  ready : s.phase = .ready .libunwind → ∃ b, handle.backendContext = some b
    ∧ b ∈ m.live ∧ owner b = r
  /-- That of one that was destroyed is gone. -/
  destroyed : s.phase = .destroyed .libunwind → ∃ b, handle.backendContext = some b
    ∧ b < m.next ∧ b ∉ m.live
  /-- Of the blocks allocated for the handle those are live that it owns or has lost. -/
  owned : m.owned owner r = s.lost + if s.phase.owns then 1 else 0

/-- Every handle of the process is as its protocol has it. -/
def Process.InPhase (p : Process) (s : HandleRef → HandleState) : Prop :=
  ∃ owner, ∀ r, HandleIn p.heap owner r (p.handles r) (s r)

namespace HandleIn

variable {m : Heap} {owner : Nat → HandleRef} {r j : HandleRef} {handle : Handle} {s : HandleState}

/-- The flags are of no consequence. -/
theorem setFlags (hr : HandleIn m owner r handle s) (flags : UInt64) :
    HandleIn m owner r { handle with flags := flags } s :=
  ⟨⟨hr.pointsTo.unwind, hr.pointsTo.unwindContext, hr.pointsTo.unwindRemote,
    hr.pointsTo.destroy⟩, hr.ready, hr.destroyed, hr.owned⟩

/-- A block that is allocated for one handle is nothing to another. -/
theorem alloc_other (hr : HandleIn m owner r handle s) (hne : j ≠ r) :
    HandleIn m.alloc (Function.update owner m.next j) r handle s := by
  refine ⟨hr.pointsTo, fun hphase => ?_, fun hphase => ?_, ?_⟩
  · obtain ⟨b, hb, hlive, howner⟩ := hr.ready hphase
    have hold : b ≠ m.next := Nat.ne_of_lt (m.lt_next b hlive)
    refine ⟨b, hb, Finset.mem_insert_of_mem hlive, ?_⟩
    rw [Function.update_of_ne hold]
    exact howner
  · obtain ⟨b, hb, hlt, hgone⟩ := hr.destroyed hphase
    refine ⟨b, hb, Nat.lt_succ_of_lt hlt, fun hmem => ?_⟩
    rcases Finset.mem_insert.mp hmem with heq | hmem
    · exact Nat.ne_of_lt hlt heq
    · exact hgone hmem
  · rw [m.owned_alloc, if_neg hne, Nat.add_zero]
    exact hr.owned

/-- Nor is the block of one handle that is released. -/
theorem free_other {m' : Heap} {b : Nat} (hr : HandleIn m owner r handle s)
    (hfree : m.free b = some m') (hne : owner b ≠ r) : HandleIn m' owner r handle s := by
  obtain ⟨_, hlive, hnext⟩ := Heap.free_eq_some hfree
  refine ⟨hr.pointsTo, fun hphase => ?_, fun hphase => ?_, ?_⟩
  · obtain ⟨c, hc, hmem, howner⟩ := hr.ready hphase
    have hother : c ≠ b := fun heq => hne (heq ▸ howner)
    exact ⟨c, hc, hlive ▸ Finset.mem_erase_of_ne_of_mem hother hmem, howner⟩
  · obtain ⟨c, hc, hlt, hgone⟩ := hr.destroyed hphase
    exact ⟨c, hc, hnext ▸ hlt, fun hmem => hgone (Finset.mem_of_mem_erase (hlive ▸ hmem))⟩
  · have hcount := Heap.owned_free hfree owner r
    rw [if_neg hne, Nat.add_zero] at hcount
    rw [hcount]
    exact hr.owned

end HandleIn

/-! ## One call -/

section

variable {p : Process} {s : HandleRef → HandleState} {r : HandleRef}

/-- A step that leaves the memory alone is a matter of one handle. -/
theorem Process.InPhase.set {owner : Nat → HandleRef} {handle : Handle} {t : HandleState}
    (hp : ∀ j, HandleIn p.heap owner j (p.handles j) (s j))
    (hr : HandleIn p.heap owner r handle t) :
    (p.set r handle).InPhase (Function.update s r t) := by
  refine ⟨owner, fun j => ?_⟩
  show HandleIn p.heap owner j (Function.update p.handles r handle j) (Function.update s r t j)
  by_cases hj : j = r
  · subst hj
    rw [Function.update_self, Function.update_self]
    exact hr
  · rw [Function.update_of_ne hj, Function.update_of_ne hj]
    exact hp j

/-- A backend without a block fills in a handle. -/
theorem HandleIn.reset {m : Heap} {owner : Nat → HandleRef} {old handle : Handle}
    {t : HandleState} (hr : HandleIn m owner r old t) (phase : Phase)
    (hpoints : handle.PointsTo phase.backend) (hphase : phase.backend ≠ .libunwind) :
    HandleIn m owner r handle ⟨phase, t.lost + if t.phase.owns then 1 else 0⟩ := by
  have howns : phase.owns = false := by
    rw [Phase.owns, decide_eq_false_iff_not]
    rintro rfl
    exact hphase rfl
  refine ⟨hpoints, ?_, ?_, ?_⟩
  · rintro rfl
    exact absurd rfl hphase
  · rintro rfl
    exact absurd rfl hphase
  · rw [hr.owned, howns]
    rfl

/-- A handle that is given a new block owns it. -/
theorem HandleIn.give {m : Heap} {owner : Nat → HandleRef} {old handle : Handle}
    {t : HandleState} (hr : HandleIn m owner r old t) (hpoints : handle.PointsTo .libunwind)
    (hcontext : handle.backendContext = some m.next) :
    HandleIn m.alloc (Function.update owner m.next r) r handle
      ⟨.ready .libunwind, t.lost + if t.phase.owns then 1 else 0⟩ := by
  refine ⟨hpoints, fun _ => ⟨m.next, hcontext, Finset.mem_insert_self _ _, ?_⟩, ?_, ?_⟩
  · exact Function.update_self ..
  · intro hphase
    exact absurd hphase (by simp)
  · rw [m.owned_alloc, if_pos rfl, hr.owned]
    rfl

/-- **`bun_handle_init` starts a life**, whatever there was before. -/
theorem Process.InPhase.init (hp : p.InPhase s) (r : HandleRef) (backend : BunUnwindBackend)
    (malloc : Bool) : (bunHandleInit build malloc p r backend).2.InPhase (Function.update s r
      ⟨initPhase build malloc backend, (s r).lost + if (s r).phase.owns then 1 else 0⟩) := by
  obtain ⟨owner, hall⟩ := hp
  have hzero : (p.set r Handle.zero).InPhase (Function.update s r
      ⟨.blank, (s r).lost + if (s r).phase.owns then 1 else 0⟩) :=
    Process.InPhase.set hall ((hall r).reset .blank Handle.zero_pointsTo (by decide))
  -- the handle is written twice, and only the second time counts
  have htwice : ∀ handle, (p.set r Handle.zero).set r handle = p.set r handle := by
    intro handle
    rw [Process.set, Process.set, Process.set, Function.update_idem]
  have hfirst : (p.set r Handle.zero).handles r = Handle.zero := Function.update_self ..
  unfold bunHandleInit initPhase
  dsimp only
  split
  · exact hzero
  cases backend with
  | none => exact hzero
  | libbacktrace =>
      rw [bunInternalInitializeLibbacktrace, htwice, hfirst]
      exact Process.InPhase.set hall ((hall r).reset (.ready .libbacktrace)
        ⟨rfl, rfl, rfl, rfl⟩ (by decide))
  | libunwindstack =>
      unfold bunInternalInitializeLibunwindstack
      dsimp only
      split
      · exact hzero
      · rw [htwice, hfirst]
        exact Process.InPhase.set hall ((hall r).reset (.ready .libunwindstack)
          ⟨rfl, rfl, rfl, rfl⟩ (by decide))
  | libunwind =>
      unfold bunInternalInitializeLibunwind
      dsimp only
      split
      · exact hzero
      · refine ⟨Function.update owner p.heap.next r, fun j => ?_⟩
        show HandleIn p.heap.alloc (Function.update owner p.heap.next r) j
          (Function.update (Function.update p.handles r Handle.zero) r _ j)
          (Function.update s r _ j)
        by_cases hj : r = j
        · subst hj
          rw [Function.update_self, Function.update_self, hfirst]
          exact (hall r).give ⟨rfl, rfl, rfl, rfl⟩ rfl
        · rw [Function.update_of_ne (Ne.symm hj), Function.update_of_ne (Ne.symm hj),
            Function.update_of_ne (Ne.symm hj)]
          exact (hall j).alloc_other hj

/-- The functions that can be called through a handle are those of its backend. -/
theorem HandleIn.callable {m : Heap} {owner : Nat → HandleRef} {handle : Handle}
    {t : HandleState} (hr : HandleIn m owner r handle t) :
    (handle.unwind = none ↔ t.phase.backend = .none)
      ∧ (handle.unwindContext = none ↔ t.phase.backend ≠ .libunwindstack) := by
  rw [hr.pointsTo.unwind, hr.pointsTo.unwindContext]
  cases t.phase.backend <;> simp [unwindFn, unwindContextFn]

section Unwind

variable {self : UInt32} {locals : Locals} {buffer : BunBuffer h} {answers : UnwindAnswers}

theorem bunUnwind_eq_none_iff :
    bunUnwind build p self locals buffer r answers = none ↔ (p.handles r).unwind = none := by
  unfold bunUnwind
  cases (p.handles r).unwind with
  | none => exact iff_of_true rfl rfl
  | some f => cases f <;> simp

theorem bunUnwindContext_eq_none_iff :
    bunUnwindContext build p self locals buffer r answers = none
      ↔ (p.handles r).unwindContext = none := by
  unfold bunUnwindContext
  cases (p.handles r).unwindContext with
  | none => exact iff_of_true rfl rfl
  | some f => cases f; simp

/-- The context of a libunwind handle is there until the handle is destroyed. -/
theorem HandleIn.liveContext {owner : Nat → HandleRef} {t : HandleState}
    (hr : HandleIn p.heap owner r (p.handles r) t) (hbackend : t.phase.backend = .libunwind) :
    p.liveContext (p.handles r).backendContext = false ↔ t.phase = .destroyed .libunwind := by
  cases hphase : t.phase with
  | blank =>
      rw [hphase] at hbackend
      exact absurd hbackend (by decide)
  | ready backend =>
      rw [hphase] at hbackend
      obtain rfl : backend = .libunwind := hbackend
      obtain ⟨b, hb, hmem, _⟩ := hr.ready hphase
      rw [hb]
      exact iff_of_false (by simp [Process.liveContext, hmem]) (by simp)
  | destroyed backend =>
      rw [hphase] at hbackend
      obtain rfl : backend = .libunwind := hbackend
      obtain ⟨b, hb, _, hgone⟩ := hr.destroyed hphase
      rw [hb]
      exact iff_of_true (by simp [Process.liveContext, hgone]) rfl

/-- The context is followed, if the thread stops, and then it has to be there. -/
theorem HandleIn.unwindRemote {owner : Nat → HandleRef}
    (hr : HandleIn p.heap owner r (p.handles r) (s r)) (pid : UInt32) (fuel : Nat) :
    bunUnwindRemote build p self locals buffer r answers pid fuel = none
      ↔ lifecycle build (s r) (.unwindRemote self locals buffer answers pid fuel) = none := by
  have hfn := hr.pointsTo.unwindRemote
  unfold bunUnwindRemote lifecycle
  dsimp only
  rw [hfn]
  cases hbackend : (s r).phase.backend with
  | none => exact iff_of_true rfl rfl
  | libbacktrace => exact iff_of_true rfl rfl
  | libunwindstack => exact iff_of_false (by simp [unwindRemoteFn]) (by simp)
  | libunwind =>
      have hlive := hr.liveContext hbackend
      simp only [unwindRemoteFn, hlive, reduceCtorEq, if_false, if_true]
      by_cases hstops : answers.libunwindRemote.getsToInit pid fuel = true
          ∧ (s r).phase = .destroyed .libunwind
      · rw [if_pos hstops, if_pos hstops.symm]
        exact iff_of_true rfl rfl
      · rw [if_neg hstops, if_neg fun hboth => hstops hboth.symm]
        exact iff_of_false (by simp) (by simp)

end Unwind

/-- **`bun_handle_deinit` releases the block of the handle**, if there still is one. -/
theorem Process.InPhase.deinit (build : Build) {owner : Nat → HandleRef}
    (hall : ∀ j, HandleIn p.heap owner j (p.handles j) (s j)) (r : HandleRef) :
    (bunHandleDeinit p r = none ∧ lifecycle (h := h) build (s r) .deinit = none)
      ∨ ∃ p' t, bunHandleDeinit p r = some p' ∧ lifecycle (h := h) build (s r) .deinit = some t
        ∧ p'.InPhase (Function.update s r t) := by
  have hr := hall r
  have hdestroy := hr.pointsTo.destroy
  -- a backend without a block has nothing to release
  have hnothing : (s r).phase.backend ≠ .none → (s r).phase.backend ≠ .libunwind →
      bunHandleDeinit p r = some p → ∃ p' t, bunHandleDeinit p r = some p'
        ∧ lifecycle (h := h) build (s r) .deinit = some t
        ∧ p'.InPhase (Function.update s r t) := by
    intro hnone hne hdeinit
    have hphase : (s r).phase ≠ .destroyed .libunwind := fun heq => hne (heq ▸ rfl)
    have howns : (s r).phase.owns = false := by
      rw [Phase.owns, decide_eq_false_iff_not]
      exact fun heq => hne (heq ▸ rfl)
    refine ⟨p, _, hdeinit, if_neg (not_or.mpr ⟨hnone, hphase⟩), owner, fun j => ?_⟩
    by_cases hj : j = r
    · subst hj
      have hreset := hr.reset (.destroyed (s j).phase.backend) hr.pointsTo hne
      rw [howns] at hreset
      rw [Function.update_self]
      exact hreset
    · rw [Function.update_of_ne hj]
      exact hall j
  unfold bunHandleDeinit at hnothing ⊢
  cases hbackend : (s r).phase.backend with
  | none =>
      rw [hbackend] at hdestroy
      rw [hdestroy]
      exact Or.inl ⟨rfl, if_pos (Or.inl hbackend)⟩
  | libbacktrace =>
      rw [hbackend] at hdestroy hnothing
      rw [hdestroy] at hnothing ⊢
      exact Or.inr (hnothing (by decide) (by decide) rfl)
  | libunwindstack =>
      rw [hbackend] at hdestroy hnothing
      rw [hdestroy] at hnothing ⊢
      exact Or.inr (hnothing (by decide) (by decide) rfl)
  | libunwind =>
      rw [hbackend] at hdestroy
      rw [hdestroy]
      cases hphase : (s r).phase with
      | blank =>
          rw [hphase] at hbackend
          exact absurd hbackend (by decide)
      | ready backend =>
          rw [hphase] at hbackend
          obtain rfl : backend = .libunwind := hbackend
          obtain ⟨b, hb, hlive, howner⟩ := hr.ready hphase
          obtain ⟨m', hfree, hlive', hnext⟩ := Heap.free_of_mem hlive
          refine Or.inr ⟨{ p with heap := m' }, ⟨.destroyed .libunwind, (s r).lost⟩, ?_, ?_,
            owner, fun j => ?_⟩
          · show p.free (p.handles r).backendContext = _
            rw [hb, Process.free, hfree]
            rfl
          · rw [lifecycle, hphase, if_neg (by decide)]
            rfl
          · by_cases hj : j = r
            · subst hj
              rw [Function.update_self]
              refine ⟨?_, ?_, fun _ => ⟨b, hb, ?_, ?_⟩, ?_⟩
              · have hpoints := hr.pointsTo
                rw [hphase] at hpoints
                exact hpoints
              · intro hready
                exact absurd hready (by simp)
              · rw [hnext]
                exact p.heap.lt_next b hlive
              · rw [hlive']
                exact Finset.notMem_erase _ _
              · have hcount := Heap.owned_free hfree owner j
                have howned := hr.owned
                rw [if_pos howner] at hcount
                rw [hphase, Phase.owns, decide_eq_true rfl, if_pos rfl] at howned
                show m'.owned owner j = (s j).lost + 0
                omega
            · rw [Function.update_of_ne hj]
              have hother : owner b ≠ j := fun heq => hj (heq ▸ howner)
              exact (hall j).free_other hfree hother
      | destroyed backend =>
          rw [hphase] at hbackend
          obtain rfl : backend = .libunwind := hbackend
          obtain ⟨b, hb, _, hgone⟩ := hr.destroyed hphase
          refine Or.inl ⟨?_, ?_⟩
          · show p.free (p.handles r).backendContext = none
            rw [hb, Process.free, Heap.free_of_not_mem hgone]
            rfl
          · rw [lifecycle, hphase, if_pos (Or.inr rfl)]

/-- **Every call does what the protocol of its handle allows**, no more and no less. -/
theorem tracks_lifecycle : Protocol.Tracks (Process.step (h := h) build)
    (lifecycle (h := h) build).family Process.InPhase := by
  intro p s x hp
  obtain ⟨r, op⟩ := x
  obtain ⟨owner, hall⟩ := id hp
  have hr := hall r
  -- a call that changes nothing
  have hsame : ∀ {α : Type} {result : Option α}, (result = none ↔
      lifecycle (h := h) build (s r) op = none) →
      (∀ t, lifecycle (h := h) build (s r) op = some t → t = s r) →
        ((result.map fun _ => p) = none
          ∧ (lifecycle (h := h) build).family s (r, op) = none)
        ∨ ∃ p' s', (result.map fun _ => p) = some p'
          ∧ (lifecycle (h := h) build).family s (r, op) = some s' ∧ p'.InPhase s' := by
    intro α result hiff hkeep
    rw [Protocol.family]
    cases hresult : result with
    | none =>
        rw [hiff.mp hresult]
        exact Or.inl ⟨rfl, rfl⟩
    | some a =>
        cases hlife : lifecycle (h := h) build (s r) op with
        | none =>
            rw [hiff.mpr hlife] at hresult
            exact absurd hresult (by simp)
        | some t =>
            obtain rfl := hkeep t hlife
            refine Or.inr ⟨p, _, rfl, rfl, ?_⟩
            rw [Function.update_eq_self]
            exact hp
  cases op with
  | init backend malloc => exact Or.inr ⟨_, _, rfl, rfl, hp.init r backend malloc⟩
  | setFlags flags =>
      refine Or.inr ⟨_, _, rfl, rfl, ?_⟩
      exact Process.InPhase.set hall (hr.setFlags flags)
  | deinit =>
      rcases Process.InPhase.deinit (h := h) build hall r with
        ⟨hno, hlife⟩ | ⟨p', t, hdeinit, hlife, hp'⟩
      · refine Or.inl ⟨hno, ?_⟩
        rw [Protocol.family, hlife]
        rfl
      · refine Or.inr ⟨p', _, hdeinit, ?_, hp'⟩
        rw [Protocol.family, hlife]
        rfl
  | unwind self locals buffer answers =>
      refine hsame ?_ fun t => lifecycle_unwind rfl
      rw [bunUnwind_eq_none_iff, hr.callable.1]
      simp [lifecycle]
  | unwindContext self locals buffer answers =>
      refine hsame ?_ fun t => lifecycle_unwind rfl
      rw [bunUnwindContext_eq_none_iff, hr.callable.2]
      simp [lifecycle]
  | unwindRemote self locals buffer answers pid fuel =>
      exact hsame (hr.unwindRemote pid fuel) fun t => lifecycle_unwind rfl

end

/-! ## Whole runs -/

theorem start_inPhase : Process.start.InPhase fun _ => HandleState.blank := by
  refine ⟨fun _ => 0, fun r => ⟨Handle.zero_pointsTo, ?_, ?_, rfl⟩⟩
  · intro hphase
    exact absurd hphase (by simp [HandleState.blank])
  · intro hphase
    exact absurd hphase (by simp [HandleState.blank])

/-- What a process does from the start, seen from its handles. -/
theorem process_run (build : Build) (calls : List (HandleRef × HandleOp h)) :
    ((Process.step build).run Process.start calls = none
        ∧ (lifecycle build).family.run (fun _ => HandleState.blank) calls = none)
      ∨ ∃ p s, (Process.step build).run Process.start calls = some p
        ∧ (lifecycle build).family.run (fun _ => HandleState.blank) calls = some s
        ∧ p.InPhase s :=
  tracks_lifecycle.run start_inPhase calls

/--
**A process does nothing undefined with its handles if and only if each of them is used
as its protocol has it.** The calls on different handles may come in any order.
-/
theorem handles_defined_iff (calls : List (HandleRef × HandleOp h)) :
    ((Process.step build).run Process.start calls).isSome
      ↔ ∀ r, ((lifecycle build).run HandleState.blank (Protocol.callsOn r calls)).isSome := by
  rw [← Protocol.family_run_isSome]
  rcases process_run build calls with ⟨hp, hs⟩ | ⟨p, s, hp, hs, _⟩
  · rw [hp, hs]
    exact Iff.rfl
  · rw [hp, hs]
    exact iff_of_true rfl rfl

/-! ## Blocks that are left -/

/--
The block of the handle, if it has one, is released before the handle is initialised
again and before the end. `owns` says that it has one now.
-/
def Releases (build : Build) : Bool → List (HandleOp h) → Prop
  | owns, [] => owns = false
  | owns, .init backend malloc :: ops =>
      owns = false ∧ Releases build (initPhase build malloc backend).owns ops
  | _, .deinit :: ops => Releases build false ops
  | owns, _ :: ops => Releases build owns ops

/-- **What is left of a life** is what it lost on the way and what it owns in the end. -/
theorem releases_iff {ops : List (HandleOp h)} {s s' : HandleState}
    (hrun : (lifecycle build).run s ops = some s') :
    s'.lost + (if s'.phase.owns then 1 else 0) = 0
      ↔ s.lost = 0 ∧ Releases build s.phase.owns ops := by
  induction ops generalizing s with
  | nil =>
      obtain rfl : s = s' := Option.some.inj hrun
      rw [Releases]
      cases s.phase.owns <;> simp
  | cons op ops ih =>
      obtain ⟨t, hstep, hrest⟩ := Option.bind_eq_some_iff.mp hrun
      rw [ih hrest]
      have hunwind : op.isUnwind = true → (t.lost = 0 ∧ Releases build t.phase.owns ops
          ↔ s.lost = 0 ∧ Releases build s.phase.owns ops) := by
        intro hop
        rw [lifecycle_unwind hop hstep]
      cases op with
      | init backend malloc =>
          obtain rfl := Option.some.inj hstep
          rw [Releases]
          cases s.phase.owns <;> simp
      | setFlags flags =>
          obtain rfl := Option.some.inj hstep
          exact Iff.rfl
      | deinit =>
          simp only [lifecycle, Option.ite_none_left_eq_some, Option.some.injEq] at hstep
          rw [← hstep.2]
          exact Iff.rfl
      | unwind self locals buffer answers => exact hunwind rfl
      | unwindContext self locals buffer answers => exact hunwind rfl
      | unwindRemote self locals buffer answers pid fuel => exact hunwind rfl

/-- The call allocates a block, and makes an address space. -/
def HandleOp.allocates (build : Build) : HandleOp h → Bool
  | .init backend malloc => (initPhase build malloc backend).owns
  | _ => false

/-- One call makes an address space if it is an initialisation for libunwind that succeeds. -/
theorem addrSpaces_step {p p' : Process} {r : HandleRef} {op : HandleOp h}
    (hstep : Process.step build p (r, op) = some p') :
    p'.addrSpaces = p.addrSpaces + if op.allocates build then 1 else 0 := by
  cases op with
  | init backend malloc =>
      obtain rfl := Option.some.inj hstep
      unfold bunHandleInit HandleOp.allocates initPhase
      dsimp only
      split
      · rfl
      cases backend with
      | none => rfl
      | libbacktrace => rfl
      | libunwindstack =>
          unfold bunInternalInitializeLibunwindstack
          dsimp only
          split <;> rfl
      | libunwind =>
          unfold bunInternalInitializeLibunwind
          dsimp only
          split <;> rfl
  | setFlags flags =>
      obtain rfl := Option.some.inj hstep
      rfl
  | deinit =>
      have hdeinit : bunHandleDeinit p r = some p' := hstep
      unfold bunHandleDeinit Process.free at hdeinit
      split at hdeinit
      · exact absurd hdeinit (by simp)
      · split at hdeinit
        · obtain rfl := Option.some.inj hdeinit
          rfl
        · obtain ⟨m, _, rfl⟩ := Option.map_eq_some_iff.mp hdeinit
          rfl
      · obtain rfl := Option.some.inj hdeinit
        rfl
      · obtain rfl := Option.some.inj hdeinit
        rfl
  | unwind self locals buffer answers =>
      obtain ⟨_, _, rfl⟩ := Option.map_eq_some_iff.mp hstep
      rfl
  | unwindContext self locals buffer answers =>
      obtain ⟨_, _, rfl⟩ := Option.map_eq_some_iff.mp hstep
      rfl
  | unwindRemote self locals buffer answers pid fuel =>
      obtain ⟨_, _, rfl⟩ := Option.map_eq_some_iff.mp hstep
      rfl

theorem addrSpaces_run {calls : List (HandleRef × HandleOp h)} {p p' : Process}
    (hrun : (Process.step build).run p calls = some p') :
    p'.addrSpaces = p.addrSpaces + calls.countP fun call => call.2.allocates build := by
  induction calls generalizing p with
  | nil =>
      obtain rfl := Option.some.inj hrun
      rfl
  | cons call calls ih =>
      obtain ⟨q, hstep, hrest⟩ := Option.bind_eq_some_iff.mp hrun
      rw [ih hrest, addrSpaces_step hstep, List.countP_cons]
      omega

/--
**What a process has left of what it allocated for its handles.** Nothing is left of the
blocks if and only if for each handle each block is released before the handle is
initialised again; of the address spaces everything is left.
-/
theorem left_allocated {calls : List (HandleRef × HandleOp h)} {p : Process}
    (hrun : (Process.step build).run Process.start calls = some p) :
    (p.heap.live = ∅ ↔ ∀ r, Releases build false (Protocol.callsOn r calls))
      ∧ p.addrSpaces = calls.countP fun call => call.2.allocates build := by
  refine ⟨?_, (addrSpaces_run hrun).trans (Nat.zero_add _)⟩
  rcases process_run build calls with ⟨hno, _⟩ | ⟨p', s, hp, hs, owner, hall⟩
  · rw [hrun] at hno
    exact absurd hno (by simp)
  obtain rfl : p = p' := Option.some.inj (hrun.symm.trans hp)
  rw [p.heap.live_eq_empty_iff owner]
  refine forall_congr' fun r => ?_
  have hone := Protocol.family_run.mp hs r
  rw [(hall r).owned, releases_iff hone]
  simp [HandleState.blank, Phase.owns]

/-- A library with everything in it. -/
def fullBuild : Build := ⟨fun _ => true, .x86_64⟩

/-- A handle of the libunwind backend, destroyed in the end: an address space is left. -/
theorem left_allocated_destroyed :
    ∃ p, (Process.step (h := ⟨.w64, .little⟩) fullBuild).run Process.start
        [(5, .init .libunwind true), (5, .deinit)] = some p
      ∧ (p.heap.live = ∅ ↔ ∀ r, Releases fullBuild false (Protocol.callsOn r
        [(5, HandleOp.init (h := ⟨.w64, .little⟩) .libunwind true), (5, .deinit)]))
      ∧ p.addrSpaces = 1 := by
  have hrun : ∃ p, (Process.step (h := ⟨.w64, .little⟩) fullBuild).run Process.start
      [(5, .init .libunwind true), (5, .deinit)] = some p := ⟨_, rfl⟩
  obtain ⟨p, hrun⟩ := hrun
  obtain ⟨hblocks, hspaces⟩ := left_allocated hrun
  exact ⟨p, hrun, hblocks, hspaces⟩

/-! ## Unwinding through a handle -/

/-- The entry point behind `bun_unwind`. -/
def unwindEntry (self : UInt32) (answers : UnwindAnswers) : UnwindFn → EntryPoint
  | .libunwindUnwind => .libunwindUnwindImpl self .required answers.libunwind
  | .libbacktraceUnwind => .libbacktraceUnwind answers.libbacktrace
  | .libunwindstackUnwind => .libunwindstackUnwind answers.libunwindstack

theorem bunUnwind_eq {p : Process} {r : HandleRef} {f : UnwindFn}
    (hf : (p.handles r).unwind = some f) (self : UInt32) (locals : Locals) (buffer : BunBuffer h)
    (answers : UnwindAnswers) : bunUnwind build p self locals buffer r answers
      = some ((unwindEntry self answers f).run p.bunHandles self locals buffer build.arch
        (some r)) := by
  unfold bunUnwind
  rw [hf]
  cases f <;> rfl

/--
**`bun_unwind` brings what the backend of the handle answers to a reader.** The handle
is any that has been initialised, whatever the process has done before with this handle
and others; the session is opened on the buffer. What the stack held plays no part if
the backend has answered every question.
-/
theorem handle_reports {calls : List (HandleRef × HandleOp h)} {p : Process}
    (hrun : (Process.step build).run Process.start calls = some p) {r : HandleRef}
    {s : HandleState}
    (hr : (lifecycle build).run HandleState.blank (Protocol.callsOn r calls) = some s)
    {f : UnwindFn} (hf : unwindFn s.phase.backend = some f) (hend : h.endian = .little)
    {self : UInt32} {w : BunWriter} {buf buf' : BunBuffer h}
    (hbuf : bunBufferPayloadHeaderSize ≤ buf.size)
    (hinit : bunWriterInit p.bunHandles self unopenedWriter buf build.arch (some r)
      = (true, w, buf')) {answers : UnwindAnswers}
    (hsound : (unwindEntry self answers f).Sound h) (locals : Locals) :
    ∃ u, bunUnwind build p self locals buf r answers = some u
      ∧ (unwindEntry self answers f).backend = s.phase.backend
      ∧ Reports self build.arch locals (unwindEntry self answers f) u
      ∧ ((unwindEntry self answers f).Answered → ∀ locals',
        Reports self build.arch locals' (unwindEntry self answers f) u) := by
  rcases process_run build calls with ⟨hno, _⟩ | ⟨p', t, hp, ht, owner, hall⟩
  · rw [hrun] at hno
    exact absurd hno (by simp)
  obtain rfl : p = p' := Option.some.inj (hrun.symm.trans hp)
  obtain rfl : s = t r := Option.some.inj (hr.symm.trans (Protocol.family_run.mp ht r))
  have hunwind := (hall r).pointsTo.unwind.trans hf
  have hreports := reports_of_opened hend hbuf hinit hsound locals
  refine ⟨_, bunUnwind_eq hunwind self locals buf answers, ?_, hreports, hreports.of_answered⟩
  cases hbackend : (t r).phase.backend <;> rw [hbackend] at hf
  · exact absurd hf (by simp [unwindFn])
  · obtain rfl := Option.some.inj hf
    rfl
  · obtain rfl := Option.some.inj hf
    rfl
  · obtain rfl := Option.some.inj hf
    rfl

/-- The same two steps, whichever backend is asked for them. -/
def twoStepAnswers : UnwindAnswers where
  libunwind := [leafStep, mainStep]
  libunwindRemote := ⟨false, fun _ => ⟨0, 0, 0, 0, 0, 0⟩, false, []⟩
  libbacktrace := fullAnswers
  libunwindstack := stackAnswers
  libunwindstackContext := ⟨false, fun _ => lastContextStep⟩
  libunwindstackRemote := ⟨false, none, false, [], fun _ => 0⟩

/-- A handle that was destroyed and initialised for another backend, beside a second one. -/
def reusedHandle : List (HandleRef × HandleOp ⟨.w64, .little⟩) :=
  [(5, .init .libunwind true), (6, .init .libbacktrace true), (5, .deinit),
    (5, .init .libunwindstack true)]

theorem handle_reports_reused :
    ∃ p buf u, (Process.step fullBuild).run Process.start reusedHandle = some p
      ∧ bunBufferInit (zeroedObject ⟨.w64, .little⟩ 500 (by decide)) = some buf
      ∧ bunUnwind fullBuild p 7 (strayLocals unopenedWriter) buf 5 twoStepAnswers = some u
      ∧ ∀ locals', Reports 7 .x86_64 locals' (.libunwindstackUnwind stackAnswers) u := by
  have hopen : ∃ p s, (Process.step fullBuild).run Process.start reusedHandle = some p
      ∧ (lifecycle fullBuild).run HandleState.blank (Protocol.callsOn 5 reusedHandle) = some s
      ∧ unwindFn s.phase.backend = some .libunwindstackUnwind := ⟨_, _, rfl, rfl, rfl⟩
  obtain ⟨p, s, hrun, hr, hf⟩ := hopen
  obtain ⟨buf, hbuf, _⟩ :=
    bunBufferInit_zeroedObject ⟨.w64, .little⟩ (by decide : 500 < 2 ^ 31) (by decide)
  obtain ⟨w, buf', hinit⟩ :=
    bunWriterInit_fresh hbuf p.bunHandles 7 unopenedWriter fullBuild.arch (some 5)
  have hsound : (unwindEntry 7 twoStepAnswers .libunwindstackUnwind).Sound ⟨.w64, .little⟩ :=
    stackAnswers_sound
  obtain ⟨u, hu, _, _, hreports⟩ := handle_reports hrun hr hf rfl (bunBufferInit_size hbuf) hinit
    hsound (strayLocals unopenedWriter)
  exact ⟨p, buf, u, hrun, hbuf, hu, hreports trivial⟩

end LibBun
