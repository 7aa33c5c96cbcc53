import Mathlib.Data.Finset.Option
import LibBun.Memfd

/-!
# What becomes of descriptors and names

Every call of `bun_memfd_create` comes to one of four ends, and which one it is can be
told from the answers alone: a file from one of three places, or none. `MemfdLedger` is
the account of what a program was given and what it left behind, kept from the answers;
the result is that the account is right after any calls. Nothing is open that was not
handed out, and nothing that was handed out is closed behind the program's back.

Two things are in the account that the code does not mean to be there. A file of
`mkstemp` is left with its name where the call after it fails, and the descriptor of one
is never closed on `exec`: what `F_SETFD` is given for it is a flag of `open`.
-/

namespace LibBun

variable {tmp : CString} {dir : Option CString} {s : Files Path} {name : CString}

/-! ## The ends a call may come to -/

/-- Where the file comes from. -/
inductive MemfdOrigin where
  | memfd
  | mkstemp
  | tmpfile
deriving DecidableEq

namespace MemfdAnswers

variable (answers : MemfdAnswers)

/-- The file that `mkstemp` makes, if it gets to make one. -/
def temporary (tmp : CString) (dir : Option CString) (names : Finset Path) (name : CString) :
    Option Path :=
  match answers.mkstemp with
  | none => none
  | some suffix =>
      if answers.memfd = false ∧ answers.asprintf = true
          ∧ mkstempTemplate tmp dir name ++ suffix ∉ names then
        some (mkstempTemplate tmp dir name ++ suffix)
      else none

/-- The calls after `mkstemp` succeed. -/
def hidden : Bool := answers.fcntl && answers.unlink

/-- The name that is left behind. -/
def litter (tmp : CString) (dir : Option CString) (names : Finset Path) (name : CString) :
    Option Path :=
  if answers.hidden then none else answers.temporary tmp dir names name

/-- The place the file comes from, if the call succeeds. -/
def origin (tmp : CString) (dir : Option CString) (names : Finset Path) (name : CString) :
    Option MemfdOrigin :=
  if answers.memfd then some .memfd
  else if answers.hidden ∧ (answers.temporary tmp dir names name).isSome then some .mkstemp
  else if answers.asprintfReal ∧ answers.openTmpfile then some .tmpfile
  else none

end MemfdAnswers

/-- What the flag of `open` does as a flag of a descriptor. -/
theorem oCloexec_and_fdCloexec : oCloexec &&& fdCloexec = 0 := by decide

/-- **`open_mkstemp`**: a descriptor, or nothing but the file. -/
theorem openMkstemp_eq {answers : MemfdAnswers} (hmemfd : answers.memfd = false) :
    openMkstemp tmp dir s name answers =
      match answers.temporary tmp dir s.names name with
      | none => (none, s)
      | some path =>
          if answers.hidden then (some s.newFd, s.openFd false) else (none, s.link path) := by
  unfold openMkstemp MemfdAnswers.temporary mkstemp
  cases hasprintf : answers.asprintf with
  | false =>
      cases answers.mkstemp <;> simp
  | true =>
      cases answers.mkstemp with
      | none => rfl
      | some suffix =>
          dsimp only
          generalize mkstempTemplate tmp dir name ++ suffix = path
          by_cases hold : path ∈ s.names
          · simp [hold]
          · -- the file is open and has its name
            have hclose : ((s.link path).openFd false).closeFd s.newFd = s.link path :=
              (s.link path).openFd_closeFd false
            have hset : ((s.link path).openFd false).setOnExec s.newFd false
                = (s.link path).openFd false := (s.link path).openFd_setOnExec false false
            have hunlink : ((s.link path).openFd false).unlink path = s.openFd false := by
              rw [Files.openFd_unlink, Files.link_unlink hold]
            cases hf : answers.fcntl <;> cases hu : answers.unlink <;>
              simp [hold, hmemfd, hf, hu, MemfdAnswers.hidden, fcntlSetfd, unlinkFile,
                oCloexec_and_fdCloexec, hclose, hset, hunlink]

/-- **`open_real_file`** has one way of opening a file: the other asks for a directory. -/
theorem openRealFile_eq (answers : MemfdAnswers) :
    openRealFile dir s answers =
      if answers.asprintfReal ∧ answers.openTmpfile then (some s.newFd, s.openFd true)
      else (none, s) := by
  unfold openRealFile openTmpfile openCreat
  have hslash : ∀ path : Path, (path ++ [slash]).getLast? = some slash := fun path => by simp
  cases answers.asprintfReal <;> cases answers.openTmpfile <;> simp [hslash]

/-- **`bun_memfd_create`.** -/
theorem bunMemfdCreate_eq (answers : MemfdAnswers) :
    bunMemfdCreate tmp dir s name answers =
      let left := (answers.litter tmp dir s.names name).elim s s.link
      match answers.origin tmp dir s.names name with
      | none => (none, left)
      | some origin => (some s.newFd, left.openFd (origin = .tmpfile)) := by
  unfold bunMemfdCreate memfdCreate MemfdAnswers.litter MemfdAnswers.origin
  cases hmemfd : answers.memfd with
  | true =>
      have hnone : answers.temporary tmp dir s.names name = none := by
        unfold MemfdAnswers.temporary
        cases answers.mkstemp <;> simp [hmemfd]
      simp [hnone]
  | false =>
      simp only [Bool.false_eq_true, if_false, openMkstemp_eq hmemfd]
      cases answers.temporary tmp dir s.names name with
      | none =>
          simp only [openRealFile_eq]
          cases answers.asprintfReal <;> cases answers.openTmpfile <;> simp
      | some path =>
          cases hidden : answers.hidden with
          | true => simp
          | false =>
              simp only [openRealFile_eq]
              cases answers.asprintfReal <;> cases answers.openTmpfile <;> simp

/-! ## The account -/

/-- What a program was given and has not closed, and what it left behind. -/
structure MemfdLedger where
  held : Finset Nat
  /-- The descriptors among them that another program does not get to see. -/
  onExec : Finset Nat
  litter : Finset Path

namespace MemfdLedger

/-- Nothing yet. -/
def empty : MemfdLedger := ⟨∅, ∅, ∅⟩

/-- The account after a call in the state `u`. -/
def step (tmp : CString) (l : MemfdLedger) (u : MemfdUser) : MemfdOp → MemfdLedger
  | .bunCacheDirSet _ => l
  | .bunMemfdCreate name answers =>
      let litter := l.litter
        ∪ (answers.litter tmp u.bunInternalCacheDir u.files.names name).toFinset
      match answers.origin tmp u.bunInternalCacheDir u.files.names name with
      | none => { l with litter := litter }
      | some origin =>
          { held := insert u.files.newFd l.held
            onExec := if origin = .tmpfile then insert u.files.newFd l.onExec else l.onExec
            litter := litter }
  | .close fd => { l with held := l.held.erase fd, onExec := l.onExec.erase fd }

/-- The account after all the calls. -/
def run (tmp : CString) : MemfdLedger → MemfdUser → List MemfdOp → MemfdLedger
  | l, _, [] => l
  | l, u, op :: ops => run tmp (l.step tmp u op) (u.step tmp op) ops

end MemfdLedger

/-- The account is right: `s₀` is what there was at the beginning. -/
structure Accounts (s₀ : Files Path) (u : MemfdUser) (l : MemfdLedger) : Prop where
  held : u.held = l.held
  fds : u.files.fds = s₀.fds ∪ l.held
  /-- What was open at the beginning was never handed out. -/
  apart : Disjoint s₀.fds l.held
  cloexec : u.files.cloexec = s₀.cloexec ∪ l.onExec
  onExec : l.onExec ⊆ l.held
  names : u.files.names = s₀.names ∪ l.litter

theorem Accounts.start (s₀ : Files Path) (dir : Option CString) :
    Accounts s₀ ⟨s₀, dir, ∅⟩ MemfdLedger.empty :=
  ⟨rfl, (Finset.union_empty _).symm, Finset.disjoint_empty_right _, (Finset.union_empty _).symm,
    Finset.Subset.refl _, (Finset.union_empty _).symm⟩

/-- A name that is left behind is all that changes. -/
theorem Accounts.leave {s₀ : Files Path} {u : MemfdUser} {l : MemfdLedger}
    (hu : Accounts s₀ u l) (litter : Option Path) :
    Accounts s₀ { u with files := litter.elim u.files u.files.link }
      { l with litter := l.litter ∪ litter.toFinset } := by
  cases litter with
  | none =>
      refine ⟨hu.held, hu.fds, hu.apart, hu.cloexec, hu.onExec, ?_⟩
      rw [Option.toFinset_none, Finset.union_empty]
      exact hu.names
  | some path =>
      refine ⟨hu.held, hu.fds, hu.apart, hu.cloexec, hu.onExec, ?_⟩
      show insert path u.files.names = s₀.names ∪ (l.litter ∪ {path})
      rw [hu.names, Finset.insert_eq, Finset.union_comm, Finset.union_assoc]

/-- A descriptor that is handed out was in nobody's hands. -/
theorem Accounts.handOut {s₀ : Files Path} {u : MemfdUser} {l : MemfdLedger}
    (hu : Accounts s₀ u l) (onExec : Bool) :
    Accounts s₀ { u with files := u.files.openFd onExec, held := insert u.files.newFd u.held }
      { l with
        held := insert u.files.newFd l.held
        onExec := if onExec then insert u.files.newFd l.onExec else l.onExec } := by
  have hnew := u.files.newFd_not_mem
  rw [hu.fds, Finset.mem_union, not_or] at hnew
  refine ⟨?_, ?_, ?_, ?_, ?_, hu.names⟩
  · show insert u.files.newFd u.held = insert u.files.newFd l.held
    rw [hu.held]
  · show insert u.files.newFd u.files.fds = _
    rw [hu.fds, Finset.union_insert]
  · exact Finset.disjoint_insert_right.mpr ⟨hnew.1, hu.apart⟩
  · cases onExec with
    | false => exact hu.cloexec
    | true =>
        show insert u.files.newFd u.files.cloexec = s₀.cloexec ∪ insert u.files.newFd l.onExec
        rw [hu.cloexec, Finset.union_insert]
  · cases onExec with
    | false => exact hu.onExec.trans (Finset.subset_insert _ _)
    | true => exact Finset.insert_subset_insert _ hu.onExec

/-- What is closed is the program's own. -/
theorem Accounts.close {s₀ : Files Path} {u : MemfdUser} {l : MemfdLedger} (hu : Accounts s₀ u l)
    {fd : Nat} (hfd : fd ∈ l.held) :
    Accounts s₀ { u with files := u.files.closeFd fd, held := u.held.erase fd }
      { l with held := l.held.erase fd, onExec := l.onExec.erase fd } := by
  have hother : fd ∉ s₀.fds := fun hmem => Finset.disjoint_left.mp hu.apart hmem hfd
  have hexec : fd ∉ s₀.cloexec := fun hmem => hother (s₀.cloexec_sub hmem)
  refine ⟨?_, ?_, ?_, ?_, ?_, hu.names⟩
  · show u.held.erase fd = l.held.erase fd
    rw [hu.held]
  · show u.files.fds.erase fd = _
    rw [hu.fds, Finset.erase_union_distrib, Finset.erase_eq_of_notMem hother]
  · exact Finset.disjoint_of_subset_right (Finset.erase_subset _ _) hu.apart
  · show u.files.cloexec.erase fd = _
    rw [hu.cloexec, Finset.erase_union_distrib, Finset.erase_eq_of_notMem hexec]
  · exact Finset.erase_subset_erase _ hu.onExec

/-- **Every call keeps the account right.** -/
theorem Accounts.step {s₀ : Files Path} {u : MemfdUser} {l : MemfdLedger} (hu : Accounts s₀ u l)
    (tmp : CString) (op : MemfdOp) : Accounts s₀ (u.step tmp op) (l.step tmp u op) := by
  cases op with
  | bunCacheDirSet path => exact ⟨hu.held, hu.fds, hu.apart, hu.cloexec, hu.onExec, hu.names⟩
  | bunMemfdCreate name answers =>
      have hleft := hu.leave (answers.litter tmp u.bunInternalCacheDir u.files.names name)
      have hnew : ((answers.litter tmp u.bunInternalCacheDir u.files.names name).elim u.files
          u.files.link).newFd = u.files.newFd := by
        cases answers.litter tmp u.bunInternalCacheDir u.files.names name <;> rfl
      rw [MemfdUser.step, MemfdLedger.step, bunMemfdCreate_eq]
      dsimp only
      cases answers.origin tmp u.bunInternalCacheDir u.files.names name with
      | none => exact hleft
      | some origin =>
          have hgiven := hleft.handOut (decide (origin = .tmpfile))
          simp only [hnew, decide_eq_true_eq] at hgiven
          exact hgiven
  | close fd =>
      rw [MemfdUser.step, MemfdLedger.step]
      by_cases hfd : fd ∈ l.held
      · rw [if_pos (hu.held ▸ hfd)]
        exact hu.close hfd
      · rw [if_neg (hu.held ▸ hfd), Finset.erase_eq_of_notMem hfd,
          Finset.erase_eq_of_notMem fun hmem => hfd (hu.onExec hmem)]
        exact hu

/--
**After any calls the account is right**, whatever the calls of the library to the
kernel answer, and in whatever state the process was before.
-/
theorem memfd_accounts (tmp : CString) (s₀ : Files Path) (dir : Option CString)
    (ops : List MemfdOp) :
    Accounts s₀ (MemfdUser.run tmp ⟨s₀, dir, ∅⟩ ops)
      (MemfdLedger.empty.run tmp ⟨s₀, dir, ∅⟩ ops) := by
  have hrun : ∀ (ops : List MemfdOp) (u : MemfdUser) (l : MemfdLedger), Accounts s₀ u l →
      Accounts s₀ (u.run tmp ops) (l.run tmp u ops) := by
    intro ops
    induction ops with
    | nil =>
        intro u l hu
        exact hu
    | cons op ops ih =>
        intro u l hu
        exact ih _ _ (hu.step tmp op)
  exact hrun ops _ _ (Accounts.start s₀ dir)

end LibBun
