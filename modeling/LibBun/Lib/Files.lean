import Mathlib.Data.Finset.Basic
import Mathlib.Data.Fintype.EquivFin
import Mathlib.Order.Nat

/-!
# Descriptors and names

What a process has open and what can be found in the file system, as far as opening,
closing, linking and unlinking go. A descriptor that is opened is the lowest number that
is not in use, so numbers come back. The lemmas are equations between states: what is
opened and closed again, or linked and unlinked, was never there.
-/

/-- The descriptors of a process, and the names of files. -/
@[ext] structure Files (π : Type) where
  /-- The descriptors that are open. -/
  fds : Finset Nat
  /-- Those among them that are closed when the process runs another program. -/
  cloexec : Finset Nat
  cloexec_sub : cloexec ⊆ fds
  names : Finset π

namespace Files

variable {π : Type}

/-- The descriptor that is opened next. -/
def newFd (s : Files π) : Nat := Nat.find (Infinite.exists_notMem_finset s.fds)

theorem newFd_not_mem (s : Files π) : s.newFd ∉ s.fds :=
  Nat.find_spec (Infinite.exists_notMem_finset s.fds)

/-- A file is opened, to be closed on `exec` or not. -/
def openFd (s : Files π) (onExec : Bool) : Files π where
  fds := insert s.newFd s.fds
  cloexec := if onExec then insert s.newFd s.cloexec else s.cloexec
  cloexec_sub := by
    split
    · exact Finset.insert_subset_insert _ s.cloexec_sub
    · exact s.cloexec_sub.trans (Finset.subset_insert _ _)
  names := s.names

/-- A descriptor is closed. -/
def closeFd (s : Files π) (fd : Nat) : Files π where
  fds := s.fds.erase fd
  cloexec := s.cloexec.erase fd
  cloexec_sub := Finset.erase_subset_erase _ s.cloexec_sub
  names := s.names

/-- What becomes of an open descriptor on `exec`. -/
def setOnExec (s : Files π) (fd : Nat) (onExec : Bool) : Files π where
  fds := s.fds
  cloexec := if onExec then insert fd s.cloexec ∩ s.fds else s.cloexec.erase fd
  cloexec_sub := by
    split
    · exact Finset.inter_subset_right
    · exact (Finset.erase_subset _ _).trans s.cloexec_sub
  names := s.names

variable [DecidableEq π]

/-- A file gets a name. -/
def link (s : Files π) (path : π) : Files π := { s with names := insert path s.names }

/-- It loses a name. -/
def unlink (s : Files π) (path : π) : Files π := { s with names := s.names.erase path }

/-! ## Equations -/

omit [DecidableEq π] in
theorem newFd_not_mem_cloexec (s : Files π) : s.newFd ∉ s.cloexec := fun hmem =>
  s.newFd_not_mem (s.cloexec_sub hmem)

omit [DecidableEq π] in
@[simp] theorem openFd_closeFd (s : Files π) (onExec : Bool) :
    (s.openFd onExec).closeFd s.newFd = s := by
  refine Files.ext ?_ ?_ rfl
  · exact Finset.erase_insert s.newFd_not_mem
  · cases onExec with
    | false => exact Finset.erase_eq_of_notMem s.newFd_not_mem_cloexec
    | true => exact Finset.erase_insert s.newFd_not_mem_cloexec

omit [DecidableEq π] in
@[simp] theorem openFd_setOnExec (s : Files π) (onExec onExec' : Bool) :
    (s.openFd onExec).setOnExec s.newFd onExec' = s.openFd onExec' := by
  refine Files.ext rfl ?_ rfl
  have hsub := Finset.insert_subset_insert s.newFd s.cloexec_sub
  cases onExec with
  | false =>
      cases onExec' with
      | false => exact Finset.erase_eq_of_notMem s.newFd_not_mem_cloexec
      | true => exact Finset.inter_eq_left.mpr hsub
  | true =>
      cases onExec' with
      | false => exact Finset.erase_insert s.newFd_not_mem_cloexec
      | true =>
          show insert s.newFd (insert s.newFd s.cloexec) ∩ _ = insert s.newFd s.cloexec
          rw [Finset.insert_idem]
          exact Finset.inter_eq_left.mpr hsub

@[simp] theorem newFd_link (s : Files π) (path : π) : (s.link path).newFd = s.newFd := rfl

/-- Opening and naming a file can be told in either order. -/
@[simp] theorem openFd_link (s : Files π) (onExec : Bool) (path : π) :
    (s.openFd onExec).link path = (s.link path).openFd onExec := rfl

@[simp] theorem openFd_unlink (s : Files π) (onExec : Bool) (path : π) :
    (s.openFd onExec).unlink path = (s.unlink path).openFd onExec := rfl

@[simp] theorem link_unlink {s : Files π} {path : π} (hnew : path ∉ s.names) :
    (s.link path).unlink path = s :=
  Files.ext rfl rfl (Finset.erase_insert hnew)

end Files
