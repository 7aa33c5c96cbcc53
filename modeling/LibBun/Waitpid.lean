import LibBun.Lib.Retry

/-!
# Waiting for a thread to stop

`bun_waitpid` polls: it calls `waitpid` with `WNOHANG`, and as long as there is
nothing to report it sleeps for half a millisecond, takes one from its timeout
after every second sleep, and asks again. When the timeout is used up it tries to
read the registers of the thread, which only works if the thread has stopped.

What the system calls answer is a parameter, an answer for every iteration, so the
loop is an instance of `Retry`. `nanosleep`, and the loop that restarts it after a
signal, only let time pass.
-/

namespace LibBun

/-! ## Numbers of the system -/

def eintr : Nat := 4
def esrch : Nat := 3
def echild : Nat := 10
def einval : Nat := 22

def sigstop : Int := 19
def sigtstp : Int := 20
def sigttin : Int := 21
def sigttou : Int := 22

/-- `WIFEXITED`. -/
def wifexited (status : Int) : Bool := status % 128 = 0

/-- `WIFSIGNALED`. -/
def wifsignaled (status : Int) : Bool := 0 < status % 128 ∧ status % 128 < 127

/-- `WIFSTOPPED`. -/
def wifstopped (status : Int) : Bool := status % 256 = 127

/-- `WSTOPSIG`. -/
def wstopsig (status : Int) : Int := status / 256 % 256

/-! ## The loop -/

/-- What the calls of one iteration answer. One that is not made answers all the same. -/
structure WaitAnswer where
  /-- What `waitpid` returns. -/
  p : Int
  /-- The status it stores. -/
  status : Int
  /-- `errno`, if it returns -1. -/
  errno : Nat
  /-- What `getregs_success` returns, which is what its `ptrace` returns. -/
  getregs : Int
  /-- What `ptrace` returns for `PTRACE_GETSIGINFO`. -/
  siginfo : Int
  /-- `errno`, if that is -1. -/
  siginfoErrno : Nat
deriving DecidableEq

/-- The variables that outlive an iteration, both of type `int`. -/
structure WaitState where
  msecTimeout : Int
  loop : Int
deriving DecidableEq

/-- What is returned once there is a status of the thread. -/
def waitStatus (a : WaitAnswer) : Int :=
  if wifexited a.status ∨ wifsignaled a.status then
    -1
  else if wifstopped a.status = false then
    -1
  else
    let sig := wstopsig a.status
    if sig = sigstop ∨ sig = sigtstp ∨ sig = sigttin ∨ sig = sigttou then
      if a.siginfo ≠ -1 then
        0
      else if a.siginfoErrno = einval then
        0
      else if a.siginfoErrno = esrch then
        -1
      else
        0
    else
      0

/-- One iteration of the loop of `bun_waitpid`. -/
def waitStep (pid : Int) (s : WaitState) (a : WaitAnswer) : Retry.Outcome WaitState Int :=
  if a.p = -1 then
    if a.errno = eintr then
      .again s
    else if a.errno = echild then
      -- taken for the notification that a child has stopped
      .again s
    else
      .returned (-1)
  else if a.p ≠ pid then
    -- no event yet; the sleep is here
    let s :=
      { msecTimeout := (s.msecTimeout - s.loop % 2).bmod (2 ^ 32)
        loop := (s.loop + 1).bmod (2 ^ 32) : WaitState }
    if s.msecTimeout > 0 then
      .again s
    else if a.getregs ≠ -1 then
      .returned 0
    else
      .returned (-1)
  else
    .returned (waitStatus a)

/-- `bun_waitpid`; `none` if it has not returned after `fuel` iterations. -/
def bunWaitpid (pid msecTimeout : Int) (answers : Nat → WaitAnswer) (fuel : Nat) : Option Int :=
  Retry.run (waitStep pid) ⟨msecTimeout, 0⟩ answers fuel

end LibBun
