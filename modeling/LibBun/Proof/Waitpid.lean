import LibBun.Waitpid

/-!
# The timeout of `bun_waitpid`

Answers of `waitpid` come in four kinds. A status of the thread and an error ends
the loop; no event costs half a millisecond; an interruption is free, and nobody
counts it. The fourth is `ECHILD`, the error for a process that is not a child, or
no longer one. The loop takes it for the notice of a stop and asks again at once,
without a sleep and without touching its timeout.

`bunWaitpid_honoursTimeout_iff` is what follows. The loop honours its timeout for a
sequence of answers exactly if, up to the answer that uses it up, either something
has ended the loop or `ECHILD` has not been seen. A process that is not a child is
reported as such for ever, and for this sequence the loop has no end.
-/

namespace LibBun

namespace WaitAnswer

variable (pid : Int) (a : WaitAnswer)

/-- `waitpid` failed because a signal came in. -/
def Interrupted : Prop := a.p = -1 ∧ a.errno = eintr

/-- `waitpid` failed because there is no such child. -/
def NoChild : Prop := a.p = -1 ∧ a.errno = echild

/-- There is no event yet. -/
def NoEvent : Prop := a.p ≠ -1 ∧ a.p ≠ pid

/-- There is a status of the thread, or any other error. -/
def Conclusive : Prop :=
  (a.p = -1 ∧ a.errno ≠ eintr ∧ a.errno ≠ echild) ∨ (a.p ≠ -1 ∧ a.p = pid)

/-- The status says that the thread has stopped. -/
def Stop : Prop := a.p = pid ∧ wifstopped a.status = true

instance : DecidablePred Interrupted := fun _ => inferInstanceAs (Decidable (_ ∧ _))

instance : DecidablePred (NoEvent pid) := fun _ => inferInstanceAs (Decidable (_ ∧ _))

variable {pid} {a}

/-- Of the answers that count, all but `ECHILD` end the loop or cost time. -/
theorem noEvent_of_counted (hwait : ¬a.Interrupted) (hgoing : ¬a.Conclusive pid)
    (hchild : ¬a.NoChild) : a.NoEvent pid := by
  unfold Interrupted at hwait
  unfold Conclusive at hgoing
  unfold NoChild at hchild
  unfold NoEvent
  tauto

end WaitAnswer

/-! ## What is promised -/

/-- The iterations among the first `n` in which `waitpid` was not interrupted. -/
def waits (answers : Nat → WaitAnswer) (n : Nat) : Nat :=
  Nat.count (fun i => ¬(answers i).Interrupted) n

/-- The iterations among the first `n` that took time. -/
def sleeps (pid : Int) (answers : Nat → WaitAnswer) (n : Nat) : Nat :=
  Nat.count (fun i => (answers i).NoEvent pid) n

/-- The iterations a timeout of `T` milliseconds is good for. -/
def waitLimit (T : Nat) : Nat := max 1 (2 * T)

/-- The `n`-th answer is a stop of the thread. -/
def SeenStop (pid : Int) (answers : Nat → WaitAnswer) (n : Nat) : Prop := (answers n).Stop pid

/-- The `n`-th answer uses up the timeout, and the registers can be read. -/
def ProbedInTheEnd (pid : Int) (T : Nat) (answers : Nat → WaitAnswer) (n : Nat) : Prop :=
  (answers n).NoEvent pid ∧ sleeps pid answers (n + 1) = waitLimit T ∧ (answers n).getregs ≠ -1

/-- `bun_waitpid` is done in time, and says what it has seen. -/
structure HonoursTimeout (pid : Int) (T : Nat) (answers : Nat → WaitAnswer) : Prop where
  /-- It has returned once as many answers count as the timeout is good for. -/
  leaves : ∀ n, waitLimit T ≤ waits answers n → ∃ r, bunWaitpid pid T answers n = some r
  /-- What it returns after the `n`-th answer is 0 for a stop or a probe, negative otherwise. -/
  result : ∀ n r, bunWaitpid pid T answers n = none → bunWaitpid pid T answers (n + 1) = some r →
    (r = 0 ∧ (SeenStop pid answers n ∨ ProbedInTheEnd pid T answers n)) ∨ r < 0

/-- `ECHILD` does not come up while the loop is running and its timeout lasts. -/
def ChildAllAlong (pid : Int) (T : Nat) (answers : Nat → WaitAnswer) : Prop :=
  ∀ n, waits answers n = waitLimit T →
    (∃ i < n, (answers i).Conclusive pid) ∨ ∀ i < n, ¬(answers i).NoChild

/-! ## One iteration -/

/-- The state after `k` sleeps. -/
def waitState (T k : Nat) : WaitState := ⟨(T : Int) - (k / 2 : Nat), k⟩

theorem waitStep_conclusive {pid : Int} {a : WaitAnswer} (h : a.Conclusive pid) (s : WaitState) :
    waitStep pid s a = .returned (if a.p = -1 then -1 else waitStatus a) := by
  unfold waitStep
  rcases h with ⟨hp, hintr, hchild⟩ | ⟨hp, hpid⟩
  · rw [if_pos hp, if_neg hintr, if_neg hchild, if_pos hp]
  · rw [if_neg hp, if_neg (not_not_intro hpid), if_neg hp]

/-- An answer that is neither conclusive nor a matter of time is asked for again. -/
theorem waitStep_free {pid : Int} {a : WaitAnswer} (hgoing : ¬a.Conclusive pid)
    (hfree : ¬a.NoEvent pid) (s : WaitState) : waitStep pid s a = .again s := by
  have hp : a.p = -1 := by
    unfold WaitAnswer.Conclusive at hgoing
    unfold WaitAnswer.NoEvent at hfree
    tauto
  unfold waitStep
  rw [if_pos hp]
  split
  · rfl
  · rename_i hintr
    rw [if_pos]
    by_contra hchild
    exact hgoing (Or.inl ⟨hp, hintr, hchild⟩)

/-- A sleep: the arithmetic on `int` does not overflow as long as the timeout lasts. -/
theorem waitStep_noEvent {pid : Int} {T k : Nat} {a : WaitAnswer} (hT : T ≤ 2 ^ 29)
    (hk : k < waitLimit T) (h : a.NoEvent pid) :
    waitStep pid (waitState T k) a =
      if k + 1 < waitLimit T then .again (waitState T (k + 1))
      else .returned (if a.getregs ≠ -1 then 0 else -1) := by
  have hlimit : waitLimit T = max 1 (2 * T) := rfl
  have htime : ((T : Int) - (k / 2 : Nat) - (k : Int) % 2).bmod (2 ^ 32)
      = (T : Int) - ((k + 1) / 2 : Nat) := by
    rw [Int.bmod_eq_of_le_mul_two] <;> omega
  have hloop : ((k : Int) + 1).bmod (2 ^ 32) = (k + 1 : Nat) := by
    rw [Int.bmod_eq_of_le_mul_two] <;> omega
  unfold waitStep waitState
  rw [if_neg h.1, if_pos h.2]
  dsimp only
  rw [htime, hloop]
  by_cases hmore : k + 1 < waitLimit T
  · rw [if_pos hmore, if_pos (by omega)]
  · rw [if_neg hmore, if_neg (by omega)]
    split <;> rfl

/-- The timeout is a budget of sleeps. -/
def waitBudget (pid : Int) {T : Nat} (hT : T ≤ 2 ^ 29) :
    Retry.Budget (waitStep pid) (WaitAnswer.Conclusive pid) (WaitAnswer.NoEvent pid) where
  limit := waitLimit T
  state := waitState T
  limit_pos := Nat.lt_of_lt_of_le Nat.zero_lt_one (Nat.le_max_left ..)
  stop := fun k a _ hstop => ⟨_, waitStep_conclusive hstop _⟩
  spend := fun k a hmore _ hcost => by
    rw [waitStep_noEvent hT (Nat.lt_of_succ_lt hmore) hcost, if_pos hmore]
  last := fun k a hlast _ hcost => by
    have hk : k < waitLimit T := by omega
    have hend : ¬k + 1 < waitLimit T := by omega
    exact ⟨_, by rw [waitStep_noEvent hT hk hcost, if_neg hend]⟩
  free := fun k a _ hgoing hfree => waitStep_free hgoing hfree _

theorem bunWaitpid_eq_some {pid : Int} {T n : Nat} {answers : Nat → WaitAnswer} {r : Int} :
    bunWaitpid pid T answers n = some r
      ↔ Retry.after (waitStep pid) (waitState T 0) answers n = .returned r := by
  have hstart : waitState T 0 = ⟨T, 0⟩ := by simp [waitState]
  rw [bunWaitpid, Retry.run_eq_some, hstart]

/-! ## What is returned -/

/-- A status of the thread is good news only if the thread has stopped. -/
theorem waitStatus_cases (a : WaitAnswer) :
    (waitStatus a = 0 ∧ wifstopped a.status = true) ∨ waitStatus a < 0 := by
  unfold waitStatus
  split
  · exact Or.inr (by decide)
  split
  · exact Or.inr (by decide)
  rename_i hstopped
  have hstop : wifstopped a.status = true := by simpa using hstopped
  dsimp only
  split_ifs
  · exact Or.inl ⟨rfl, hstop⟩
  · exact Or.inl ⟨rfl, hstop⟩
  · exact Or.inr (by decide)
  · exact Or.inl ⟨rfl, hstop⟩
  · exact Or.inl ⟨rfl, hstop⟩

/-- A conclusive answer is a stop, or the end of it. -/
theorem conclusive_cases {pid : Int} {a : WaitAnswer} (h : a.Conclusive pid) {r : Int}
    (hr : (if a.p = -1 then -1 else waitStatus a) = r) : (r = 0 ∧ a.Stop pid) ∨ r < 0 := by
  split at hr
  · exact Or.inr (by omega)
  · rename_i hp
    have hpid : a.p = pid := by
      rcases h with ⟨hfailed, _⟩ | ⟨_, hpid⟩
      · exact absurd hfailed hp
      · exact hpid
    rcases waitStatus_cases a with ⟨hzero, hstopped⟩ | hneg
    · exact Or.inl ⟨hr ▸ hzero, hpid, hstopped⟩
    · exact Or.inr (hr ▸ hneg)

/-- The loop never says anything but what it has seen. -/
theorem bunWaitpid_result {pid : Int} {T : Nat} (hT : T ≤ 2 ^ 29) {answers : Nat → WaitAnswer}
    {n : Nat} {r : Int} (hrunning : bunWaitpid pid T answers n = none)
    (hreturns : bunWaitpid pid T answers (n + 1) = some r) :
    (r = 0 ∧ (SeenStop pid answers n ∨ ProbedInTheEnd pid T answers n)) ∨ r < 0 := by
  rw [bunWaitpid_eq_some] at hreturns
  cases hn : Retry.after (waitStep pid) (waitState T 0) answers n with
  | returned r' =>
      rw [bunWaitpid_eq_some.mpr hn] at hrunning
      cases hrunning
  | again t =>
      have hstate : sleeps pid answers n < waitLimit T ∧ t = waitState T (sleeps pid answers n) :=
        ((waitBudget pid hT).of_again hn).2
      obtain ⟨hlt, rfl⟩ := hstate
      rw [Retry.after_succ_of_again hn] at hreturns
      by_cases hstop : (answers n).Conclusive pid
      · rw [waitStep_conclusive hstop] at hreturns
        have hr := Retry.Outcome.returned.inj hreturns
        rcases conclusive_cases hstop hr with ⟨hzero, hseen⟩ | hneg
        · exact Or.inl ⟨hzero, Or.inl hseen⟩
        · exact Or.inr hneg
      by_cases hcost : (answers n).NoEvent pid
      · rw [waitStep_noEvent hT hlt hcost] at hreturns
        split at hreturns
        · cases hreturns
        · -- the last sleep, and the probe after it
          rename_i hend
          have hr := Retry.Outcome.returned.inj hreturns
          have hused : sleeps pid answers (n + 1) = waitLimit T := by
            rw [sleeps, Nat.count_succ, if_pos hcost]
            exact Nat.le_antisymm hlt (Nat.le_of_not_lt hend)
          split at hr
          · rename_i hprobe
            exact Or.inl ⟨hr.symm, Or.inr ⟨hcost, hused, hprobe⟩⟩
          · exact Or.inr (by omega)
      · rw [waitStep_free hstop hcost] at hreturns
        cases hreturns

/-! ## The result -/

/-- **Where the loop leaves in time.** -/
theorem bunWaitpid_leaves_iff {pid : Int} {T : Nat} (hT : T ≤ 2 ^ 29)
    {answers : Nat → WaitAnswer} :
    (∀ n, waitLimit T ≤ waits answers n → ∃ r, bunWaitpid pid T answers n = some r)
      ↔ ChildAllAlong pid T answers := by
  have hcounted : ∀ a : WaitAnswer, a.NoEvent pid → ¬a.Interrupted :=
    fun a hnone hintr => hnone.1 hintr.1
  simp only [bunWaitpid_eq_some]
  refine ((waitBudget pid hT).leaves_iff hcounted).trans
    (forall_congr' fun n => imp_congr_right fun _ => ?_)
  constructor
  · rintro (hstop | hall)
    · exact Or.inl hstop
    · refine Or.inr fun i hi hchild => ?_
      have hwait : ¬(answers i).Interrupted := by
        intro hintr
        exact absurd (hintr.2.symm.trans hchild.2) (by decide)
      exact (hall i hi hwait).1 hchild.1
  · rintro (hstop | hall)
    · exact Or.inl hstop
    · by_cases hany : ∃ i < n, (answers i).Conclusive pid
      · exact Or.inl hany
      · refine Or.inr fun i hi hwait => ?_
        exact WaitAnswer.noEvent_of_counted hwait (fun hstop => hany ⟨i, hi, hstop⟩) (hall i hi)

/--
**When `bun_waitpid` honours its timeout.** The timeout and the answers are any; what
can go wrong is that `ECHILD` comes up.
-/
theorem bunWaitpid_honoursTimeout_iff {pid : Int} {T : Nat} (hT : T ≤ 2 ^ 29)
    {answers : Nat → WaitAnswer} :
    HonoursTimeout pid T answers ↔ ChildAllAlong pid T answers := by
  rw [← bunWaitpid_leaves_iff hT]
  constructor
  · intro h
    exact h.leaves
  · intro h
    exact ⟨h, fun n r => bunWaitpid_result hT⟩

/-- A thread that has not stopped yet. -/
def noEvent : WaitAnswer where
  p := 0
  status := 0
  errno := 0
  getregs := -1
  siginfo := 0
  siginfoErrno := 0

/-- A process that is not a child. -/
def notAChild : WaitAnswer := { noEvent with p := -1, errno := echild }

/-- Nothing happens for a millisecond. -/
theorem bunWaitpid_honoursTimeout_noEvent :
    (1 : Nat) ≤ 2 ^ 29 ∧ HonoursTimeout 7 1 fun _ => noEvent := by
  have hT : (1 : Nat) ≤ 2 ^ 29 := by decide
  refine ⟨hT, (bunWaitpid_honoursTimeout_iff hT).mpr fun n _ => Or.inr fun i _ hchild => ?_⟩
  exact absurd hchild.1 (by decide)

/-- A process that is not a child is waited for without end, whatever the timeout. -/
theorem bunWaitpid_notAChild (pid : Int) (T n : Nat) :
    bunWaitpid pid T (fun _ => notAChild) n = none := by
  have hagain : Retry.after (waitStep pid) ⟨T, 0⟩ (fun _ => notAChild) n = .again ⟨T, 0⟩ := by
    induction n with
    | zero => rfl
    | succ n ih => exact Retry.after_succ_of_again ih
  rw [bunWaitpid, Retry.run, hagain]

/-- Not even a timeout of 0 is honoured for it. -/
theorem not_honoursTimeout_notAChild : ¬HonoursTimeout 7 0 fun _ => notAChild := by
  intro h
  have hwaits : waitLimit 0 ≤ waits (fun _ => notAChild) 1 := by decide
  obtain ⟨r, hr⟩ := h.leaves 1 hwaits
  rw [bunWaitpid_notAChild] at hr
  cases hr

end LibBun
