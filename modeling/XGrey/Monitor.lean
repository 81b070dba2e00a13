import Mathlib.Algebra.Order.Group.Int
import XGrey.Children
import XGrey.Lib.FailureWindow
import XGrey.Tuple

/-!
# The Monitor

`main` of `gld` (`server/gld.c`) runs the server in a child process and watches it. A child
that exits, or that is ended by one of the three signals for a shutdown, ends the monitor too;
a child that is ended by any other signal has aborted, and a new one takes its place, unless
there have been too many aborts in too short a time.

A run of the monitor is a list of rounds, one for each child: what `fork` returned, and what
the calls of `waitpid` returned for this child, each with the time.

## Main results

* `monitorLoop_restart_iff`: the monitor is still there after a number of rounds exactly if all
  of the children aborted and all of the aborts are tolerated by the window of `FailureWindow`.
* `monitor_restart_rate`: it restarts the server at most 41 times within any five seconds.
* `monitor_stopped`: the four ways in which it stops, with the status it exits with; it
  gives up on aborts only if 21 of them follow another one, or its own start, in less than
  five seconds.
-/

open FailureWindow

namespace XGrey

/-! ### The monitor -/

/-- The two statuses of `stdlib.h`. -/
def exitSuccess : ℕ := 0
def exitFailure : ℕ := 1

/-- The signals that shut the server down. -/
def sigint : ℕ := 2
def sigquit : ℕ := 3
def sigterm : ℕ := 15

/-- What `waitpid(child,&status,0)` returns to the monitor. -/
inductive Waited
  /-- -1 -/
  | failed
  /-- the number of another process -/
  | stranger
  | child (status : WaitStatus)
  /-- the child, with the status `WIFCONTINUED` -/
  | continued
  deriving DecidableEq

/-- `abend_last` and `abend_count`. -/
abbrev Abend := Window ℤ

/-- How a round of the outer loop ends. -/
inductive RoundEnd
  /-- The monitor returns from `main`. -/
  | stop (status : ℕ)
  /-- It goes on to the next round. -/
  | restart (abend : Abend)
  /-- It still waits for the child. -/
  | waiting
  deriving DecidableEq

/-- The case of `main` for a child that was ended by a signal other than those for a
shutdown. -/
def monitorAbend (abend : Abend) (abendNow : ℤ) : RoundEnd :=
  let abend : Abend := if difftime abendNow abend.opened < 5 then
      { abend with count := abend.count + 1 }
    else { opened := abendNow, count := 0 }
  if abend.count > 20 then .stop exitFailure else .restart abend

/-- The inner loop of `main`, over what `waitpid` returns and when. -/
def monitorWait (abend : Abend) : List (Waited × ℤ) → RoundEnd
  | [] => .waiting
  | (.failed, _) :: waits => monitorWait abend waits
  | (.stranger, _) :: waits => monitorWait abend waits
  | (.child (.exited status), _) :: _ => .stop status
  | (.child (.signaled sig), now) :: _ =>
      if sig = sigterm ∨ sig = sigquit ∨ sig = sigint then .stop exitSuccess
      else monitorAbend abend now
  | (.child (.stopped _), _) :: waits => monitorWait abend waits
  | (.continued, _) :: waits => monitorWait abend waits

/-- A round of the outer loop. -/
inductive Round
  | forkFailed
  | forked (waits : List (Waited × ℤ))

/-- The outer loop of `main`. -/
def monitorLoop (abend : Abend) : List Round → RoundEnd
  | [] => .restart abend
  | .forkFailed :: _ => .stop exitFailure
  | .forked waits :: rounds =>
      match monitorWait abend waits with
      | .stop status => .stop status
      | .waiting => .waiting
      | .restart abend => monitorLoop abend rounds

/-- `main` with the monitor, from the time at which it was started. -/
def monitor (start : ℤ) (rounds : List Round) : RoundEnd :=
  monitorLoop { opened := start, count := 0 } rounds

/-! ### What becomes of a child -/

/-- What becomes of the child of a round, as the monitor sees it. -/
inductive Fate
  | notForked
  | exited (status : ℕ)
  | shutDown
  | aborted (now : ℤ)
  | running
  deriving DecidableEq

/-- The fate of a child, by the first status that tells of its end. -/
def fateOf : List (Waited × ℤ) → Fate
  | [] => .running
  | (.child (.exited status), _) :: _ => .exited status
  | (.child (.signaled sig), now) :: _ =>
      if sig = sigterm ∨ sig = sigquit ∨ sig = sigint then .shutDown else .aborted now
  | _ :: waits => fateOf waits

def Round.fate : Round → Fate
  | .forkFailed => .notForked
  | .forked waits => fateOf waits

/-- The time of an abort. -/
def Fate.abort : Fate → Option ℤ
  | .aborted now => some now
  | _ => none

/-- The times at which the children of some rounds aborted. -/
def abortTimes (rounds : List Round) : List ℤ := rounds.filterMap fun r => r.fate.abort

/-- How a round ends by the fate of its child. -/
def Fate.roundEnd (abend : Abend) : Fate → RoundEnd
  | .notForked => .stop exitFailure
  | .exited status => .stop status
  | .shutDown => .stop exitSuccess
  | .aborted now => monitorAbend abend now
  | .running => .waiting

/-- The inner loop looks at nothing but the fate of the child. -/
theorem monitorWait_eq (abend : Abend) (waits : List (Waited × ℤ)) :
    monitorWait abend waits = (fateOf waits).roundEnd abend := by
  induction waits with
  | nil => rfl
  | cons wait waits ih =>
      obtain ⟨result, now⟩ := wait
      cases result with
      | failed => exact ih
      | stranger => exact ih
      | continued => exact ih
      | child status =>
          cases status with
          | exited status => rfl
          | stopped sig => exact ih
          | signaled sig =>
              rw [monitorWait, fateOf]
              split_ifs <;> rfl

/-- **One round.** -/
theorem monitorLoop_cons (abend : Abend) (r : Round) (rounds : List Round) :
    monitorLoop abend (r :: rounds) =
      match r.fate.roundEnd abend with
      | .stop status => .stop status
      | .waiting => .waiting
      | .restart abend => monitorLoop abend rounds := by
  cases r with
  | forkFailed => rfl
  | forked waits => rw [monitorLoop, monitorWait_eq, Round.fate]

/-- An abort is a failure in a window of five seconds, of which twenty are tolerated. -/
theorem monitorAbend_eq (abend : Abend) (now : ℤ) :
    monitorAbend abend now =
      if (abend.record 5 now).count ≤ 20 then .restart (abend.record 5 now)
      else .stop exitFailure := by
  have hspan : difftime now abend.opened < 5 ↔ now - abend.opened < 5 := by
    rw [difftime]
    exact_mod_cast Iff.rfl
  rw [monitorAbend]
  simp only [hspan, Window.record]
  by_cases hin : now - abend.opened < 5
  · simp only [if_pos hin]
    split_ifs <;> first | rfl | omega
  · simp only [if_neg hin]
    split_ifs <;> first | rfl | omega

/-! ### Runs of the monitor -/

/-- **The monitor is still there** after some rounds exactly if all of the children aborted,
at times that the window tolerates. -/
theorem monitorLoop_restart_iff (abend : Abend) (rounds : List Round) :
    (∃ abend', monitorLoop abend rounds = .restart abend') ↔
      (∀ r ∈ rounds, ∃ now, r.fate = .aborted now) ∧
        survives 5 20 abend (abortTimes rounds) = true := by
  induction rounds generalizing abend with
  | nil => exact iff_of_true ⟨abend, rfl⟩ ⟨by simp, rfl⟩
  | cons r rounds ih =>
      rw [monitorLoop_cons, List.forall_mem_cons]
      cases hfate : r.fate with
      | aborted now =>
          have htimes : abortTimes (r :: rounds) = now :: abortTimes rounds := by
            simp [abortTimes, hfate, Fate.abort]
          rw [htimes, survives_cons, Fate.roundEnd, monitorAbend_eq]
          split_ifs with hcount
          · dsimp only
            rw [ih]
            simp [hcount]
          · simp [hcount]
      | notForked => simp [Fate.roundEnd]
      | exited status => simp [Fate.roundEnd]
      | shutDown => simp [Fate.roundEnd]
      | running => simp [Fate.roundEnd]

/-- A monitor that is still there goes on. -/
theorem monitorLoop_append {abend abend' : Abend} {rounds : List Round}
    (h : monitorLoop abend rounds = .restart abend') (rounds' : List Round) :
    monitorLoop abend (rounds ++ rounds') = monitorLoop abend' rounds' := by
  induction rounds generalizing abend with
  | nil =>
      cases h
      rfl
  | cons r rounds ih =>
      rw [monitorLoop_cons] at h
      rw [List.cons_append, monitorLoop_cons]
      cases hround : r.fate.roundEnd abend with
      | stop status => rw [hround] at h; cases h
      | waiting => rw [hround] at h; cases h
      | restart abend₁ =>
          rw [hround] at h
          exact ih h

/-- A monitor that stops does so in some round, and is still there before it. -/
theorem monitorLoop_stop {abend : Abend} {rounds : List Round} {status : ℕ}
    (h : monitorLoop abend rounds = .stop status) :
    ∃ before r after abend', rounds = before ++ r :: after ∧
      monitorLoop abend before = .restart abend' ∧ r.fate.roundEnd abend' = .stop status := by
  induction rounds generalizing abend with
  | nil => cases h
  | cons r rounds ih =>
      rw [monitorLoop_cons] at h
      cases hround : r.fate.roundEnd abend with
      | stop status' =>
          rw [hround] at h
          cases h
          exact ⟨[], r, rounds, abend, rfl, rfl, hround⟩
      | waiting =>
          rw [hround] at h
          cases h
      | restart abend₁ =>
          rw [hround] at h
          obtain ⟨before, r', after, abend', rfl, hbefore, hstop⟩ := ih h
          refine ⟨r :: before, r', after, abend', rfl, ?_, hstop⟩
          rw [monitorLoop_cons, hround]
          exact hbefore

/-- The rounds after which the monitor is still there have restarted the server each. -/
theorem length_abortTimes {rounds : List Round}
    (h : ∀ r ∈ rounds, ∃ now, r.fate = .aborted now) :
    (abortTimes rounds).length = rounds.length := by
  induction rounds with
  | nil => rfl
  | cons r rounds ih =>
      obtain ⟨⟨now, hfate⟩, hrest⟩ := List.forall_mem_cons.mp h
      have htimes : abortTimes (r :: rounds) = now :: abortTimes rounds := by
        simp [abortTimes, hfate, Fate.abort]
      rw [htimes, List.length_cons, List.length_cons, ih hrest]

/-- **The rate of restarts.** With a clock that does not go back, each of the rounds after
which the monitor is still there has restarted the server once, and at most 41 of the restarts
fall into any five seconds. -/
theorem monitor_restart_rate (start : ℤ) (rounds : List Round) (abend : Abend)
    (hclock : (abortTimes rounds).Pairwise (· ≤ ·))
    (hrun : monitor start rounds = .restart abend) (a : ℤ) :
    (abortTimes rounds).length = rounds.length ∧
      (abortTimes rounds).countP (fun t => decide (a ≤ t ∧ t < a + 5)) ≤ 41 := by
  obtain ⟨hfates, hsurv⟩ := (monitorLoop_restart_iff _ rounds).mp ⟨abend, hrun⟩
  exact ⟨length_abortTimes hfates,
    countP_le_of_survives hclock hsurv (Nat.zero_le 20) a⟩

/-- A server that is ended by `SIGSEGV` at some time. -/
def segfault (now : ℤ) : Round := .forked [(.child (.signaled 11), now)]

theorem monitor_restart_rate_two :
    (abortTimes [segfault 1, segfault 2]).length = 2 ∧
      (abortTimes [segfault 1, segfault 2]).countP
        (fun t => decide ((0 : ℤ) ≤ t ∧ t < 0 + 5)) ≤ 41 :=
  monitor_restart_rate 0 [segfault 1, segfault 2] { opened := 0, count := 2 } (by decide)
    (by decide) 0

/-- The rate is reached: twenty aborts at the end of a window, and then a window of its own. -/
example : ∃ abend, monitor 0 ((List.replicate 20 4 ++ List.replicate 21 8).map segfault) =
    .restart abend := ⟨⟨8, 20⟩, by decide +kernel⟩

/-- Why the monitor stops with some status, by the fate of the last child: it could not be
forked; or it has exited, and the status is its own; or it was shut down; or it aborted, and in
the five seconds before that there were twenty aborts in a row after yet another one, or after
the start of the monitor. -/
def StopReason (start : ℤ) (before : List Round) (status : ℕ) : Fate → Prop
  | .notForked => status = exitFailure
  | .exited status' => status = status'
  | .shutDown => status = exitSuccess
  | .aborted now => status = exitFailure ∧
      ∃ early x between, start :: abortTimes before = early ++ x :: between ∧
        20 ≤ between.length ∧ now - x < 5
  | .running => False

/-- **Why the monitor stops.** All children before the last one aborted, and the last one gives
a reason to stop. -/
theorem monitor_stopped (start : ℤ) (rounds : List Round) (status : ℕ)
    (h : monitor start rounds = .stop status) :
    ∃ before r after, rounds = before ++ r :: after ∧
      (∀ r' ∈ before, ∃ now, r'.fate = .aborted now) ∧
      StopReason start before status r.fate := by
  obtain ⟨before, r, after, abend, hsplit, hbefore, hend⟩ := monitorLoop_stop h
  obtain ⟨hfates, hsurv⟩ := (monitorLoop_restart_iff _ before).mp ⟨abend, hbefore⟩
  refine ⟨before, r, after, hsplit, hfates, ?_⟩
  cases hfate : r.fate with
  | notForked =>
      rw [hfate] at hend
      cases hend
      rfl
  | exited status' =>
      rw [hfate] at hend
      cases hend
      rfl
  | shutDown =>
      rw [hfate] at hend
      cases hend
      rfl
  | running =>
      rw [hfate] at hend
      cases hend
  | aborted now =>
      -- the round was not restarted, so the abort is one that the window does not tolerate
      have htimes : abortTimes (before ++ [r]) = abortTimes before ++ [now] := by
        simp [abortTimes, hfate, Fate.abort]
      have hnot : ¬ survives 5 20 { opened := start, count := 0 } (abortTimes before ++ [now]) =
          true := by
        rw [← htimes]
        intro hall
        have hfates' : ∀ r' ∈ before ++ [r], ∃ now, r'.fate = .aborted now := by
          intro r' hr'
          rcases List.mem_append.mp hr' with hr' | hr'
          · exact hfates r' hr'
          · exact ⟨now, List.mem_singleton.mp hr' ▸ hfate⟩
        obtain ⟨abend', hrun⟩ := (monitorLoop_restart_iff _ (before ++ [r])).mpr ⟨hfates', hall⟩
        rw [monitorLoop_append hbefore, monitorLoop_cons, hend] at hrun
        cases hrun
      rw [hfate, Fate.roundEnd, monitorAbend_eq] at hend
      split_ifs at hend with hcount
      cases hend
      exact ⟨rfl, burst_of_not_survives hsurv hnot⟩

theorem monitor_stopped_exit :
    ∃ before r after, [segfault 1, .forked [(.child (.exited 3), 2)], segfault 9] =
        before ++ r :: after ∧
      (∀ r' ∈ before, ∃ now, r'.fate = .aborted now) ∧ StopReason 0 before 3 r.fate :=
  monitor_stopped 0 _ 3 (by decide)

end XGrey
