import Mathlib.Data.List.Perm.Basic

/-!
# The Children of the Server

The server forks children to save its state and to write reports, and reaps them in
`handle_sigchld` (`server/signals.c`): a loop over `waitpid` that is left when there are no
children any more. `waitpid` with `WNOHANG` does not fail while a child is still running, it
returns 0, and the loop has no case for that: it goes around again, and the server with it,
until the last child has ended.

The loop is written over any environment (`handleSigchld`). In the one that it is run in
here (`Family`) some children have ended and the others keep on running, and calls are
interrupted finitely often.

## Main results

* `handleSigchld_iff`: the loop reaps every child that has ended and returns exactly if no
  child is running.
-/

namespace XGrey

/-! ### The loop -/

/-- What `waitpid` says about a child. -/
inductive WaitStatus
  | exited (code : ℕ)
  | signaled (sig : ℕ)
  | stopped (sig : ℕ)
  deriving DecidableEq

/-- The errors of `waitpid`. -/
inductive Errno
  | echild | eintr | other
  deriving DecidableEq

/-- What `waitpid(-1,&status,WNOHANG)` returns. -/
inductive WaitResult
  | child (pid : ℕ) (status : WaitStatus)
  /-- 0: there are children, but none to report. -/
  | nothing
  | error (errno : Errno)
  deriving DecidableEq

/-- A line of the log, by the status that it is about. A status that was not written yet is
indeterminate. -/
structure WaitLog where
  child : ℕ
  status : Option WaitStatus
  deriving DecidableEq

/-- `handle_sigchld`, for so many rounds of its loop, with what the variable `status`
holds. If it returns, the result is what was logged. -/
def handleSigchld {σ : Type*} (waitpid : σ → WaitResult × σ) :
    ℕ → Option WaitStatus → σ → Option (List WaitLog × σ)
  | 0, _, _ => none
  | fuel + 1, status, s =>
      match waitpid s with
      | (.error .echild, s) => some ([], s)
      | (.error .eintr, s) => handleSigchld waitpid fuel status s
      | (.error .other, s) => some ([], s)
      | (.nothing, s) =>
          (handleSigchld waitpid fuel status s).map fun r => (⟨0, status⟩ :: r.1, r.2)
      | (.child pid status, s) =>
          (handleSigchld waitpid fuel (some status) s).map fun r =>
            (⟨pid, some status⟩ :: r.1, r.2)

/-! ### The environment -/

/-- The children: those that have ended, with their status, and those that are running. -/
@[ext] structure Family where
  ended : List (ℕ × WaitStatus)
  running : List ℕ
  deriving DecidableEq

/-- What the environment chooses at a call: to interrupt it, or a child that has ended. -/
inductive Choice
  | interrupt
  | index (k : ℕ)
  deriving DecidableEq

/-- `waitpid`, by what the environment chooses at each call. -/
def Family.waitpid (choice : ℕ → Choice) (s : ℕ × Family) : WaitResult × (ℕ × Family) :=
  match choice s.1 with
  | .interrupt => (.error .eintr, (s.1 + 1, s.2))
  | .index k =>
      match s.2.ended[k % s.2.ended.length]? with
      | some (pid, status) =>
          (.child pid status,
            (s.1 + 1, { s.2 with ended := s.2.ended.eraseIdx (k % s.2.ended.length) }))
      | none =>
          if s.2.running = [] then (.error .echild, (s.1 + 1, s.2))
          else (.nothing, (s.1 + 1, s.2))

/-- Calls are interrupted finitely often. -/
def FinitelyInterrupted (choice : ℕ → Choice) : Prop :=
  ∃ n, ∀ i, n ≤ i → choice i ≠ .interrupt

/-- The log of a child that was reaped. -/
def reapLog (child : ℕ × WaitStatus) : WaitLog := ⟨child.1, some child.2⟩

/-- `handle_sigchld` returns, and has reaped every child that had ended. -/
def Reaps (choice : ℕ → Choice) (w : Family) : Prop :=
  ∃ fuel log i, handleSigchld (Family.waitpid choice) fuel none (0, w) =
      some (log, (i, { w with ended := [] })) ∧ log.Perm (w.ended.map reapLog)

/-! ### Termination -/

section Termination

variable {choice : ℕ → Choice} {w : Family}

/-- A call that is interrupted. -/
theorem waitpid_interrupt {i : ℕ} (h : choice i = .interrupt) (w : Family) :
    Family.waitpid choice (i, w) = (.error .eintr, (i + 1, w)) := by
  rw [Family.waitpid, h]

/-- A call while there are children that have ended reports one of them. -/
theorem waitpid_ended {i k : ℕ} (h : choice i = .index k) (hne : w.ended ≠ []) :
    ∃ c rest, (c :: rest).Perm w.ended ∧
      Family.waitpid choice (i, w) = (.child c.1 c.2, (i + 1, { w with ended := rest })) := by
  have hlt : k % w.ended.length < w.ended.length :=
    Nat.mod_lt _ (List.length_pos_of_ne_nil hne)
  refine ⟨w.ended[k % w.ended.length], w.ended.eraseIdx (k % w.ended.length),
    List.getElem_cons_eraseIdx_perm hlt, ?_⟩
  rw [Family.waitpid, h]
  dsimp only
  rw [List.getElem?_eq_getElem hlt]

/-- Behind the last of them a call reports whether there are children at all. -/
theorem waitpid_nil {i k : ℕ} (h : choice i = .index k) (hnil : w.ended = []) :
    Family.waitpid choice (i, w) =
      (if w.running = [] then .error .echild else .nothing, (i + 1, w)) := by
  rw [Family.waitpid, h]
  dsimp only
  rw [hnil, List.getElem?_nil]
  split_ifs <;> rfl

/-- Without running children the loop comes to its end: each round uses up an interruption
or a child. -/
theorem handleSigchld_reaps {n : ℕ} (hn : ∀ i, n ≤ i → choice i ≠ .interrupt)
    (hrunning : w.running = []) (status : Option WaitStatus) (i : ℕ) :
    ∃ fuel log j, handleSigchld (Family.waitpid choice) fuel status (i, w) =
      some (log, (j, { w with ended := [] })) ∧ log.Perm (w.ended.map reapLog) := by
  induction hm : (n - i) + w.ended.length using Nat.strongRecOn
    generalizing i w status with
  | ind m ih =>
    cases hchoice : choice i with
    | interrupt =>
        have hi : i < n := by
          by_contra hle
          exact hn i (Nat.not_lt.mp hle) hchoice
        obtain ⟨fuel, log, j, hrest, hperm⟩ :=
          ih ((n - (i + 1)) + w.ended.length) (by omega) hrunning status (i + 1) rfl
        refine ⟨fuel + 1, log, j, ?_, hperm⟩
        rw [handleSigchld, waitpid_interrupt hchoice]
        exact hrest
    | index k =>
        by_cases hnil : w.ended = []
        · refine ⟨1, [], i + 1, ?_, by rw [hnil]; exact List.Perm.refl _⟩
          rw [handleSigchld, waitpid_nil hchoice hnil, if_pos hrunning]
          dsimp only
          rw [← hnil]
        · obtain ⟨c, rest, hpick, hcall⟩ := waitpid_ended hchoice hnil
          have hlen : w.ended.length = rest.length + 1 := hpick.length_eq.symm
          obtain ⟨fuel, log, j, hrest, hperm⟩ :=
            ih ((n - (i + 1)) + rest.length) (by omega) (w := { w with ended := rest })
              hrunning (some c.2) (i + 1) rfl
          refine ⟨fuel + 1, reapLog c :: log, j, ?_, ?_⟩
          · rw [handleSigchld, hcall]
            dsimp only
            rw [hrest]
            rfl
          · exact (hperm.cons (reapLog c)).trans (hpick.map reapLog)

/-- As long as a child is running the loop has no end. -/
theorem handleSigchld_none (hrunning : w.running ≠ []) (fuel : ℕ)
    (status : Option WaitStatus) (i : ℕ) :
    handleSigchld (Family.waitpid choice) fuel status (i, w) = none := by
  induction fuel generalizing w status i with
  | zero => rfl
  | succ fuel ih =>
      rw [handleSigchld]
      cases hchoice : choice i with
      | interrupt =>
          rw [waitpid_interrupt hchoice]
          exact ih hrunning status (i + 1)
      | index k =>
          by_cases hnil : w.ended = []
          · rw [waitpid_nil hchoice hnil, if_neg hrunning]
            dsimp only
            rw [ih hrunning status (i + 1)]
            rfl
          · obtain ⟨c, rest, -, hcall⟩ := waitpid_ended hchoice hnil
            rw [hcall]
            dsimp only
            rw [ih (w := { w with ended := rest }) hrunning (some c.2) (i + 1)]
            rfl

/-- **`handle_sigchld`** reaps the children that have ended and returns, whichever order
they are reported in, exactly if none is running. -/
theorem handleSigchld_iff (hfin : FinitelyInterrupted choice) (w : Family) :
    Reaps choice w ↔ w.running = [] := by
  constructor
  · rintro ⟨fuel, log, i, hreturns, -⟩
    by_contra hrunning
    rw [handleSigchld_none hrunning] at hreturns
    cases hreturns
  · intro hrunning
    obtain ⟨n, hn⟩ := hfin
    exact handleSigchld_reaps hn hrunning none 0

/-- A report and a state that was saved, both done. -/
theorem handleSigchld_iff_two :
    Reaps (fun _ => .index 0) ⟨[(7, .exited 0), (8, .exited 0)], []⟩ :=
  (handleSigchld_iff ⟨0, fun _ _ h => Choice.noConfusion h⟩ _).mpr rfl

/-- A report that is still being written when the state was saved: the loop does not come
back. -/
theorem handleSigchld_running :
    FinitelyInterrupted (fun _ => .index 0) ∧
      ¬ Reaps (fun _ => .index 0) ⟨[(7, .exited 0)], [8]⟩ := by
  refine ⟨⟨0, fun _ _ h => Choice.noConfusion h⟩, ?_⟩
  rintro ⟨fuel, log, i, hreturns, -⟩
  rw [handleSigchld_none (by simp)] at hreturns
  cases hreturns

end Termination

end XGrey
