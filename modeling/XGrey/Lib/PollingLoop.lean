import Mathlib.Data.List.Count
import Mathlib.Logic.Function.Basic
import XGrey.Lib.StepRun

/-!
# Loops that Poll Flags

A program whose signal handlers do nothing but set a flag polls the flags in its main loop. A
round of the loop checks them one after the other, and then the program does one piece of its
work, for which it may have to wait. A flag may be set at any time, also between two checks, and
it is cleared when the check finds it set: two signals that come before the same check are
handled as one.

What a step of such a program does to the loop is `LoopStep`. Everything else that it does is
left to the program.

## Main results

* `run_handled_le`: nothing is handled more often than it was raised.
* `run_worked_le`: from the moment at which a flag is set, the program finishes at most one piece
  of work before it handles it.
-/

open StepRun

namespace PollingLoop

variable {α : Type*} [DecidableEq α]

/-- The flags, and the checks that are left of the current round. -/
structure Loop (α : Type*) where
  pending : α → Bool
  todo : List α

/-- What the next statement of the loop came to. -/
inductive Mark (α : Type*)
  /-- a check of a flag that was not set, or no statement at all -/
  | idle
  | handled (a : α)
  /-- the work at the end of a round -/
  | worked
  deriving DecidableEq

namespace Loop

/-- A flag is set. -/
def raise (l : Loop α) (a : α) : Loop α :=
  { l with pending := Function.update l.pending a true }

@[simp] theorem pending_raise (l : Loop α) (a : α) : (l.raise a).pending a = true := by
  simp [raise]

/-- The next statement. Behind the last check comes the work, and then the checks of the next
round, in their order. -/
def turn (order : List α) (l : Loop α) : Loop α × Mark α :=
  match l.todo with
  | [] => ({ l with todo := order }, .worked)
  | a :: todo =>
      if l.pending a then
        ({ pending := Function.update l.pending a false, todo := todo }, .handled a)
      else ({ l with todo := todo }, .idle)

theorem turn_nil {order : List α} {l : Loop α} (h : l.todo = []) :
    l.turn order = ({ l with todo := order }, .worked) := by
  rw [turn, h]

theorem turn_pending {order todo : List α} {l : Loop α} {a : α} (h : l.todo = a :: todo)
    (hpending : l.pending a = true) : l.turn order =
      ({ pending := Function.update l.pending a false, todo := todo }, .handled a) := by
  rw [turn, h]
  exact if_pos hpending

theorem turn_clear {order todo : List α} {l : Loop α} {a : α} (h : l.todo = a :: todo)
    (hpending : ¬ l.pending a = true) :
    l.turn order = ({ l with todo := todo }, .idle) := by
  rw [turn, h]
  exact if_neg hpending

/-- How many pieces of work there are at most before the next check of a flag. -/
def distance (l : Loop α) (a : α) : ℕ := if a ∈ l.todo then 0 else 1

end Loop

/-- What one step of the program does to the loop: nothing, or it sets a flag, or it takes the
next statement. -/
inductive LoopStep (order : List α) (l : Loop α) : Option α → Loop α → Mark α → Prop
  | still (raises : Option α) : LoopStep order l raises l .idle
  | raise (a : α) : LoopStep order l (some a) (l.raise a) .idle
  | turn : LoopStep order l none (l.turn order).1 (l.turn order).2

/-! ### One step -/

section Steps

variable {order : List α} {l l' : Loop α} {raises : Option α} {mark : Mark α}

/-- What is handled was pending. -/
theorem LoopStep.handled_le (h : LoopStep order l raises l' mark) (a : α) :
    (if mark = .handled a then 1 else 0) + (l'.pending a).toNat ≤
      (if raises = some a then 1 else 0) + (l.pending a).toNat := by
  cases h with
  | still => simp
  | raise b =>
      by_cases hb : b = a
      · subst hb
        simp [Loop.raise]
      · have hb' : a ≠ b := fun hab => hb hab.symm
        simp [Loop.raise, Function.update_of_ne hb', hb]
  | turn =>
      cases htodo : l.todo with
      | nil =>
          rw [Loop.turn_nil htodo]
          simp
      | cons b todo =>
          by_cases hpending : l.pending b = true
          · rw [Loop.turn_pending htodo hpending]
            by_cases hb : b = a
            · subst hb
              simp [hpending]
            · have hb' : a ≠ b := fun hab => hb hab.symm
              simp [hb, Function.update_of_ne hb']
          · rw [Loop.turn_clear htodo hpending]
            simp

/-- What is pending stays so until it is handled, and comes closer with every piece of work. -/
theorem LoopStep.distance_le (h : LoopStep order l raises l' mark) {a : α} (ha : a ∈ order)
    (hpending : l.pending a = true) (hmark : mark ≠ .handled a) :
    l'.pending a = true ∧
      (if mark = .worked then 1 else 0) + l'.distance a ≤ l.distance a := by
  cases h with
  | still => exact ⟨hpending, by simp⟩
  | raise b =>
      refine ⟨?_, Nat.le_of_eq (Nat.zero_add _)⟩
      by_cases hb : a = b
      · rw [hb, Loop.pending_raise]
      · exact (Function.update_of_ne hb ..).trans hpending
  | turn =>
      cases htodo : l.todo with
      | nil =>
          rw [Loop.turn_nil htodo]
          exact ⟨hpending, by simp [Loop.distance, htodo, ha]⟩
      | cons b todo =>
          by_cases hset : l.pending b = true
          · rw [Loop.turn_pending htodo hset] at hmark ⊢
            have hb : a ≠ b := fun hab => hmark (hab ▸ rfl)
            refine ⟨?_, by simp [Loop.distance, htodo, hb]⟩
            exact (Function.update_of_ne hb ..).trans hpending
          · rw [Loop.turn_clear htodo hset]
            have hb : a ≠ b := fun hab => hset (hab ▸ hpending)
            exact ⟨hpending, by simp [Loop.distance, htodo, hb]⟩

end Steps

/-! ### Runs of a program -/

section Runs

variable {σ ι ο ε : Type*} {step : σ → ι → Except ε (σ × ο)} {order : List α}
  {loop : σ → Loop α} {raises : ι → Option α} {mark : ο → Mark α}

/-- How often a flag was handled. -/
def handled (a : α) (marks : List (Mark α)) : ℕ := marks.count (.handled a)

/-- How often the work was done. -/
def worked (marks : List (Mark α)) : ℕ := marks.count .worked

/-- **Nothing is handled more often** than it was raised. -/
theorem run_handled_le
    (hstep : ∀ s i s' o, step s i = .ok (s', o) →
      LoopStep order (loop s) (raises i) (loop s') (mark o))
    {s t : σ} {is : List ι} {os : List ο} (hrun : run step s is = .ok (t, os)) (a : α) :
    handled a (os.map mark) ≤
      (is.map raises).count (some a) + ((loop s).pending a).toNat := by
  suffices h : handled a (os.map mark) + ((loop t).pending a).toNat ≤
      (is.map raises).count (some a) + ((loop s).pending a).toNat by omega
  induction is generalizing s os with
  | nil =>
      cases hrun
      simp [handled]
  | cons i is ih =>
      obtain ⟨s', o, os', hok, hrest, rfl⟩ := run_cons_inv hrun
      have hfirst := (hstep s i s' o hok).handled_le a
      have hlast := ih hrest
      simp only [handled, List.map_cons, List.count_cons, beq_iff_eq] at hfirst hlast ⊢
      omega

/-- **What is pending is handled soon**: until it is, the program finishes at most one piece of
its work. -/
theorem run_worked_le
    (hstep : ∀ s i s' o, step s i = .ok (s', o) →
      LoopStep order (loop s) (raises i) (loop s') (mark o))
    {s t : σ} {is : List ι} {os : List ο} (hrun : run step s is = .ok (t, os)) {a : α}
    (ha : a ∈ order) (hpending : (loop s).pending a = true)
    (hnot : handled a (os.map mark) = 0) : worked (os.map mark) ≤ 1 := by
  suffices h : worked (os.map mark) ≤ (loop s).distance a by
    refine Nat.le_trans h ?_
    rw [Loop.distance]
    split_ifs <;> simp
  induction is generalizing s os with
  | nil =>
      cases hrun
      simp [worked]
  | cons i is ih =>
      obtain ⟨s', o, os', hok, hrest, rfl⟩ := run_cons_inv hrun
      rw [handled, List.map_cons, List.count_cons, Nat.add_eq_zero_iff] at hnot
      have hmark : mark o ≠ .handled a := by
        intro hmark
        simp [hmark] at hnot
      obtain ⟨hpending', hfirst⟩ := (hstep s i s' o hok).distance_le ha hpending hmark
      have hlast := ih hrest hpending' hnot.1
      simp only [worked, List.map_cons, List.count_cons, beq_iff_eq] at hfirst hlast ⊢
      omega

end Runs

end PollingLoop
