import Mathlib.Order.Basic

/-!
# Runs of a Step Function

A program that handles one input after the other is a step function from a state and an
input to the next state and an output, or to an error that ends the run. This module
iterates such a function (`run`) and proves the rules by which a fact about one step
becomes a fact about every run:

* `run_safe`: if every admissible step keeps an invariant or fails in an allowed way, then
  so does every run whose steps are all admissible.
* `run_invariant`: an invariant that every admissible step keeps holds after every such run
  that succeeds.
* `run_history`: an invariant that relates the inputs so far to the state.
* `run_le_iff`: a measure that no step decreases stays the same over a run exactly if every
  step keeps it.
* `run_refines`: if each admissible step of an abstract total machine is matched by a
  step of the program with the same output, then so is every run.

Which steps are admissible may depend on the state in which they are taken (`Along`).
-/

namespace StepRun

universe u

variable {σ τ ι ο ε : Type*}

/-- Feed a list of inputs to a step function, collecting the outputs in order. The first
failing step ends the run. -/
def run (step : σ → ι → Except ε (σ × ο)) : σ → List ι → Except ε (σ × List ο)
  | s, [] => .ok (s, [])
  | s, i :: is => do
      let (s', o) ← step s i
      let (s'', os) ← run step s' is
      .ok (s'', o :: os)

/-- Feed a list of inputs to a total machine. -/
def runTotal (step : τ → ι → τ × ο) : τ → List ι → τ × List ο
  | a, [] => (a, [])
  | a, i :: is =>
      let r := runTotal step (step a i).1 is
      (r.1, (step a i).2 :: r.2)

/-- Every step of the run from `s` on the inputs meets `good` in the state in which it is
taken. -/
def Along (step : σ → ι → Except ε (σ × ο)) (good : σ → ι → Prop) : σ → List ι → Prop
  | _, [] => True
  | s, i :: is => good s i ∧ ∀ s' o, step s i = .ok (s', o) → Along step good s' is

/-- Every step of the run of a total machine meets `good` in the state in which it is
taken. -/
def AlongTotal (step : τ → ι → τ × ο) (good : τ → ι → Prop) : τ → List ι → Prop
  | _, [] => True
  | a, i :: is => good a i ∧ AlongTotal step good (step a i).1 is

/-- The states of a run, from the first one to the one in which it ends. -/
def states (step : σ → ι → Except ε (σ × ο)) : σ → List ι → List σ
  | s, [] => [s]
  | s, i :: is => s :: match step s i with
      | .ok (s', _) => states step s' is
      | .error _ => []

variable {step : σ → ι → Except ε (σ × ο)}

theorem states_cons_of_ok {s s' : σ} {i : ι} {o : ο} (is : List ι)
    (h : step s i = .ok (s', o)) : states step s (i :: is) = s :: states step s' is := by
  rw [states, h]

/-- A run whose first step succeeds goes on from the next state. -/
theorem run_cons_of_ok {s s' : σ} {i : ι} {o : ο} (is : List ι)
    (h : step s i = .ok (s', o)) :
    run step s (i :: is) = (run step s' is).map fun r => (r.1, o :: r.2) := by
  rw [run, h]
  change (run step s' is).bind _ = _
  cases run step s' is <;> rfl

/-- A run whose first step fails is that failure. -/
theorem run_cons_of_error {s : σ} {i : ι} {e : ε} (is : List ι)
    (h : step s i = .error e) : run step s (i :: is) = .error e := by
  rw [run, h]
  rfl

/-- Inversion of a successful nonempty run. -/
theorem run_cons_inv {s t : σ} {i : ι} {is : List ι} {os : List ο}
    (h : run step s (i :: is) = .ok (t, os)) :
    ∃ s' o os', step s i = .ok (s', o) ∧ run step s' is = .ok (t, os') ∧ os = o :: os' := by
  cases hs : step s i with
  | error e =>
      rw [run_cons_of_error is hs] at h
      cases h
  | ok r =>
      obtain ⟨s', o⟩ := r
      rw [run_cons_of_ok is hs] at h
      cases hr : run step s' is with
      | error e =>
          rw [hr] at h
          cases h
      | ok r =>
          obtain ⟨t', os'⟩ := r
          rw [hr] at h
          cases h
          exact ⟨s', o, os', rfl, hr, rfl⟩

/-- A run has one output for each input. -/
theorem length_run {s t : σ} {is : List ι} {os : List ο} (h : run step s is = .ok (t, os)) :
    os.length = is.length := by
  induction is generalizing s os with
  | nil =>
      cases h
      rfl
  | cons i is ih =>
      obtain ⟨s', o, os', -, hrest, rfl⟩ := run_cons_inv h
      rw [List.length_cons, List.length_cons, ih hrest]

/-- A run that succeeds may be continued. -/
theorem run_append_of_ok {s t : σ} {is : List ι} {os : List ο} (js : List ι)
    (h : run step s is = .ok (t, os)) :
    run step s (is ++ js) = (run step t js).map fun r => (r.1, os ++ r.2) := by
  induction is generalizing s os with
  | nil =>
      cases h
      rw [List.nil_append]
      cases run step t js <;> rfl
  | cons i is ih =>
      obtain ⟨s', o, os', hok, hrest, rfl⟩ := run_cons_inv h
      rw [List.cons_append, run_cons_of_ok _ hok, ih hrest]
      cases run step t js <;> rfl

/-- **The safety rule.** If from every state that satisfies the invariant every admissible
step keeps it or ends the run with an allowed error, then so does a run of admissible
steps. -/
theorem run_safe {Inv : σ → Prop} {good : σ → ι → Prop} {allowed : ε → Prop}
    (hstep : ∀ s i, Inv s → good s i →
      (∃ s' o, step s i = .ok (s', o) ∧ Inv s') ∨ ∃ e, step s i = .error e ∧ allowed e)
    {s : σ} {is : List ι} (hs : Inv s) (hal : Along step good s is) :
    (∃ t os, run step s is = .ok (t, os) ∧ Inv t) ∨
      ∃ e, run step s is = .error e ∧ allowed e := by
  induction is generalizing s with
  | nil => exact Or.inl ⟨s, [], rfl, hs⟩
  | cons i is ih =>
      obtain ⟨hgood, hrest⟩ := hal
      rcases hstep s i hs hgood with ⟨s', o, hok, hs'⟩ | ⟨e, herror, hallowed⟩
      · rcases ih hs' (hrest s' o hok) with ⟨t, os, hrun, ht⟩ | ⟨e, hrun, hallowed⟩
        · refine Or.inl ⟨t, o :: os, ?_, ht⟩
          rw [run_cons_of_ok is hok, hrun]
          rfl
        · refine Or.inr ⟨e, ?_, hallowed⟩
          rw [run_cons_of_ok is hok, hrun]
          rfl
      · exact Or.inr ⟨e, run_cons_of_error is herror, hallowed⟩

/-- The beginning of a run of admissible steps consists of admissible steps. -/
theorem Along.of_append {good : σ → ι → Prop} {s : σ} {is js : List ι}
    (h : Along step good s (is ++ js)) : Along step good s is := by
  induction is generalizing s with
  | nil => trivial
  | cons i is ih => exact ⟨h.1, fun s' o hok => ih (h.2 s' o hok)⟩

/-- Admissibility may be weakened. -/
theorem Along.mono {good good' : σ → ι → Prop} (hgood : ∀ s i, good s i → good' s i) {s : σ}
    {is : List ι} (h : Along step good s is) : Along step good' s is := by
  induction is generalizing s with
  | nil => trivial
  | cons i is ih => exact ⟨hgood s i h.1, fun s' o hok => ih (h.2 s' o hok)⟩

/-- Whether a run is admissible is found out by running it. -/
instance decidableAlong {good : σ → ι → Prop} [∀ s i, Decidable (good s i)] :
    ∀ s is, Decidable (Along step good s is)
  | _, [] => isTrue trivial
  | s, i :: is =>
      match hok : step s i with
      | .ok (s', _) =>
          have : Decidable (Along step good s' is) := decidableAlong s' is
          decidable_of_iff (good s i ∧ Along step good s' is) (by simp [Along, hok])
      | .error _ => decidable_of_iff (good s i) (by simp [Along, hok])

/-- **The invariant rule** for runs that are known to succeed. -/
theorem run_invariant {Inv : σ → Prop} {good : σ → ι → Prop}
    (hstep : ∀ s i s' o, Inv s → good s i → step s i = .ok (s', o) → Inv s')
    {s t : σ} {is : List ι} {os : List ο} (hs : Inv s) (hal : Along step good s is)
    (hrun : run step s is = .ok (t, os)) : Inv t := by
  induction is generalizing s os with
  | nil =>
      cases hrun
      exact hs
  | cons i is ih =>
      obtain ⟨s', o, os', hok, hrest, rfl⟩ := run_cons_inv hrun
      exact ih (hstep s i s' o hs hal.1 hok) (hal.2 s' o hok) hrest

/-- **The rule for invariants about the past**: one that relates the inputs so far to the
state, and that every step keeps, holds at the end of every run. -/
theorem run_history {Inv : List ι → σ → Prop}
    (hstep : ∀ past s i s' o, Inv past s → step s i = .ok (s', o) → Inv (past ++ [i]) s')
    {past is : List ι} {s t : σ} {os : List ο} (hs : Inv past s)
    (hrun : run step s is = .ok (t, os)) : Inv (past ++ is) t := by
  induction is generalizing past s os with
  | nil =>
      cases hrun
      rwa [List.append_nil]
  | cons i is ih =>
      obtain ⟨s', o, os', hok, hrest, rfl⟩ := run_cons_inv hrun
      have h := ih (hstep past s i s' o hs hok) hrest
      rwa [List.append_assoc, List.singleton_append] at h

/-- Every run consists of steps that meet the trivial condition. -/
theorem along_of_forall {good : σ → ι → Prop} (h : ∀ s i, good s i) (s : σ)
    (is : List ι) : Along step good s is := by
  induction is generalizing s with
  | nil => trivial
  | cons i is ih => exact ⟨h s i, fun s' _ _ => ih s'⟩

/-- So does every run of steps of which each meets a condition on the step alone. -/
theorem along_of_mem {good : ι → Prop} {is : List ι} (h : ∀ i ∈ is, good i) (s : σ) :
    Along step (fun _ => good) s is := by
  induction is generalizing s with
  | nil => trivial
  | cons i is ih =>
      obtain ⟨hi, hrest⟩ := List.forall_mem_cons.mp h
      exact ⟨hi, fun s' _ _ => ih hrest s'⟩

/-- **The rule for a measure** that no step decreases: over a run it stays the same exactly
if every step keeps it. -/
theorem run_le_iff {α : Type*} [PartialOrder α] {f : σ → α} {Inv : σ → Prop}
    {good : σ → ι → Prop}
    (hstep : ∀ s i s' o, Inv s → step s i = .ok (s', o) →
      Inv s' ∧ f s ≤ f s' ∧ (f s = f s' ↔ good s i))
    {s t : σ} {is : List ι} {os : List ο} (hs : Inv s) (hrun : run step s is = .ok (t, os)) :
    f s ≤ f t ∧ (f s = f t ↔ Along step good s is) := by
  induction is generalizing s os with
  | nil =>
      cases hrun
      exact ⟨le_refl _, fun _ => trivial, fun _ => rfl⟩
  | cons i is ih =>
      obtain ⟨s', o, os', hok, hrest, rfl⟩ := run_cons_inv hrun
      obtain ⟨hs', hle, hiff⟩ := hstep s i s' o hs hok
      obtain ⟨hle', hiff'⟩ := ih hs' hrest
      refine ⟨hle.trans hle', fun heq => ?_, fun ⟨hgood, halong⟩ => ?_⟩
      · have hfirst : f s = f s' := le_antisymm hle (heq ▸ hle')
        refine ⟨hiff.mp hfirst, fun s₁ o₁ hok₁ => ?_⟩
        rw [hok] at hok₁
        cases hok₁
        exact hiff'.mp (hfirst ▸ heq)
      · exact (hiff.mpr hgood).trans (hiff'.mpr (halong s' o hok))

/-- A loop is a run without outputs. -/
theorem run_of_foldlM {σ : Type u} {g : σ → ι → Except ε σ} {s t : σ} {is : List ι}
    (h : is.foldlM g s = .ok t) :
    run (fun s i => (g s i).map fun s' => (s', ())) s is = .ok (t, is.map fun _ => ()) := by
  induction is generalizing s with
  | nil =>
      cases h
      rfl
  | cons i is ih =>
      rw [List.foldlM_cons] at h
      cases hg : g s i with
      | error e =>
          rw [hg] at h
          cases h
      | ok s' =>
          rw [hg] at h
          have hstep : (g s i).map (fun t => (t, ())) = .ok (s', ()) := by
            rw [hg]
            rfl
          rw [run_cons_of_ok is hstep, ih h]
          rfl

/-- **The refinement rule.** If every admissible step of the abstract machine is matched
by a step of the program with the same output and related next states, then a run of
admissible steps is matched by a run of the program with the same outputs. -/
theorem run_refines {astep : τ → ι → τ × ο} {R : σ → τ → Prop} {good : τ → ι → Prop}
    (hstep : ∀ s a i, R s a → good a i →
      ∃ s', step s i = .ok (s', (astep a i).2) ∧ R s' (astep a i).1)
    {s : σ} {a : τ} {is : List ι} (hR : R s a) (hal : AlongTotal astep good a is) :
    ∃ t, run step s is = .ok (t, (runTotal astep a is).2) ∧
      R t (runTotal astep a is).1 := by
  induction is generalizing s a with
  | nil => exact ⟨s, rfl, hR⟩
  | cons i is ih =>
      obtain ⟨hgood, hrest⟩ := hal
      obtain ⟨s', hok, hR'⟩ := hstep s a i hR hgood
      obtain ⟨t, hrun, ht⟩ := ih hR' hrest
      refine ⟨t, ?_, ht⟩
      rw [run_cons_of_ok is hok, hrun]
      rfl

end StepRun
