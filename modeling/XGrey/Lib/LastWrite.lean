import Mathlib.Data.List.Destutter
import XGrey.Lib.StepRun

/-!
# The Last Write

A program whose state is read under keys, and each of whose inputs writes the value of one key
or none. What is read under a key after a run is what was last written for it (`run_lastWrite`), or
what was written by the entries of a log that the program keeps (`run_lastWrite_log`). So it does
not matter in which order the inputs for different keys come, what else comes in between, and
whether an input for a key comes again before the next one for that key (`lastWrite_congr`).
-/

namespace LastWrite

open StepRun

universe u

variable {κ ν ι : Type*} [DecidableEq κ] (write : ι → Option (κ × ν))

/-- What an input writes for a key. -/
def written (i : ι) (k : κ) : Option ν :=
  (write i).bind fun w => if w.1 = k then some w.2 else none

/-- The last value that some inputs write for a key. -/
def lastWrite : List ι → κ → Option ν
  | [], _ => none
  | i :: is, k => (lastWrite is k).or (written write i k)

variable {write}

/-- All that some inputs write for a key, in their order. -/
def writesTo (write : ι → Option (κ × ν)) (is : List ι) (k : κ) : List ν :=
  is.filterMap fun i => written write i k

theorem lastWrite_eq_getLast? (is : List ι) (k : κ) :
    lastWrite write is k = (writesTo write is k).getLast? := by
  induction is with
  | nil => rfl
  | cons i is ih =>
      rw [lastWrite, ih, writesTo, writesTo, List.filterMap_cons]
      cases written write i k with
      | none => exact Option.or_none
      | some v =>
          rw [List.getLast?_cons]
          cases (is.filterMap fun i => written write i k).getLast? <;> rfl

/-- What is left of a list without its repetitions ends like the list. -/
theorem getLast?_destutter [DecidableEq ν] (l : List ν) :
    (l.destutter (· ≠ ·)).getLast? = l.getLast? := by
  cases l with
  | nil => rfl
  | cons v l =>
      rw [List.destutter_cons']
      induction l generalizing v with
      | nil => rfl
      | cons v' l ih =>
          by_cases hv : v ≠ v'
          · rw [List.destutter'_cons_pos l hv, List.getLast?_cons_cons,
              List.getLast?_cons_of_ne_nil (List.destutter'_ne_nil _ _), ih]
          · rw [List.destutter'_cons_neg l hv, ih, not_not.mp hv, List.getLast?_cons_cons]

/-- **Reordering and repetition.** Two lists of inputs that write the same for every key, one after
the other and up to repetitions, end with the same writes. -/
theorem lastWrite_congr [DecidableEq ν] {is js : List ι}
    (h : ∀ k, (writesTo write is k).destutter (· ≠ ·) = (writesTo write js k).destutter (· ≠ ·)) :
    lastWrite write is = lastWrite write js := by
  funext k
  rw [lastWrite_eq_getLast?, lastWrite_eq_getLast?, ← getLast?_destutter, h k, getLast?_destutter]

/-- **The rule for runs with a log.** If every step changes what is read under the keys by what its
entry of the log writes, then what is read after a run is what the log wrote last. -/
theorem run_lastWrite_log {σ ι ο ε α : Type*} {step : σ → ι → Except ε (σ × ο)}
    (entry : ι → ο → α) {write : α → Option (κ × ν)} {obs : σ → κ → ν} {Inv : σ → Prop}
    {good : α → Prop}
    (hstep : ∀ s i s' o, Inv s → good (entry i o) → step s i = .ok (s', o) →
      Inv s' ∧ ∀ k, obs s' k = (written write (entry i o) k).getD (obs s k))
    {s t : σ} {is : List ι} {os : List ο} (hs : Inv s)
    (hgood : ∀ a ∈ List.zipWith entry is os, good a) (hrun : run step s is = .ok (t, os)) (k : κ) :
    obs t k = (lastWrite write (List.zipWith entry is os) k).getD (obs s k) := by
  induction is generalizing s os with
  | nil =>
      cases hrun
      rfl
  | cons i is ih =>
      obtain ⟨s', o, os', hok, hrun', rfl⟩ := run_cons_inv hrun
      rw [List.zipWith_cons_cons] at hgood ⊢
      obtain ⟨hi, hrest⟩ := List.forall_mem_cons.mp hgood
      obtain ⟨hs', hobs⟩ := hstep s i s' o hs hi hok
      rw [ih hs' hrest hrun', hobs, lastWrite]
      cases lastWrite write (List.zipWith entry is os') k with
      | none => rw [Option.none_or, Option.getD_none]
      | some v => rfl

/-- **The rule for runs.** If every step changes what is read under the keys by what its input
writes, then what is read after a run is what was written last. -/
theorem run_lastWrite {σ ο ε : Type*} {step : σ → ι → Except ε (σ × ο)} {obs : σ → κ → ν}
    {Inv : σ → Prop} {good : ι → Prop}
    (hstep : ∀ s i s' o, Inv s → good i → step s i = .ok (s', o) →
      Inv s' ∧ ∀ k, obs s' k = (written write i k).getD (obs s k))
    {s t : σ} {is : List ι} {os : List ο} (hs : Inv s) (hgood : ∀ i ∈ is, good i)
    (hrun : run step s is = .ok (t, os)) (k : κ) :
    obs t k = (lastWrite write is k).getD (obs s k) := by
  have hinputs : List.zipWith (fun i _ => i) is os = is := by
    rw [← List.map_uncurry_zip_eq_zipWith]
    exact List.map_fst_zip (length_run hrun).ge
  have hlog := run_lastWrite_log (fun i _ => i) hstep hs (hinputs.symm ▸ hgood) hrun k
  rwa [hinputs] at hlog

end LastWrite
