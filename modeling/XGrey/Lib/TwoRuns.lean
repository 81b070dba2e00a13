import XGrey.Lib.CRuntime
import XGrey.Lib.StepRun

/-!
# Two Computations

The comparison of two computations that may fail: both fail in the same way, or both
succeed with results that are related (`Related`). A law of the form "this part of the
input does not influence the outcome" says so of one function on two inputs.

The rules follow the shape of the two computations, which is mostly the same;
`Related.bind` is the one for a sequence. `related_run` is the one for two runs, one of which
is fed with inputs that have something taken out, and `run_simulates` the one for a run and that
of an abstract machine that goes along with it.
-/

namespace CRuntime

universe u

variable {ε : Type*} {α β α' β' : Type u}

/-- The two computations fail in the same way, or succeed with related results. -/
inductive Related (R : α → β → Prop) : Except ε α → Except ε β → Prop
  | ok {a : α} {b : β} (h : R a b) : Related R (.ok a) (.ok b)
  | error (e : ε) : Related R (.error e) (.error e)

variable {R : α → β → Prop} {S : α' → β' → Prop} {x : Except ε α} {y : Except ε β}
  {f : α → Except ε α'} {g : β → Except ε β'}

/-- **The rule for a sequence.** -/
theorem Related.bind (h : Related R x y) (hf : ∀ a b, R a b → Related S (f a) (g b)) :
    Related S (x >>= f) (y >>= g) := by
  cases h with
  | ok hab => exact hf _ _ hab
  | error e => exact .error e

/-- A sequence that begins in the same way. -/
theorem related_bind_same {x : Except ε α} {f : α → Except ε α'} {g : α → Except ε β'}
    (hf : ∀ a, Related S (f a) (g a)) : Related S (x >>= f) (x >>= g) := by
  cases x with
  | ok a => exact hf a
  | error e => exact .error e

/-- Two results. -/
theorem related_ok_iff {a : α} {b : β} :
    Related R (.ok a : Except ε α) (.ok b) ↔ R a b := by
  constructor
  · rintro ⟨h⟩
    exact h
  · exact .ok

/-- A result and a failure. -/
theorem not_related_ok_error {a : α} {e : ε} :
    ¬ Related R (.ok a : Except ε α) (.error e) := by
  rintro ⟨⟩

/-! ### Two runs -/

/-- The outputs of two runs are related one by one, in a way that depends on the input. -/
inductive AnswersRelated {ι : Type*} {ο ο' : Type u} (Q : ι → ο → ο' → Prop) :
    List ι → List ο → List ο' → Prop
  | nil : AnswersRelated Q [] [] []
  | cons {i : ι} {is : List ι} {o : ο} {os : List ο} {o' : ο'} {os' : List ο'} (h : Q i o o')
      (hrest : AnswersRelated Q is os os') : AnswersRelated Q (i :: is) (o :: os) (o' :: os')

/-- **The rule for two runs.** If from related states every step is related to the step on the
masked input, then so is every run to the run on the masked inputs. -/
theorem related_run {ι κ : Type*} {σ τ ο ο' : Type u} {step : σ → ι → Except ε (σ × ο)}
    {step' : τ → κ → Except ε (τ × ο')} {mask : ι → κ} {R : σ → τ → Prop}
    {Q : ι → ο → ο' → Prop} {good : ι → Prop}
    (hstep : ∀ s t i, R s t → good i →
      Related (fun r r' => R r.1 r'.1 ∧ Q i r.2 r'.2) (step s i) (step' t (mask i)))
    {s : σ} {t : τ} {is : List ι} (h : R s t) (hgood : ∀ i ∈ is, good i) :
    Related (fun r r' => R r.1 r'.1 ∧ AnswersRelated Q is r.2 r'.2) (StepRun.run step s is)
      (StepRun.run step' t (is.map mask)) := by
  induction is generalizing s t with
  | nil => exact .ok ⟨h, .nil⟩
  | cons i is ih =>
      obtain ⟨hi, hrest⟩ := List.forall_mem_cons.mp hgood
      rw [List.map_cons, StepRun.run, StepRun.run]
      refine (hstep s t i h hi).bind fun r r' hr => ?_
      refine (ih hr.1 hrest).bind fun q q' hq => ?_
      exact .ok ⟨hq.1, .cons hr.2 hq.2⟩

/-- **The rule for a simulation.** If every admissible step that succeeds is matched by the step of
an abstract machine, then so is every run of such steps that succeeds, output by output. -/
theorem run_simulates {ι τ : Type*} {σ ο ο' : Type u} {step : σ → ι → Except ε (σ × ο)}
    {astep : τ → ι → τ × ο'} {R : σ → τ → Prop} {Q : ι → ο → ο' → Prop} {good : τ → ι → Prop}
    (hstep : ∀ s a i s' o, R s a → good a i → step s i = .ok (s', o) →
      R s' (astep a i).1 ∧ Q i o (astep a i).2)
    {s t : σ} {a : τ} {is : List ι} {os : List ο} (h : R s a)
    (hal : StepRun.AlongTotal astep good a is) (hrun : StepRun.run step s is = .ok (t, os)) :
    R t (StepRun.runTotal astep a is).1 ∧
      AnswersRelated Q is os (StepRun.runTotal astep a is).2 := by
  induction is generalizing s a os with
  | nil =>
      cases hrun
      exact ⟨h, .nil⟩
  | cons i is ih =>
      obtain ⟨hgood, hal⟩ := hal
      obtain ⟨s', o, os', hok, hrest, rfl⟩ := StepRun.run_cons_inv hrun
      obtain ⟨hR, hQ⟩ := hstep s a i s' o h hgood hok
      obtain ⟨ht, hQs⟩ := ih hR hal hrest
      exact ⟨ht, .cons hQ hQs⟩

end CRuntime
