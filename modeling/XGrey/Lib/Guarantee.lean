import XGrey.Lib.CRuntime
import XGrey.Lib.StepRun

/-!
# Guarantees

What is known of a computation without knowing whether it succeeds: if it does, its result
has some property, and if it fails, it fails in a way that is allowed (`Guarantees`). The
rules follow the shape of the computation; `guarantees_foldlM` and `run_guarantees` are
the ones for loops and for runs, with an invariant.

The set of allowed faults is what such a statement is mostly for: a computation that
guarantees anything at all while only other faults are allowed cannot go wrong in the way
that is left out.
-/

open StepRun

namespace CRuntime

universe u

variable {ε : Type*} {α β : Type u}

/-- The result of a computation has a property, or the computation fails in an allowed
way. -/
structure Guarantees (x : Except ε α) (post : α → Prop) (allowed : ε → Prop) : Prop where
  ok : ∀ a, x = .ok a → post a
  error : ∀ e, x = .error e → allowed e

variable {x : Except ε α} {f : α → Except ε β} {post mid : α → Prop} {post' : β → Prop}
  {allowed : ε → Prop}

/-- A result. -/
theorem guarantees_ok {a : α} (h : post a) :
    Guarantees (.ok a : Except ε α) post allowed where
  ok _ ha := by
    cases ha
    exact h
  error _ he := by cases he

/-- A failure. -/
theorem guarantees_error {e : ε} (h : allowed e) :
    Guarantees (.error e : Except ε α) post allowed where
  ok _ ha := by cases ha
  error _ he := by
    cases he
    exact h

/-- A computation that fails in allowed ways only. -/
theorem guarantees_self (h : ∀ e, x = .error e → allowed e) :
    Guarantees x (fun a => x = .ok a) allowed where
  ok _ ha := ha
  error := h

/-- The two outcomes. -/
theorem Guarantees.cases (h : Guarantees x post allowed) :
    (∃ a, x = .ok a ∧ post a) ∨ ∃ e, x = .error e ∧ allowed e := by
  cases hx : x with
  | ok a => exact Or.inl ⟨a, rfl, h.ok a hx⟩
  | error e => exact Or.inr ⟨e, rfl, h.error e hx⟩

/-- **The rule for a sequence.** -/
theorem Guarantees.bind (hx : Guarantees x mid allowed)
    (hf : ∀ a, mid a → Guarantees (f a) post' allowed) :
    Guarantees (x >>= f) post' allowed := by
  rcases hx.cases with ⟨a, rfl, ha⟩ | ⟨e, rfl, he⟩
  · exact hf a ha
  · exact guarantees_error he

/-- A guarantee may be weakened. -/
theorem Guarantees.mono (hx : Guarantees x mid allowed) (h : ∀ a, mid a → post a) :
    Guarantees x post allowed where
  ok a ha := h a (hx.ok a ha)
  error := hx.error

/-- An assertion that passes holds, unless it is not compiled in. -/
theorem guarantees_cassert {allowed : Fault → Prop} (ha : allowed .assertion) (ndebug : Bool)
    (p : Prop) [Decidable p] :
    Guarantees (cassert ndebug p) (fun _ => ndebug = true ∨ p) allowed := by
  rw [cassert]
  split_ifs with h
  · exact guarantees_ok h
  · exact guarantees_error ha

/-- What is known of the result alone, however the computation may fail. -/
abbrev Ensures (x : Except ε α) (post : α → Prop) : Prop := Guarantees x post fun _ => True

/-- A result is one that the computation has. -/
theorem ensures_self (x : Except ε α) : Ensures x fun a => x = .ok a :=
  guarantees_self fun _ _ => trivial

/-- **The rule for a loop.** -/
theorem guarantees_foldlM {σ : Type u} {ι : Type*} {Inv : σ → Prop} {g : σ → ι → Except ε σ}
    {is : List ι} (hstep : ∀ s, ∀ i ∈ is, Inv s → Guarantees (g s i) Inv allowed) {s : σ}
    (hs : Inv s) : Guarantees (is.foldlM g s) Inv allowed := by
  induction is generalizing s with
  | nil => exact guarantees_ok hs
  | cons i is ih =>
      rw [List.foldlM_cons]
      refine (hstep s i List.mem_cons_self hs).bind fun s' hs' => ?_
      exact ih (fun t j hj => hstep t j (List.mem_cons_of_mem _ hj)) hs'

/-- **The rule for a run.** -/
theorem run_guarantees {σ ι ο : Type*} {step : σ → ι → Except ε (σ × ο)} {Inv : σ → Prop}
    {good : σ → ι → Prop}
    (hstep : ∀ s i, Inv s → good s i → Guarantees (step s i) (fun r => Inv r.1) allowed)
    {s : σ} {is : List ι} (hs : Inv s) (hal : Along step good s is) :
    Guarantees (run step s is) (fun r => Inv r.1) allowed := by
  have hsafe : ∀ s i, Inv s → good s i →
      (∃ s' o, step s i = .ok (s', o) ∧ Inv s') ∨ ∃ e, step s i = .error e ∧ allowed e := by
    intro s i hInv hgood
    rcases (hstep s i hInv hgood).cases with ⟨⟨s', o⟩, hok, hs'⟩ | herror
    · exact Or.inl ⟨s', o, hok, hs'⟩
    · exact Or.inr herror
  rcases run_safe hsafe hs hal with ⟨t, os, hrun, ht⟩ | ⟨e, hrun, he⟩
  · exact hrun ▸ guarantees_ok ht
  · exact hrun ▸ guarantees_error he

end CRuntime
