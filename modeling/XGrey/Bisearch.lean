import XGrey.Lib.SortedSeq

/-!
# Binary Search

`bisearch` of `common/bisearch.c`, which looks up tuples and address rules. The array is
seen through the comparison of the key with the element at an index, so that one model
serves every array and every comparison function of the source.

## Main results

* `bisearch_spec`: on an array that is strictly sorted for the comparison, the search
  returns the index of the element equal to the key if there is one, and otherwise the
  only index at which inserting the key keeps the array sorted.
-/

open SortedSeq

namespace XGrey

/-- `bisearch__t`: the element found, as its index, and the index of the search. -/
structure Found where
  datum : Option ℕ
  idx : ℕ
  deriving DecidableEq, Repr

/-- The loop of `bisearch` over the window of `len` elements from `first` on. -/
def bisearchLoop (compare : ℕ → Ordering) (first len : ℕ) : Found :=
  if _h : len > 0 then
    let half := len / 2
    let middle := first + half
    match compare middle with
    | .gt => bisearchLoop compare (middle + 1) (len - half - 1)
    | .eq => { datum := some middle, idx := middle }
    | .lt => bisearchLoop compare first half
  else
    { datum := none, idx := first }
termination_by len
decreasing_by all_goals omega

/-- `bisearch`, where `compare i` compares the key with the element at index `i`. -/
def bisearch (compare : ℕ → Ordering) (nelem : ℕ) : Found :=
  bisearchLoop compare 0 nelem

section Spec

variable {K : Type*} [LinearOrder K] {k : K} {l : List K} {compare : ℕ → Ordering}

/-- The two ways a search of the window `[first, first + len)` of a sorted array ends. -/
theorem bisearchLoop_spec (hl : l.Pairwise (· < ·))
    (hcmp : ∀ i (h : i < l.length), (compare i).Compares k l[i]) {first len : ℕ}
    (hle : first + len ≤ l.length)
    (hlt : ∀ i (h : i < l.length), i < first → l[i] < k)
    (hgt : ∀ i (h : i < l.length), first + len ≤ i → k < l[i]) :
    (∃ i, ∃ h : i < l.length, bisearchLoop compare first len = ⟨some i, i⟩ ∧ l[i] = k) ∨
      ∃ idx, bisearchLoop compare first len = ⟨none, idx⟩ ∧ SplitsAt k l idx := by
  induction len using Nat.strongRecOn generalizing first with
  | ind len ih =>
    rw [bisearchLoop]
    split_ifs with hlen
    · have hmid : first + len / 2 < l.length := by omega
      have hc := hcmp (first + len / 2) hmid
      dsimp only
      cases hq : compare (first + len / 2) with
      | eq =>
          rw [hq] at hc
          exact Or.inl ⟨_, hmid, rfl, Eq.symm hc⟩
      | gt =>
          -- everything up to the pivot is smaller than the key
          rw [hq] at hc
          refine ih (len - len / 2 - 1) (by omega) (by omega) (fun i h hi => ?_)
            (fun i h hi => hgt i h (by omega))
          rcases Nat.lt_succ_iff_lt_or_eq.mp hi with hi | rfl
          · exact (List.pairwise_iff_getElem.mp hl _ _ h hmid hi).trans hc
          · exact hc
      | lt =>
          -- everything from the pivot on is larger than the key
          rw [hq] at hc
          refine ih (len / 2) (by omega) (by omega) hlt (fun i h hi => ?_)
          rcases Nat.lt_or_eq_of_le hi with hi | rfl
          · exact lt_trans hc (List.pairwise_iff_getElem.mp hl _ _ hmid h hi)
          · exact hc
    · refine Or.inr ⟨first, rfl, splitsAt_iff_getElem.mpr ⟨by omega, hlt, ?_⟩⟩
      exact fun i h hi => hgt i h (by omega)

/-- **Correctness of the search** on a strictly sorted array. -/
theorem bisearch_spec (hl : l.Pairwise (· < ·))
    (hcmp : ∀ i (h : i < l.length), (compare i).Compares k l[i]) :
    (∃ i, ∃ h : i < l.length, bisearch compare l.length = ⟨some i, i⟩ ∧ l[i] = k) ∨
      ∃ idx, bisearch compare l.length = ⟨none, idx⟩ ∧ SplitsAt k l idx :=
  bisearchLoop_spec hl hcmp (by omega) (fun i h hi => absurd hi (Nat.not_lt_zero i))
    (fun i h hi => absurd h (by omega))

/-- Whatever the array, an element that is reported was compared equal, at an index of
the array, and the index of the search stays within it. -/
theorem bisearchLoop_bounds (compare : ℕ → Ordering) (first len : ℕ) :
    (bisearchLoop compare first len).idx ≤ first + len ∧
      ∀ i, (bisearchLoop compare first len).datum = some i →
        (bisearchLoop compare first len).idx = i ∧ i < first + len ∧ compare i = .eq := by
  induction len using Nat.strongRecOn generalizing first with
  | ind len ih =>
    rw [bisearchLoop]
    split_ifs with hlen
    · dsimp only
      cases hq : compare (first + len / 2) with
      | eq =>
          refine ⟨by dsimp only; omega, fun i hi => ?_⟩
          obtain rfl : first + len / 2 = i := by simpa using hi
          exact ⟨rfl, by omega, hq⟩
      | gt =>
          obtain ⟨hidx, hdat⟩ := ih (len - len / 2 - 1) (by omega) (first + len / 2 + 1)
          refine ⟨by dsimp only; omega, fun i hi => ?_⟩
          obtain ⟨h1, h2, h3⟩ := hdat i hi
          exact ⟨h1, by omega, h3⟩
      | lt =>
          obtain ⟨hidx, hdat⟩ := ih (len / 2) (by omega) first
          refine ⟨by dsimp only; omega, fun i hi => ?_⟩
          obtain ⟨h1, h2, h3⟩ := hdat i hi
          exact ⟨h1, by omega, h3⟩
    · exact ⟨by dsimp only; omega, fun i hi => by simp at hi⟩

end Spec

end XGrey
