import Mathlib.Data.List.Basic
import Mathlib.Data.List.Count
import Mathlib.Data.List.Nodup
import Mathlib.Order.Basic
import XGrey.Lib.ArrayShift

/-!
# Strictly Sorted Sequences

A sorted array that is searched by bisection and updated in place by shifting its tail
rests on a few facts about strictly increasing lists, collected here over any linear
order.

An insertion point for `k` is an index that separates the elements below `k` from those
above it (`SplitsAt`). It counts the elements below `k` (`SplitsAt.eq_countP`), and
inserting at it keeps the list sorted (`SplitsAt.pairwise_insert`).

The last section is about what a sweep that deletes elements does to an insertion point
found before it (`SplitsAt.filter_map`).
-/

namespace SortedSeq

open ArrayShift

variable {K : Type*} [LinearOrder K]

/-- `idx` is an insertion point for `k`: everything before it is smaller, everything from
it on is larger. -/
structure SplitsAt (k : K) (l : List K) (idx : ℕ) : Prop where
  /-- The index lies in the list or at its end. -/
  le_length : idx ≤ l.length
  /-- The elements before the index are smaller. -/
  lt : ∀ x ∈ l.take idx, x < k
  /-- The elements from the index on are larger. -/
  gt : ∀ x ∈ l.drop idx, k < x

/-- An insertion point in terms of positions. -/
theorem splitsAt_iff_getElem {k : K} {l : List K} {idx : ℕ} :
    SplitsAt k l idx ↔ idx ≤ l.length ∧ (∀ i (h : i < l.length), i < idx → l[i] < k) ∧
      ∀ i (h : i < l.length), idx ≤ i → k < l[i] := by
  constructor
  · rintro ⟨hle, hlt, hgt⟩
    refine ⟨hle, fun i h hi => hlt _ ?_, fun i h hi => hgt _ ?_⟩
    · exact List.mem_take_iff_getElem.mpr ⟨i, by omega, rfl⟩
    · exact List.mem_drop_iff_getElem.mpr ⟨i - idx, by omega, by congr 1; omega⟩
  · rintro ⟨hle, hlt, hgt⟩
    refine ⟨hle, fun x hx => ?_, fun x hx => ?_⟩
    · obtain ⟨i, hi, rfl⟩ := List.mem_take_iff_getElem.mp hx
      exact hlt i (by omega) (by omega)
    · obtain ⟨i, hi, rfl⟩ := List.mem_drop_iff_getElem.mp hx
      exact hgt (idx + i) (by omega) (by omega)

/-- An element with an insertion point is not in the list. -/
theorem SplitsAt.notMem {k : K} {l : List K} {idx : ℕ} (h : SplitsAt k l idx) :
    k ∉ l := by
  intro hk
  rw [← List.take_append_drop idx l, List.mem_append] at hk
  rcases hk with hk | hk
  · exact lt_irrefl k (h.lt k hk)
  · exact lt_irrefl k (h.gt k hk)

/-- The insertion point counts the smaller elements, so it is unique. -/
theorem SplitsAt.eq_countP {k : K} {l : List K} {idx : ℕ} (h : SplitsAt k l idx) :
    idx = l.countP (· < k) := by
  have htake : (l.take idx).countP (· < k) = idx := by
    rw [List.countP_eq_length.mpr (fun x hx => by simpa using h.lt x hx),
      List.length_take_of_le h.le_length]
  have hdrop : (l.drop idx).countP (· < k) = 0 :=
    List.countP_eq_zero.mpr (fun x hx => by simpa using le_of_lt (h.gt x hx))
  conv_rhs => rw [← List.take_append_drop idx l, List.countP_append, htake, hdrop]
  omega

/-- The insertion point is at the front exactly when nothing is smaller. -/
theorem SplitsAt.eq_zero_iff {k : K} {l : List K} {idx : ℕ} (h : SplitsAt k l idx) :
    idx = 0 ↔ ∀ x ∈ l, ¬ x < k := by
  rw [h.eq_countP, List.countP_eq_zero]
  simp only [decide_eq_true_eq]

/-- Inserting at the insertion point keeps the list strictly sorted. -/
theorem SplitsAt.pairwise_insert {k : K} {l : List K} {idx : ℕ} (h : SplitsAt k l idx)
    (hl : l.Pairwise (· < ·)) : (insertAt l idx k).Pairwise (· < ·) := by
  rw [← List.take_append_drop idx l, List.pairwise_append] at hl
  obtain ⟨htake, hdrop, hlt⟩ := hl
  rw [insertAt, List.pairwise_append, List.pairwise_cons]
  refine ⟨htake, ⟨h.gt, hdrop⟩, fun x hx y hy => ?_⟩
  rcases List.mem_cons.mp hy with rfl | hy
  · exact h.lt x hx
  · exact hlt x hx y hy

/-! ### Insertion points and deletions -/

/-- An insertion point found before some elements are deleted is still one afterwards if
no smaller element was deleted. -/
theorem SplitsAt.filter_map {α : Type*} {f : α → K} {k : K} {l : List α} {idx : ℕ}
    (h : SplitsAt k (l.map f) idx) {p : α → Bool} (hkeep : ∀ a ∈ l, f a < k → p a = true) :
    SplitsAt k ((l.filter p).map f) idx := by
  have hle : idx ≤ l.length := by simpa using h.le_length
  have htake : (l.take idx).filter p = l.take idx := by
    refine List.filter_eq_self.mpr fun a ha => hkeep a (List.mem_of_mem_take ha) ?_
    refine h.lt _ ?_
    rw [← List.map_take]
    exact List.mem_map_of_mem ha
  have hsplit : (l.filter p).map f =
      (l.take idx).map f ++ ((l.drop idx).filter p).map f := by
    conv_lhs => rw [← List.take_append_drop idx l, List.filter_append, htake, List.map_append]
  have hlen : ((l.take idx).map f).length = idx := by
    rw [List.length_map, List.length_take_of_le hle]
  rw [hsplit]
  refine ⟨by rw [List.length_append]; omega, fun x hx => h.lt x ?_, fun x hx => h.gt x ?_⟩
  · rwa [List.take_append_of_le_length (by omega), List.take_of_length_le (by omega),
      List.map_take] at hx
  · rw [List.drop_append_of_le_length (by omega), List.drop_eq_nil_of_le (by omega),
      List.nil_append] at hx
    rw [← List.map_drop]
    exact (List.filter_sublist.map f).subset hx

end SortedSeq
