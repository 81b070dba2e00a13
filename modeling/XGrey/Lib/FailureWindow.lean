import Mathlib.Algebra.Order.Group.Defs
import Mathlib.Data.List.Count

/-!
# Counting Failures in a Window of Time

A supervisor that tolerates a number of failures within a span of time keeps two numbers: when
the current window was opened, and how many failures have fallen into it since. A failure
within the span is counted; a later one opens a new window and is not counted. The supervisor
gives up at the first failure whose count exceeds the limit (`survives`).

The windows do not slide, so the number of failures within an arbitrary stretch of that length
is not bounded by the limit.

## Main results

* `countP_le_of_survives`: a supervisor that has not given up has seen at most
  `2 * limit + 1` failures within any stretch as long as the span.
* `burst_of_not_survives`: it gives up only if `limit` failures before the last one, and one
  more or its own start, are less than the span away.

Time is any linearly ordered additive group.
-/

namespace FailureWindow

variable {T : Type*} [AddCommGroup T] [LinearOrder T]

/-- The current window: when it was opened, and the failures counted in it. -/
structure Window (T : Type*) where
  opened : T
  count : ℕ
  deriving DecidableEq

/-- A failure at some time. -/
def Window.record (width : T) (w : Window T) (t : T) : Window T :=
  if t - w.opened < width then { w with count := w.count + 1 } else { opened := t, count := 0 }

theorem Window.record_inside {width t : T} {w : Window T} (h : t - w.opened < width) :
    w.record width t = { opened := w.opened, count := w.count + 1 } := if_pos h

theorem Window.record_outside {width t : T} {w : Window T} (h : ¬ t - w.opened < width) :
    w.record width t = { opened := t, count := 0 } := if_neg h

/-- Whether all of a list of failures are tolerated. -/
def survives (width : T) (limit : ℕ) (w : Window T) : List T → Bool
  | [] => true
  | t :: ts =>
      decide ((w.record width t).count ≤ limit) && survives width limit (w.record width t) ts

theorem survives_cons {width t : T} {limit : ℕ} {w : Window T} {ts : List T} :
    survives width limit w (t :: ts) = true ↔
      (w.record width t).count ≤ limit ∧
        survives width limit (w.record width t) ts = true := by
  simp [survives]

/-! ### Many failures in a short time -/

/-- A predicate that only holds early holds nowhere in a list that comes late. -/
theorem countP_eq_zero_of_late {α : Type*} [Preorder α] {c : α} {ts : List α} {p : α → Bool}
    (hts : ∀ u ∈ ts, c ≤ u) (hp : ∀ u, p u = true → u < c) : ts.countP p = 0 := by
  rw [List.countP_eq_zero]
  intro u hu hpu
  exact absurd (hp u hpu) (not_lt_of_ge (hts u hu))

theorem countP_cons_le {α : Type*} (p : α → Bool) (t : α) (ts : List α) :
    (t :: ts).countP p ≤ ts.countP p + 1 := by
  rw [List.countP_cons]
  split <;> omega

/-- The elements of a sorted list are all as late as its head. -/
theorem forall_mem_of_sorted {α : Type*} [Preorder α] {c t : α} {ts : List α}
    (hsorted : (t :: ts).Pairwise (· ≤ ·)) (hc : c ≤ t) : ∀ u ∈ t :: ts, c ≤ u := by
  intro u hu
  rcases List.mem_cons.mp hu with rfl | hu
  · exact hc
  · exact hc.trans (List.rel_of_pairwise_cons hsorted hu)

section Bounds

variable [IsOrderedAddMonoid T] {width : T} {limit : ℕ}

/-- A failure outside the window comes after its end. -/
theorem le_of_outside {w : Window T} {t : T} (h : ¬ t - w.opened < width) :
    w.opened + width ≤ t := by
  rwa [not_lt, le_sub_iff_add_le'] at h

/-- **The failures of the current window** that are still to come do not exceed what the limit
leaves. -/
theorem countP_window {w : Window T} {ts : List T} (hsorted : ts.Pairwise (· ≤ ·))
    (hsurv : survives width limit w ts = true) (hcount : w.count ≤ limit) {p : T → Bool}
    (hp : ∀ u, p u = true → u < w.opened + width) : ts.countP p + w.count ≤ limit := by
  induction ts generalizing w with
  | nil => simpa using hcount
  | cons t ts ih =>
      obtain ⟨hle, hrest⟩ := survives_cons.mp hsurv
      by_cases hin : t - w.opened < width
      · rw [Window.record_inside hin] at hle hrest
        have htail : ts.countP p + (w.count + 1) ≤ limit := ih hsorted.of_cons hrest hle hp
        have hhead := countP_cons_le p t ts
        omega
      · rw [countP_eq_zero_of_late (forall_mem_of_sorted hsorted (le_of_outside hin)) hp,
          Nat.zero_add]
        exact hcount

/-- **The failures of the next window**, with the one that opens it, exceed the limit by one
at most. -/
theorem countP_next_window {w : Window T} {ts : List T} (hsorted : ts.Pairwise (· ≤ ·))
    (hsurv : survives width limit w ts = true) {p : T → Bool}
    (hlate : ∀ u, p u = true → w.opened + width ≤ u)
    (hearly : ∀ u, p u = true → u < w.opened + width + width) : ts.countP p ≤ limit + 1 := by
  induction ts generalizing w with
  | nil => exact Nat.zero_le _
  | cons t ts ih =>
      obtain ⟨hle, hrest⟩ := survives_cons.mp hsurv
      by_cases hin : t - w.opened < width
      · have hnot : ¬ p t = true := fun hpt =>
          not_le_of_gt (sub_lt_iff_lt_add'.mp hin) (hlate t hpt)
        rw [Window.record_inside hin] at hrest
        rw [List.countP_cons_of_neg hnot]
        exact ih hsorted.of_cons hrest hlate hearly
      · rw [Window.record_outside hin] at hrest
        have hend : w.opened + width + width ≤ t + width :=
          add_le_add_left (le_of_outside hin) width
        have htail := countP_window hsorted.of_cons hrest (Nat.zero_le _)
          fun u hu => (hearly u hu).trans_le hend
        exact (countP_cons_le p t ts).trans (Nat.succ_le_succ htail)

/-- **The rate of failures.** A supervisor that has not given up has seen at most
`2 * limit + 1` failures within any stretch of time that is as long as the span. -/
theorem countP_le_of_survives {w : Window T} {ts : List T} (hsorted : ts.Pairwise (· ≤ ·))
    (hsurv : survives width limit w ts = true) (hcount : w.count ≤ limit) (a : T) :
    ts.countP (fun t => decide (a ≤ t ∧ t < a + width)) ≤ 2 * limit + 1 := by
  induction ts generalizing w with
  | nil => exact Nat.zero_le _
  | cons t ts ih =>
      obtain ⟨hle, hrest⟩ := survives_cons.mp hsurv
      by_cases hpt : a ≤ t ∧ t < a + width
      · by_cases hin : t - w.opened < width
        · -- the stretch begins before the window ends, and ends before the next one does
          have hend : a + width ≤ w.opened + width + width :=
            add_le_add_left (hpt.1.trans (sub_lt_iff_lt_add'.mp hin).le) width
          have hlow := countP_window hsorted hsurv hcount
            (p := fun t => decide (a ≤ t ∧ t < a + width) && decide (t < w.opened + width))
            fun u hu => of_decide_eq_true ((Bool.and_eq_true _ _).mp hu).2
          have hhigh := countP_next_window hsorted hsurv
            (p := fun t => decide (a ≤ t ∧ t < a + width) && !decide (t < w.opened + width))
            (fun u hu => by simpa using ((Bool.and_eq_true _ _).mp hu).2)
            (fun u hu =>
              (of_decide_eq_true ((Bool.and_eq_true _ _).mp hu).1).2.trans_le hend)
          rw [List.countP_eq_countP_filter_add _ _ fun t => decide (t < w.opened + width),
            List.countP_filter, List.countP_filter]
          omega
        · rw [Window.record_outside hin] at hrest
          have hend : a + width ≤ t + width := add_le_add_left hpt.1 width
          have htail := countP_window hsorted.of_cons hrest (Nat.zero_le _)
            (p := fun t => decide (a ≤ t ∧ t < a + width))
            fun u hu => (of_decide_eq_true hu).2.trans_le hend
          have hhead := countP_cons_le (fun t => decide (a ≤ t ∧ t < a + width)) t ts
          change _ + 0 ≤ limit at htail
          omega
      · rw [List.countP_cons_of_neg (by simpa using hpt)]
        exact ih hsorted.of_cons hrest hle

end Bounds

/-! ### The failure that is one too many -/

/-- A run of failures may be continued. -/
theorem survives_append {width : T} {limit : ℕ} {w : Window T} {ts us : List T} :
    survives width limit w (ts ++ us) = true ↔
      survives width limit w ts = true ∧
        survives width limit (ts.foldl (Window.record width) w) us = true := by
  induction ts generalizing w with
  | nil => simp [survives]
  | cons t ts ih => rw [List.cons_append, survives_cons, survives_cons, ih, List.foldl_cons,
      and_assoc]

/-- **What a window is**: the failures that it counts are the last ones, and the one in front of
them, or the opening at the start, opened it. -/
theorem exists_window (width : T) (w : Window T) (ts before counted : List T)
    (hcount : counted.length = w.count) :
    ∃ before' counted',
      before ++ w.opened :: (counted ++ ts) =
        before' ++ (ts.foldl (Window.record width) w).opened :: counted' ∧
      counted'.length = (ts.foldl (Window.record width) w).count := by
  induction ts generalizing w before counted with
  | nil => exact ⟨before, counted, by simp, hcount⟩
  | cons t ts ih =>
      rw [List.foldl_cons]
      by_cases hin : t - w.opened < width
      · rw [Window.record_inside hin]
        obtain ⟨before', counted', hsplit, hlen⟩ :=
          ih { opened := w.opened, count := w.count + 1 } before (counted ++ [t])
            (by simp [hcount])
        exact ⟨before', counted', by rw [← hsplit]; simp, hlen⟩
      · rw [Window.record_outside hin]
        obtain ⟨before', counted', hsplit, hlen⟩ :=
          ih { opened := t, count := 0 } (before ++ w.opened :: counted) [] rfl
        exact ⟨before', counted', by rw [← hsplit]; simp, hlen⟩

/-- **A supervisor gives up in a burst only**: before the failure that is one too many there
are `limit` others in a row, and one more, or the opening at the start, that lies less than the
span back. -/
theorem burst_of_not_survives {width opened t : T} {limit : ℕ} {ts : List T}
    (hsurv : survives width limit { opened := opened, count := 0 } ts = true)
    (hnot : ¬ survives width limit { opened := opened, count := 0 } (ts ++ [t]) = true) :
    ∃ before x between, opened :: ts = before ++ x :: between ∧ limit ≤ between.length ∧
      t - x < width := by
  obtain ⟨before, between, hsplit, hlen⟩ :=
    exists_window width { opened := opened, count := 0 } ts [] [] rfl
  refine ⟨before, _, between, hsplit, ?_⟩
  rw [survives_append, survives_cons] at hnot
  have hover : ¬ ((ts.foldl (Window.record width) { opened := opened, count := 0 }).record
      width t).count ≤ limit := fun hle => hnot ⟨hsurv, hle, rfl⟩
  by_cases hin : t - (ts.foldl (Window.record width) { opened := opened, count := 0 }).opened <
      width
  · rw [Window.record_inside hin] at hover
    dsimp only at hover
    exact ⟨by omega, hin⟩
  · rw [Window.record_outside hin] at hover
    exact absurd (Nat.zero_le _) hover

end FailureWindow
