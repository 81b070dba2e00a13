import Mathlib.Data.Nat.Notation
import Mathlib.Order.Lattice
import Mathlib.Tactic.Ring

/-!
# Counting by Periods

A program that reports how often something happens keeps four numbers: the total, the count of
the current period, the count of the last one, and the highest count of any. They are worked
on by two operations only (`Counter.add`, `Counter.close`), and what they mean is said by a
ledger, which has the count of every period.

## Main results

* `counter_count`, `counter_turn`: the two operations are those of the ledger.
* `nearMean_mean`: the mean of the periods, as it is rounded with integers, is within one half
  of the exact one.
-/

namespace PeriodCounter

/-- The four numbers. -/
@[ext] structure Counter where
  total : ℕ
  current : ℕ
  last : ℕ
  peak : ℕ
  deriving DecidableEq

namespace Counter

/-- Something has happened a number of times. -/
def add (c : Counter) (n : ℕ) : Counter :=
  { c with total := c.total + n, current := c.current + n }

/-- A period ends. -/
def close (c : Counter) : Counter :=
  { c with last := c.current, peak := max c.peak c.current, current := 0 }

@[simp] theorem add_zero (c : Counter) : c.add 0 = c := rfl

end Counter

/-- The counts of the periods that are over, the latest one first, and that of the current
one. -/
structure Ledger where
  closed : List ℕ
  current : ℕ
  deriving DecidableEq

namespace Ledger

/-- Nothing has happened yet. -/
def empty : Ledger := { closed := [], current := 0 }

/-- Something has happened a number of times. -/
def count (l : Ledger) (n : ℕ) : Ledger := { l with current := l.current + n }

/-- A period ends. -/
def turn (l : Ledger) : Ledger := { closed := l.current :: l.closed, current := 0 }

/-- The four numbers that a ledger comes to. -/
def counter (l : Ledger) : Counter where
  total := l.closed.sum + l.current
  current := l.current
  last := l.closed.headD 0
  peak := l.closed.foldr max 0

@[simp] theorem counter_count (l : Ledger) (n : ℕ) : (l.count n).counter = l.counter.add n := by
  simp [counter, count, Counter.add, Nat.add_assoc]

@[simp] theorem counter_turn (l : Ledger) : l.turn.counter = l.counter.close := by
  simp [counter, turn, Counter.close, Nat.add_comm, max_comm]

/-- The mean count of the periods that are over, rounded to the nearest integer. -/
def mean (l : Ledger) : ℕ :=
  if l.closed.length = 0 then 0
  else (2 * l.closed.sum + l.closed.length) / (2 * l.closed.length)

/-- A number is within one half of the mean count of the periods that are over. -/
def NearMean (l : Ledger) (m : ℕ) : Prop :=
  l.closed.length * (2 * m) ≤ 2 * l.closed.sum + l.closed.length ∧
    2 * l.closed.sum < l.closed.length * (2 * m + 1)

/-- **The rounded mean** is. -/
theorem nearMean_mean (l : Ledger) (h : l.closed ≠ []) : l.NearMean l.mean := by
  have hpos : 0 < l.closed.length := List.length_pos_iff.mpr h
  rw [NearMean, mean, if_neg hpos.ne']
  generalize l.closed.length = n at hpos
  generalize l.closed.sum = s
  have hdiv := Nat.div_add_mod (2 * s + n) (2 * n)
  have hmod := Nat.mod_lt (2 * s + n) (Nat.mul_pos Nat.two_pos hpos)
  generalize (2 * s + n) / (2 * n) = q at hdiv
  generalize (2 * s + n) % (2 * n) = r at hdiv hmod
  have hprod : n * (2 * q) = 2 * n * q := by ring
  have hprod' : n * (2 * q + 1) = 2 * n * q + n := by ring
  omega

end Ledger

end PeriodCounter
