import Mathlib.Data.List.Lex
import Mathlib.Data.Prod.Lex
import Mathlib.Order.Compare

/-!
# Three-way Comparison of Strings

C compares strings with functions that return a number of which only the sign counts.
This module gives the two of them that a sorted array rests on as functions into
`Ordering`: `memcmp`, which compares a given number of elements, and `strcmp`, which
compares two terminated strings, here lists without their terminator. Both are generic
in the character type, whose order is the only thing they use.

That a three-way comparison decides a linear order is `Ordering.Compares`; antisymmetry
and transitivity in sign, and that it answers equal on equal strings only, all follow.

## Main results

* `strcmp_compares`: `strcmp` decides the lexicographic order.
* `memcmp_then_length_compares`: comparing the common prefix with `memcmp` and then the
  lengths decides the same order.
* `then_compares_toLex`: chaining two comparisons with `Ordering.then` decides the
  lexicographic product.
-/

namespace Lexicographic

/-- The order of unsigned bytes, the one in which C compares characters. -/
instance linearOrderUInt8 : LinearOrder UInt8 where
  le_refl := UInt8.le_refl
  le_trans _ _ _ := UInt8.le_trans
  lt_iff_le_not_ge a b := by
    rw [UInt8.le_iff_toNat_le, UInt8.le_iff_toNat_le, UInt8.lt_iff_toNat_lt]
    omega
  le_antisymm _ _ := UInt8.le_antisymm
  le_total := UInt8.le_total
  toDecidableLE := inferInstance

variable {α : Type*} [LinearOrder α]

/-- `memcmp a b n` compares the first `n` elements of `a` and `b`. Elements past the end
of either list compare equal; callers stay within both. -/
def memcmp : List α → List α → ℕ → Ordering
  | a :: as, b :: bs, n + 1 =>
      if a < b then .lt else if b < a then .gt else memcmp as bs n
  | _, _, _ => .eq

/-- `strcmp a b` compares two terminated strings: a proper prefix comes first. -/
def strcmp : List α → List α → Ordering
  | [], [] => .eq
  | [], _ :: _ => .lt
  | _ :: _, [] => .gt
  | a :: as, b :: bs => if a < b then .lt else if b < a then .gt else strcmp as bs

/-- Comparing the heads of two lists, and the tails when the heads agree. -/
theorem cons_compares {a b : α} {as bs : List α} {o : Ordering} (h : o.Compares as bs) :
    (if a < b then Ordering.lt else if b < a then .gt else o).Compares
      (a :: as) (b :: bs) := by
  split_ifs with hab hba
  · exact List.cons_lt_cons_iff.mpr (Or.inl hab)
  · exact List.cons_lt_cons_iff.mpr (Or.inl hba)
  · obtain rfl : a = b := le_antisymm (not_lt.mp hba) (not_lt.mp hab)
    cases o with
    | lt => exact List.cons_lt_cons_iff.mpr (Or.inr ⟨rfl, h⟩)
    | eq => exact congrArg (a :: ·) h
    | gt => exact List.cons_lt_cons_iff.mpr (Or.inr ⟨rfl, h⟩)

/-- `strcmp` decides the lexicographic order. -/
theorem strcmp_compares (a b : List α) : (strcmp a b).Compares a b := by
  induction a generalizing b with
  | nil =>
      cases b with
      | nil => rfl
      | cons b bs => exact List.nil_lt_cons b bs
  | cons a as ih =>
      cases b with
      | nil => exact List.nil_lt_cons a as
      | cons b bs => exact cons_compares (ih bs)

/-- `memcmp` over the shorter of two lists, then their lengths, decides the
lexicographic order: the form in which counted strings are compared. -/
theorem memcmp_then_length_compares (a b : List α) :
    ((memcmp a b (min a.length b.length)).then (cmp a.length b.length)).Compares a b := by
  induction a generalizing b with
  | nil =>
      cases b with
      | nil =>
          rw [cmp_self_eq_eq]
          rfl
      | cons b bs =>
          have hcmp : cmp ([] : List α).length (b :: bs).length = .lt :=
            (cmp_eq_lt_iff _ _).mpr (Nat.succ_pos bs.length)
          rw [hcmp]
          exact List.nil_lt_cons b bs
  | cons a as ih =>
      cases b with
      | nil =>
          have hcmp : cmp (a :: as).length ([] : List α).length = .gt :=
            (cmp_eq_gt_iff _ _).mpr (Nat.succ_pos as.length)
          rw [hcmp, List.length_nil, Nat.min_zero]
          exact List.nil_lt_cons a as
      | cons b bs =>
          have hmin : min (a :: as).length (b :: bs).length =
              min as.length bs.length + 1 := by
            simp only [List.length_cons]
            omega
          have hlen : cmp (a :: as).length (b :: bs).length = cmp as.length bs.length := by
            rw [cmp, cmp, cmpUsing, cmpUsing]
            simp only [List.length_cons, Nat.add_lt_add_iff_right]
          have hthen : (memcmp (a :: as) (b :: bs) (min as.length bs.length + 1)).then
              (cmp as.length bs.length) =
              if a < b then .lt else if b < a then .gt else
                (memcmp as bs (min as.length bs.length)).then
                  (cmp as.length bs.length) := by
            rw [memcmp]
            generalize cmp as.length bs.length = o
            split_ifs <;> rfl
          rw [hmin, hlen, hthen]
          exact cons_compares (ih bs)

/-- `memcmp` reads nothing past the elements it is told to compare. -/
theorem memcmp_take (a b : List α) {n m k : ℕ} (hm : n ≤ m) (hk : n ≤ k) :
    memcmp (a.take m) (b.take k) n = memcmp a b n := by
  induction n generalizing a b m k with
  | zero => simp [memcmp]
  | succ n ih =>
      obtain ⟨m, rfl⟩ : ∃ m', m = m' + 1 := ⟨m - 1, by omega⟩
      obtain ⟨k, rfl⟩ : ∃ k', k = k' + 1 := ⟨k - 1, by omega⟩
      cases a with
      | nil => simp [memcmp]
      | cons a as =>
          cases b with
          | nil => simp [memcmp]
          | cons b bs =>
              simp only [List.take_succ_cons, memcmp]
              rw [ih as bs (by omega) (by omega)]

/-- `memcmp` of two whole lists of one length decides the lexicographic order. -/
theorem memcmp_compares {a b : List α} {n : ℕ} (ha : a.length = n) (hb : b.length = n) :
    (memcmp a b n).Compares a b := by
  have h := memcmp_then_length_compares a b
  rw [ha, hb, min_self, cmp_self_eq_eq] at h
  have heq : (memcmp a b n).then .eq = memcmp a b n := by cases memcmp a b n <;> rfl
  rwa [heq] at h

/-- Two comparisons in turn decide the lexicographic product. -/
theorem then_compares_toLex {β : Type*} [LinearOrder β] {o o' : Ordering} {a a' : α}
    {b b' : β} (h : o.Compares a a') (h' : o'.Compares b b') :
    (o.then o').Compares (toLex (a, b)) (toLex (a', b')) := by
  cases o with
  | lt => exact Prod.Lex.toLex_lt_toLex.mpr (Or.inl h)
  | gt => exact Prod.Lex.toLex_lt_toLex.mpr (Or.inl h)
  | eq =>
      obtain rfl : a = a' := h
      cases o' with
      | lt => exact Prod.Lex.toLex_lt_toLex.mpr (Or.inr ⟨rfl, h'⟩)
      | eq => exact congrArg (fun c => toLex (a, c)) h'
      | gt => exact Prod.Lex.toLex_lt_toLex.mpr (Or.inr ⟨rfl, h'⟩)

end Lexicographic
