import XGrey.Lib.CRuntime

/-!
# Insertion and Deletion in an Array

An array whose elements fill a prefix makes room for a new element by moving the tail of
that prefix up by one place, and closes the gap of a deleted one by moving it down. The
two operations on the prefix are `insertAt` and `deleteAt`; `memmove_insertAt` is the
block move and store with which a C program inserts.
-/

namespace ArrayShift

open CRuntime

variable {α β : Type*}

/-- Insert an element in front of the one at an index. -/
def insertAt (l : List α) (idx : ℕ) (x : α) : List α := l.take idx ++ x :: l.drop idx

/-- Delete the element at an index. -/
def deleteAt (l : List α) (idx : ℕ) : List α := l.take idx ++ l.drop (idx + 1)

@[simp] theorem length_insertAt (l : List α) (idx : ℕ) (x : α) :
    (insertAt l idx x).length = l.length + 1 := by
  simp only [insertAt, List.length_append, List.length_take, List.length_cons,
    List.length_drop]
  omega

/-- An insertion adds the new element and nothing else. -/
theorem insertAt_perm (l : List α) (idx : ℕ) (x : α) : (insertAt l idx x).Perm (x :: l) := by
  have h : (l.take idx ++ x :: l.drop idx).Perm (x :: (l.take idx ++ l.drop idx)) :=
    List.perm_middle
  rwa [List.take_append_drop] at h

/-- A deletion adds nothing. -/
theorem deleteAt_sublist (l : List α) (idx : ℕ) : (deleteAt l idx).Sublist l := by
  have h : (l.take idx ++ l.drop idx).Sublist l := by rw [List.take_append_drop]
  exact ((List.Sublist.refl _).append (List.drop_sublist_drop_left l (Nat.le_succ idx))).trans h

@[simp] theorem mem_insertAt {l : List α} {idx : ℕ} {x y : α} :
    y ∈ insertAt l idx x ↔ y = x ∨ y ∈ l := by
  rw [(insertAt_perm l idx x).mem_iff, List.mem_cons]

theorem map_insertAt (f : α → β) (l : List α) (idx : ℕ) (x : α) :
    (insertAt l idx x).map f = insertAt (l.map f) idx (f x) := by
  simp only [insertAt, List.map_append, List.map_cons, List.map_take, List.map_drop]

/-- Insertion by a block move: the elements from the index on move up by one place, over
an element behind them that is not needed, and the new element takes the freed place. -/
theorem memmove_insertAt (l rest : List α) (r x : α) {idx : ℕ} (h : idx ≤ l.length) :
    ∃ a, memmove (l ++ r :: rest) (idx + 1) idx (l.length - idx) = .ok a ∧
      a.set idx x = insertAt l idx x ++ rest := by
  refine ⟨_, memmove_eq (by simp; omega) (by simp; omega), ?_⟩
  have hmid : ((l ++ r :: rest).drop idx).take (l.length - idx) = l.drop idx := by
    rw [List.drop_append_of_le_length h, ← List.length_drop, List.take_left]
  have hend : (l ++ r :: rest).drop (idx + 1 + (l.length - idx)) = rest := by
    have hidx : idx + 1 + (l.length - idx) = (l ++ [r]).length := by
      rw [List.length_append, List.length_singleton]
      omega
    rw [hidx, ← List.singleton_append (l := rest), ← List.append_assoc, List.drop_left]
  obtain ⟨y, hy⟩ : ∃ y, (l ++ r :: rest)[idx]? = some y :=
    ⟨_, List.getElem?_eq_getElem (by simp; omega)⟩
  have hlen : (l.take idx).length = idx := List.length_take_of_le h
  rw [hmid, hend, List.take_add_one, hy, List.take_append_of_le_length h, insertAt,
    List.append_assoc, List.append_assoc, List.append_assoc,
    List.set_append_right _ _ hlen.le, hlen, Nat.sub_self]
  rfl

end ArrayShift
