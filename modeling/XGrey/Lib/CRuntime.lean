import Mathlib.Data.List.Basic
import Mathlib.Algebra.Order.Group.Nat

/-!
# Failing C Programs

A C function can stop the process, by a failed `assert()`, or step outside the objects it
may touch. A modelled function that can do either returns in `Exec`, where each of these
is a `Fault` of its own. Whether `assert()` is compiled in is a property of the build,
so the check takes it as an argument.

Arrays are lists, and an array that is updated in place is the updated list. `memmove`
is the block move on them, with the two spans of the array checked; its value on spans
inside the array is `memmove_eq`.
-/

namespace CRuntime

universe u

/-- The ways in which a modelled program goes wrong. -/
inductive Fault
  /-- An `assert()` failed. -/
  | assertion
  /-- An array was indexed outside its bounds. -/
  | subscript
  /-- Memory outside the object was read or written by a copy or a scan. -/
  | memory
  /-- The length of a block to be moved wrapped around below zero. -/
  | wrap
  /-- A block was released a second time. -/
  | doubleFree
  deriving DecidableEq, Repr

/-- A computation that a fault ends. -/
abbrev Exec := Except Fault

/-- From a successful sequence, its two parts. -/
theorem bind_eq_ok {α β : Type u} {x : Exec α} {f : α → Exec β} {b : β} :
    x >>= f = .ok b ↔ ∃ a, x = .ok a ∧ f a = .ok b := by
  cases x with
  | error e =>
      constructor
      · rintro h
        cases h
      · rintro ⟨a, h, -⟩
        cases h
  | ok a =>
      constructor
      · intro h
        exact ⟨a, rfl, h⟩
      · rintro ⟨_, h, h'⟩
        cases h
        exact h'

/-- A sequence whose first part succeeds is its second part. -/
@[simp] theorem ok_bind {α β : Type u} (a : α) (f : α → Exec β) :
    (Except.ok a : Exec α) >>= f = f a :=
  rfl

/-- A sequence whose first part fails fails the same way. -/
@[simp] theorem error_bind {α β : Type u} (e : Fault) (f : α → Exec β) :
    (Except.error e : Exec α) >>= f = .error e :=
  rfl

/-- A sequence whose parts can fail in one way only fails that way. -/
theorem bind_error_eq {α β : Type u} {x : Exec α} {f : α → Exec β} {e e₀ : Fault}
    (hx : ∀ e, x = .error e → e = e₀) (hf : ∀ a e, f a = .error e → e = e₀)
    (h : x >>= f = .error e) : e = e₀ := by
  cases x with
  | error e' =>
      cases h
      exact hx e rfl
  | ok a => exact hf a e h

/-- Whether a computation succeeds with a result that passes a test. -/
def okAnd {ε : Type*} {α : Type u} (x : Except ε α) (test : α → Bool) : Bool :=
  match x with
  | .ok a => test a
  | .error _ => false

/-- The result of a computation that passes a test. -/
theorem exists_of_okAnd {ε : Type*} {α : Type u} (x : Except ε α) (test : α → Bool)
    (h : okAnd x test = true) : ∃ a, x = .ok a ∧ test a = true := by
  cases x with
  | error e => cases h
  | ok a => exact ⟨a, rfl, h⟩

/-- `assert(p)`, which a build with `NDEBUG` leaves out. -/
def cassert (ndebug : Bool) (p : Prop) [Decidable p] : Exec Unit :=
  if ndebug ∨ p then .ok () else .error .assertion

/-- An assertion that holds has no effect. -/
@[simp] theorem cassert_of {ndebug : Bool} {p : Prop} [Decidable p] (h : p) :
    cassert ndebug p = .ok () := by
  simp [cassert, h]

/-- An assertion that does not hold ends the process in the build that checks it. -/
theorem cassert_false_of_not {p : Prop} [Decidable p] (h : ¬ p) :
    cassert false p = .error .assertion := by
  simp [cassert, h]

/-- In a build with `NDEBUG` no assertion has any effect. -/
@[simp] theorem cassert_ndebug (p : Prop) [Decidable p] : cassert true p = .ok () := by
  simp [cassert]

/-- When an assertion passes. -/
theorem cassert_eq_ok {ndebug : Bool} {p : Prop} [Decidable p] {u : Unit} :
    cassert ndebug p = .ok u ↔ (ndebug = true ∨ p) := by
  rw [cassert]
  split_ifs with h <;> simp [h]

section Arrays

variable {α : Type*}

/-- `memmove` of `n` elements from position `src` to position `dst` of one array. Both
spans have to lie inside it. -/
def memmove (a : List α) (dst src n : ℕ) : Exec (List α) :=
  if dst + n ≤ a.length ∧ src + n ≤ a.length then
    .ok (a.take dst ++ (a.drop src).take n ++ a.drop (dst + n))
  else
    .error .memory

/-- A block move inside the array. -/
theorem memmove_eq {a : List α} {dst src n : ℕ} (hd : dst + n ≤ a.length)
    (hs : src + n ≤ a.length) :
    memmove a dst src n = .ok (a.take dst ++ (a.drop src).take n ++ a.drop (dst + n)) :=
  if_pos ⟨hd, hs⟩

/-- A block move does not change the length of the array. -/
theorem length_memmove {a b : List α} {dst src n : ℕ} (h : memmove a dst src n = .ok b) :
    b.length = a.length := by
  rw [memmove] at h
  split_ifs at h with hspans
  cases h
  rw [List.length_append, List.length_append, List.length_take, List.length_take,
    List.length_drop, List.length_drop]
  omega

/-- The write of an in-place compaction: what has been kept so far stands in front of the
untouched rest of the array, and the next kept element goes between them. -/
theorem set_append_drop (kept a : List α) (x : α) (h : kept.length < a.length) :
    (kept ++ a.drop kept.length).set kept.length x =
      kept ++ [x] ++ a.drop (kept.length + 1) := by
  rw [List.set_append_right _ _ (Nat.le_refl _), Nat.sub_self,
    List.drop_eq_getElem_cons h, List.set_cons_zero, List.append_assoc,
    List.singleton_append]

/-- Reading memory at an offset from a pointer, where `a` is what may be read from there
on. -/
def peek (a : List α) (off : ℤ) : Exec α :=
  if 0 ≤ off then
    match a[off.toNat]? with
    | some x => .ok x
    | none => .error .memory
  else
    .error .memory

/-- A read inside the object. -/
theorem peek_eq [Inhabited α] {a : List α} {i : ℕ} (h : i < a.length) :
    peek a i = .ok (a.getD i default) := by
  simp [peek, h]

end Arrays

end CRuntime
