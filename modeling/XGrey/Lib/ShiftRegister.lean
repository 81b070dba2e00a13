import Mathlib.Data.BitVec
import Mathlib.Logic.Function.Iterate

/-!
# Feedback Shift Registers

The register of a reflected cyclic redundancy check, for any width and any polynomial: the
bits of a message are added to its low end one after the other, and the bit that is shifted
out decides whether the polynomial, written in reverse, is added to the rest.

A shift is linear over exclusive or (`shift_xor`), and when the polynomial has its highest
bit it loses nothing (`shift_injective`). As long as a message is not longer than the
register is wide, its bits can be added all at once (`run_eq_iterate`).

## Main results

* `iterate_shift_eq`: several shifts at once, with a table for the bits that are shifted out.
* `run_ne_of_burst`: messages that differ in a part no longer than the register only leave
  different registers.
-/

namespace ShiftRegister

variable {n : ℕ} {poly : BitVec n}

/-- One shift of the register. -/
def shift (poly reg : BitVec n) : BitVec n :=
  if reg.getLsbD 0 then (reg >>> 1) ^^^ poly else reg >>> 1

/-- One bit of the message. -/
def shiftIn (poly reg : BitVec n) (bit : Bool) : BitVec n :=
  shift poly (reg ^^^ (BitVec.ofBool bit).setWidth n)

/-- The register after a message. -/
def run (poly reg : BitVec n) (bits : List Bool) : BitVec n := bits.foldl (shiftIn poly) reg

/-- The bits of a message that fits into the register, the first one lowest. -/
def word (n : ℕ) (bits : List Bool) : BitVec n := (BitVec.ofBoolListLE bits).setWidth n

/-! ### Shifts -/

/-- **A shift is linear.** -/
theorem shift_xor (a b : BitVec n) : shift poly (a ^^^ b) = shift poly a ^^^ shift poly b := by
  have hcancel : ∀ x y : BitVec n, x ^^^ poly ^^^ (y ^^^ poly) = x ^^^ y := fun x y => by
    rw [BitVec.xor_assoc, BitVec.xor_comm y poly, ← BitVec.xor_assoc poly poly,
      BitVec.xor_self, BitVec.zero_xor]
  rw [shift, shift, shift, BitVec.getLsbD_xor, BitVec.ushiftRight_xor_distrib]
  cases a.getLsbD 0 with
  | false =>
      cases b.getLsbD 0 with
      | false => rfl
      | true => exact BitVec.xor_assoc _ _ _
  | true =>
      cases b.getLsbD 0 with
      | false =>
          simp only [Bool.bne_false, Bool.false_eq_true, if_true, if_false]
          rw [BitVec.xor_assoc, BitVec.xor_comm _ poly, ← BitVec.xor_assoc]
      | true => exact (hcancel _ _).symm

theorem iterate_shift_xor (k : ℕ) (a b : BitVec n) :
    (shift poly)^[k] (a ^^^ b) = (shift poly)^[k] a ^^^ (shift poly)^[k] b := by
  induction k generalizing a b with
  | zero => rfl
  | succ k ih => rw [Function.iterate_succ_apply, shift_xor, ih]; rfl

/-- A register that is shifted to zero was zero. -/
theorem eq_zero_of_shift_eq_zero (hpoly : poly.msb = true) {a : BitVec n}
    (h : shift poly a = 0#n) : a = 0#n := by
  rw [shift] at h
  cases hlow : a.getLsbD 0 with
  | true =>
      -- nothing shifted in from above could have cancelled the highest bit of the polynomial
      rw [hlow, if_pos rfl, BitVec.xor_eq_zero_iff] at h
      rw [← h, BitVec.msb_ushiftRight] at hpoly
      simp at hpoly
  | false =>
      rw [hlow, if_neg Bool.false_ne_true] at h
      refine BitVec.eq_of_getLsbD_eq fun i _ => ?_
      rw [BitVec.getLsbD_zero]
      cases i with
      | zero => exact hlow
      | succ i =>
          have hbit := congrArg (fun x => x.getLsbD i) h
          simpa [Nat.add_comm 1 i] using hbit

/-- **A shift loses nothing** when the polynomial has its highest bit. -/
theorem shift_injective (hpoly : poly.msb = true) : Function.Injective (shift poly) := by
  intro a b hab
  refine BitVec.xor_eq_zero_iff.mp (eq_zero_of_shift_eq_zero hpoly ?_)
  rw [shift_xor, hab, BitVec.xor_self]

/-- A shift only moves a register whose low bit is clear. -/
theorem shift_shiftLeft {a : BitVec n} (h : a.msb = false) : shift poly (a <<< 1) = a := by
  have hlow : (a <<< 1).getLsbD 0 = false := by simp
  rw [shift, hlow, if_neg Bool.false_ne_true]
  refine BitVec.eq_of_getLsbD_eq fun i hi => ?_
  rw [BitVec.msb_eq_getLsbD_last] at h
  by_cases hlast : i = n - 1
  · subst hlast
    rw [h]
    simp
    omega
  · simp
    omega

theorem iterate_shift_shiftLeft {a : BitVec n} {k : ℕ}
    (h : ∀ i, n - k ≤ i → a.getLsbD i = false) : (shift poly)^[k] (a <<< k) = a := by
  induction k with
  | zero => simp
  | succ k ih =>
      have hmsb : (a <<< k).msb = false := by
        rw [BitVec.msb_eq_getLsbD_last, BitVec.getLsbD_shiftLeft, h (n - 1 - k) (by omega),
          Bool.and_false]
      rw [BitVec.shiftLeft_add, Function.iterate_succ_apply, shift_shiftLeft hmsb]
      exact ih fun i hi => h i (by omega)

/-- **Several shifts at once**: those of the bits that are shifted out, which a table may
hold, are added to the rest of the register, which has only moved. -/
theorem iterate_shift_eq (k : ℕ) (a : BitVec n) :
    (shift poly)^[k] a = (a >>> k) ^^^ (shift poly)^[k] ((a.setWidth k).setWidth n) := by
  have hsplit : a = ((a >>> k) <<< k) ^^^ (a.setWidth k).setWidth n := by
    refine BitVec.eq_of_getLsbD_eq fun i hi => ?_
    by_cases hk : i < k
    · simp [hi, hk]
    · simp [hi, hk, Nat.add_sub_cancel' (not_lt.mp hk)]
  conv_lhs => rw [hsplit, iterate_shift_xor]
  rw [iterate_shift_shiftLeft fun i hi => ?_]
  rw [BitVec.getLsbD_ushiftRight]
  exact BitVec.getLsbD_of_ge _ _ (by omega)

/-! ### Messages -/

@[simp] theorem run_nil (reg : BitVec n) : run poly reg [] = reg := rfl

theorem run_cons (reg : BitVec n) (bit : Bool) (bits : List Bool) :
    run poly reg (bit :: bits) = run poly (shiftIn poly reg bit) bits := rfl

/-- A message may be given in parts. -/
theorem run_append (reg : BitVec n) (bits bits' : List Bool) :
    run poly reg (bits ++ bits') = run poly (run poly reg bits) bits' :=
  List.foldl_append

@[simp] theorem word_nil : word n [] = 0#n := by
  refine BitVec.eq_of_getLsbD_eq fun i _ => ?_
  simp [word]

theorem getLsbD_word {bits : List Bool} {i : ℕ} (hi : i < n) :
    (word n bits).getLsbD i = bits.getD i false := by
  simp [word, hi]

theorem word_cons (bit : Bool) (bits : List Bool) :
    word n (bit :: bits) = (word n bits <<< 1) ^^^ (BitVec.ofBool bit).setWidth n := by
  refine BitVec.eq_of_getLsbD_eq fun i hi => ?_
  rw [getLsbD_word hi, BitVec.getLsbD_xor, BitVec.getLsbD_shiftLeft, BitVec.getLsbD_setWidth,
    BitVec.getLsbD_ofBool]
  cases i with
  | zero => simp [hi]
  | succ i => simp [hi, getLsbD_word (show i < n by omega)]

/-- Messages of one length that fit into the register are told apart by their words. -/
theorem word_inj {bits bits' : List Bool} (hlen : bits.length = bits'.length)
    (hfit : bits.length ≤ n) (h : word n bits = word n bits') : bits = bits' := by
  refine List.ext_getElem hlen fun i hi hi' => ?_
  have hbit := congrArg (fun x => x.getLsbD i) h
  simp only [getLsbD_word (show i < n by omega)] at hbit
  simpa [hi, hi'] using hbit

/-- **A message that fits into the register** can be added to it before it is shifted. -/
theorem run_eq_iterate (reg : BitVec n) {bits : List Bool} (hfit : bits.length ≤ n) :
    run poly reg bits = (shift poly)^[bits.length] (reg ^^^ word n bits) := by
  induction bits generalizing reg with
  | nil => simp
  | cons bit bits ih =>
      have hlen : bits.length < n := hfit
      have hmsb : (word n bits).msb = false := by
        rw [BitVec.msb_eq_getLsbD_last, getLsbD_word (by omega)]
        rw [List.getD_eq_getElem?_getD, List.getElem?_eq_none (by omega), Option.getD_none]
      rw [run_cons, ih _ hlen.le, List.length_cons, Function.iterate_succ_apply, word_cons,
        BitVec.xor_comm (word n bits <<< 1), ← BitVec.xor_assoc, shift_xor _ (word n bits <<< 1),
        shift_shiftLeft hmsb]
      rfl

/-- Different registers stay different. -/
theorem run_injective (hpoly : poly.msb = true) (bits : List Bool) :
    Function.Injective fun reg => run poly reg bits := by
  induction bits with
  | nil => exact fun _ _ h => h
  | cons bit bits ih =>
      intro a b h
      exact (BitVec.xor_left_inj _).mp (shift_injective hpoly (ih h))

/-- Different messages that fit into the register leave it different. -/
theorem eq_of_run_eq (hpoly : poly.msb = true) {reg : BitVec n} {bits bits' : List Bool}
    (hlen : bits.length = bits'.length) (hfit : bits.length ≤ n)
    (h : run poly reg bits = run poly reg bits') : bits = bits' := by
  rw [run_eq_iterate reg hfit, run_eq_iterate reg (hlen ▸ hfit), ← hlen] at h
  have hword := (shift_injective hpoly).iterate _ h
  exact word_inj hlen hfit ((BitVec.xor_right_inj _).mp hword)

/-- **A burst is noticed**: two messages that are the same but for a part that fits into the
register leave different registers. -/
theorem run_ne_of_burst (hpoly : poly.msb = true) (reg : BitVec n) (front back : List Bool)
    {burst burst' : List Bool} (hlen : burst.length = burst'.length) (hfit : burst.length ≤ n)
    (hne : burst ≠ burst') :
    run poly reg (front ++ (burst ++ back)) ≠ run poly reg (front ++ (burst' ++ back)) := by
  intro h
  rw [run_append, run_append, run_append, run_append] at h
  exact hne (eq_of_run_eq hpoly hlen hfit (run_injective hpoly back h))

end ShiftRegister
