import Mathlib.Data.List.TakeWhile
import XGrey.Lib.Lexicographic
import XGrey.Lib.CRuntime
import XGrey.Protocol

/-!
# Text

The C library functions on strings that the programs use, and those of `common/util.c`.
A pointer into a text is the list of bytes that may be read from it; the string it points
to ends at the first zero byte (`cstring`), and a function that looks further than the
memory goes is a fault. A string that is known to be one is the list of its bytes without
the terminator.

The functions of CGILib are not part of the sources; they are the fields of `CgiLib`.
-/

open CRuntime Lexicographic

namespace XGrey

/-- The bytes of an ASCII text. -/
def ascii (s : String) : List UInt8 := s.toList.map fun c => UInt8.ofNat c.toNat

/-- What the programs use of CGILib. -/
structure CgiLib where
  /-- `empty_string` -/
  emptyString : List UInt8 → Bool
  /-- `trim_space` -/
  trimSpace : List UInt8 → List UInt8
  /-- `up_string` -/
  upString : List UInt8 → List UInt8

/-- The functions of CGILib on texts that need no trimming. -/
def plainCgi : CgiLib := { emptyString := List.isEmpty, trimSpace := id, upString := id }

/-- `isspace` in the C locale. -/
def isspace (c : UInt8) : Bool := c == 32 || (9 ≤ c && c ≤ 13)

/-- `isdigit` -/
def isdigit (c : UInt8) : Bool := 48 ≤ c && c ≤ 57

/-- The string that a pointer points to. -/
def cstring (mem : List UInt8) : Exec (List UInt8) :=
  if 0 ∈ mem then .ok (mem.takeWhile (· ≠ 0)) else .error .memory

/-- `strchr`: what the string has from the first occurrence of a character on. -/
def strchr (s : List UInt8) (c : UInt8) : Option (List UInt8) :=
  match s.dropWhile (· ≠ c) with
  | [] => none
  | found => some found

/-- The number that some decimal digits denote. -/
def digitsValue (digits : List UInt8) : ℕ :=
  digits.foldl (fun n c => n * 10 + (c.toNat - 48)) 0

/-- `strtoul` in base ten, with the pointer behind the number. Without any digits that is
where it started; a number that does not fit is `ULONG_MAX`, and a sign is accepted. -/
def strtoul (mem : List UInt8) : Exec (ℕ × List UInt8) :=
  let body := mem.dropWhile isspace
  let neg := body.head? == some 45
  let body := if neg || body.head? == some 43 then body.tail else body
  let digits := body.takeWhile isdigit
  let rest := body.dropWhile isdigit
  if rest = [] then .error .memory
  else if digits = [] then .ok (0, mem)
  else
    let value := digitsValue digits
    if value ≥ 18446744073709551616 then .ok (18446744073709551615, rest)
    else if neg then .ok ((18446744073709551616 - value) % 18446744073709551616, rest)
    else .ok (value, rest)

/-- The conversion of an `unsigned long` to `int`. -/
def toInt (n : ℕ) : ℤ := ((n : ℤ) + 2147483648) % 4294967296 - 2147483648

/-- The loop of `split` over a string: skip white space, take what follows up to the next
white space, and go on behind it. -/
def splitLoop (txt : List UInt8) : List (List UInt8) :=
  if _h : (txt.dropWhile isspace).takeWhile (! isspace ·) = [] then []
  else
    (txt.dropWhile isspace).takeWhile (! isspace ·) ::
      splitLoop (((txt.dropWhile isspace).dropWhile (! isspace ·)).drop 1)
termination_by txt.length
decreasing_by
  have hlen := (txt.dropWhile_sublist isspace).length_le
  have hpos := List.length_pos_iff.mpr _h
  have hsum := congrArg List.length
    (List.takeWhile_append_dropWhile (p := (! isspace ·)) (l := txt.dropWhile isspace))
  rw [List.length_append] at hsum
  rw [List.length_drop]
  omega

/-- `split`. A text without any field makes it log an element of an empty array. -/
def split (txt : List UInt8) : Exec (List (List UInt8)) :=
  match splitLoop txt with
  | [] => .error .memory
  | fields => .ok fields

/-- `ci_map_int` on the table `c_ift`. -/
def ciMapInt (name : List UInt8) (list : List (String × ℤ)) : ℤ :=
  match list.find? fun e => decide (strcmp name (ascii e.1) = .eq) with
  | some e => e.2
  | none => -1

/-- The string in a buffer that holds a terminator. -/
theorem cstring_eq {mem : List UInt8} (h : 0 ∈ mem) :
    cstring mem = .ok (mem.takeWhile (· ≠ 0)) := if_pos h

/-- The part of a text in front of a character that it is parted at. -/
theorem takeWhile_append_cons {c : UInt8} {front : List UInt8} (h : c ∉ front)
    (back : List UInt8) : (front ++ c :: back).takeWhile (· ≠ c) = front := by
  have hne : ∀ x ∈ front, decide (x ≠ c) = true :=
    fun x hx => decide_eq_true (fun hxc : x = c => h (hxc ▸ hx))
  rw [List.takeWhile_append_of_pos hne, List.takeWhile_cons_of_neg (by simp), List.append_nil]

/-- A string without zero bytes in front of its terminator. -/
theorem cstring_append {s rest : List UInt8} (h : 0 ∉ s) :
    cstring (s ++ 0 :: rest) = .ok s := by
  rw [cstring_eq (by simp), takeWhile_append_cons h]

/-- The part of a text in front of a character does not have the character in it. -/
theorem ne_of_mem_takeWhile {c x : UInt8} {l : List UInt8} (h : x ∈ l.takeWhile (· ≠ c)) :
    x ≠ c := by
  have hx := List.mem_takeWhile_imp h
  simpa using hx

/-- `strchr` on a text that is parted at the character. -/
theorem strchr_append {c : UInt8} {front : List UInt8} (h : c ∉ front) (back : List UInt8) :
    strchr (front ++ c :: back) c = some (c :: back) := by
  have hne : ∀ x ∈ front, decide (x ≠ c) = true :=
    fun x hx => decide_eq_true (fun hxc : x = c => h (hxc ▸ hx))
  rw [strchr, List.dropWhile_append_of_pos hne, List.dropWhile_cons_of_neg (by simp)]

/-- The first occurrence parts a text in one way. -/
theorem eq_of_append_cons_eq {c : UInt8} {front back front' back' : List UInt8}
    (h : front ++ c :: back = front' ++ c :: back') (hfront : c ∉ front)
    (hfront' : c ∉ front') : front = front' ∧ back = back' := by
  have hsame : front = front' := by
    rw [← takeWhile_append_cons hfront back, h, takeWhile_append_cons hfront']
  rw [hsame, List.append_cancel_left_eq, List.cons.injEq] at h
  exact ⟨hsame, h.2⟩

/-- What `strchr` finds parts the text. -/
theorem strchr_eq_some {s found : List UInt8} {c : UInt8} (h : strchr s c = some found) :
    s = s.takeWhile (· ≠ c) ++ c :: found.tail := by
  rw [strchr] at h
  cases hdrop : s.dropWhile (· ≠ c) with
  | nil =>
      rw [hdrop] at h
      cases h
  | cons d back =>
      rw [hdrop] at h
      cases h
      have hd : d = c := by
        have hfirst := List.head?_dropWhile_not (· ≠ c) s
        rw [hdrop] at hfirst
        simpa using hfirst
      conv_lhs => rw [← List.takeWhile_append_dropWhile (p := (· ≠ c)) (l := s), hdrop, hd]
      rfl

/-- `strchr` finds what follows the first occurrence. -/
theorem strchr_eq (s : List UInt8) (c : UInt8) :
    (strchr s c).map List.tail = if c ∈ s then some (s.drop (s.idxOf c + 1)) else none := by
  induction s with
  | nil => rfl
  | cons a s ih =>
      by_cases h : a = c
      · subst h
        simp [strchr]
      · have hdrop : strchr (a :: s) c = strchr s c := by
          simp [strchr, h]
        rw [hdrop, ih]
        simp [List.idxOf_cons_ne _ h, Ne.symm h]

end XGrey
