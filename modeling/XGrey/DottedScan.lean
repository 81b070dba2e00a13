import XGrey.Clients
import XGrey.Formats
import XGrey.IplistFile
import XGrey.PolicyRequests
import XGrey.WhitelistLoad

/-!
# How Far an Address Is Read

The Postfix client and `whitelist_load` read an address in dotted decimal with four calls of
`strtoul`, and step over the character behind each number without looking at it. On a text
that ends too early the character is the terminator, and the scan goes on behind the string.

The scan is followed here byte by byte (`scanSteps`): a step has a place where it begins, a
last byte that it examines, having examined all those before, and the place where it leaves
the pointer.

## Main results

* `scanDotted_ok_iff`: a scan succeeds in the memory of its text exactly if no step examines
  a byte behind it, so that the steps are those of the model.
* `dottedScan_iff`: which texts are not left, in both programs.
-/

open CRuntime

namespace XGrey

/-! ### Steps -/

/-- A call of `strtoul` and the step over the character behind the number. -/
structure ScanStep where
  /-- The offset at which the call begins. -/
  start : ℕ
  /-- The offset of the last byte that it examines. -/
  last : ℕ
  /-- The offset behind the character that is skipped. -/
  next : ℕ

/-- The step at an offset of some memory. -/
def scanStep (mem : List UInt8) (start : ℕ) : ScanStep where
  start := start
  last := start + ((mem.drop start).length - (stopsAt (mem.drop start)).length)
  next := start + ((mem.drop start).length - (behindNumber (mem.drop start)).length) + 1

/-- A number of steps. -/
def scanSteps (mem : List UInt8) : ℕ → ℕ → List ScanStep
  | 0, _ => []
  | n + 1, start => scanStep mem start :: scanSteps mem n (scanStep mem start).next

example : (scanSteps (ascii "10.0.0.1" ++ [0]) 4 0).map ScanStep.last = [2, 4, 6, 8] := by decide

theorem unsigned_suffix (text : List UInt8) : unsigned text <:+ text := by
  rw [unsigned]
  split_ifs
  · exact List.tail_suffix text
  · exact List.suffix_refl text

theorem stopsAt_suffix (text : List UInt8) : stopsAt text <:+ text :=
  ((List.dropWhile_suffix _).trans (unsigned_suffix _)).trans (List.dropWhile_suffix _)

/-- Without any digits the pointer stays where it was. -/
theorem behindNumber_eq (text : List UInt8) :
    behindNumber text = text ∨ behindNumber text = stopsAt text := by
  rw [behindNumber, stopsAt]
  split_ifs
  · exact Or.inl rfl
  · exact Or.inr rfl

theorem behindNumber_suffix (text : List UInt8) : behindNumber text <:+ text := by
  rcases behindNumber_eq text with h | h
  · rw [h]
  · rw [h]
    exact stopsAt_suffix text

/-! ### The steps and the model -/

/-- A step examines a byte behind some memory exactly if nothing is left to stop at. -/
theorem scanStep_last_lt_iff (mem : List UInt8) (start : ℕ) :
    (scanStep mem start).last < mem.length ↔ stopsAt (mem.drop start) ≠ [] := by
  have hle := (stopsAt_suffix (mem.drop start)).length_le
  rw [List.length_drop] at hle
  rw [← List.length_pos_iff, scanStep, List.length_drop]
  dsimp only
  omega

/-- What is left of some memory behind a step. -/
theorem drop_scanStep (mem : List UInt8) (start : ℕ) :
    mem.drop (scanStep mem start).next = (behindNumber (mem.drop start)).drop 1 := by
  have hdrop := List.suffix_iff_eq_drop.mp (behindNumber_suffix (mem.drop start))
  conv_rhs => rw [hdrop]
  rw [List.drop_drop, List.drop_drop, scanStep]
  congr 1

/-- **A step of the model** is one of these, or a fault. -/
theorem scanOctet_drop (mem : List UInt8) (start : ℕ) :
    if (scanStep mem start).last < mem.length then
      ∃ a, scanOctet (mem.drop start) = .ok (a, mem.drop (scanStep mem start).next)
    else scanOctet (mem.drop start) = .error .memory := by
  rw [if_congr (scanStep_last_lt_iff mem start) rfl rfl, scanOctet, drop_scanStep]
  split_ifs with hstop
  · rw [strtoul_of_stopsAt hstop, ok_bind]
    exact ⟨_, rfl⟩
  · rw [strtoul_eq_error (not_not.mp hstop), error_bind]

/-- The pointer behind a number of steps. -/
def scanEnd (mem : List UInt8) : ℕ → ℕ → ℕ
  | 0, start => start
  | n + 1, start => scanEnd mem n (scanStep mem start).next

/-- **The scan** succeeds exactly if no step examines a byte behind the memory, and leaves
the pointer where the steps do. -/
theorem scanOctets_drop (mem : List UInt8) (n start : ℕ) :
    if ∀ st ∈ scanSteps mem n start, st.last < mem.length then
      ∃ octets, scanOctets n (mem.drop start) = .ok (octets, mem.drop (scanEnd mem n start))
    else scanOctets n (mem.drop start) = .error .memory := by
  induction n generalizing start with
  | zero =>
      rw [if_pos (fun st hst => (nomatch hst))]
      exact ⟨[], rfl⟩
  | succ n ih =>
      have hstep := scanOctet_drop mem start
      have hrest := ih (scanStep mem start).next
      rw [scanSteps, if_congr List.forall_mem_cons rfl rfl, scanOctets]
      by_cases hlast : (scanStep mem start).last < mem.length
      · rw [if_pos hlast] at hstep
        obtain ⟨a, ha⟩ := hstep
        rw [ha, ok_bind]
        dsimp only
        by_cases hmore : ∀ st ∈ scanSteps mem n (scanStep mem start).next, st.last < mem.length
        · rw [if_pos hmore] at hrest
          obtain ⟨octets, hoctets⟩ := hrest
          rw [if_pos ⟨hlast, hmore⟩, hoctets, ok_bind]
          exact ⟨a :: octets, rfl⟩
        · rw [if_neg hmore] at hrest
          rw [if_neg fun h => hmore h.2, hrest, error_bind]
      · rw [if_neg hlast] at hstep
        rw [if_neg fun h => hlast h.1, hstep, error_bind]

/-- The scan of an address in some memory. -/
theorem scanDotted_ok_iff (mem : List UInt8) :
    (∃ r, scanDotted mem = .ok r) ↔ ∀ st ∈ scanSteps mem 4 0, st.last < mem.length := by
  have h := scanOctets_drop mem 4 0
  rw [List.drop_zero, ← scanDotted_eq_scanOctets] at h
  constructor
  · rintro ⟨r, hr⟩
    by_contra hnot
    rw [if_neg hnot, hr] at h
    cases h
  · intro hall
    rw [if_pos hall] at h
    obtain ⟨octets, hoctets⟩ := h
    exact ⟨_, hoctets⟩

/-! ### Texts -/

/-- A number as `strtoul` takes one: white space, a sign or none, and digits. -/
def IsNumber (w : List UInt8) : Prop :=
  ∃ space sign digits, w = space ++ (sign ++ digits) ∧ (∀ c ∈ space, isspace c = true) ∧
    (sign = [] ∨ sign = [45] ∨ sign = [43]) ∧ digits ≠ [] ∧ ∀ c ∈ digits, isdigit c = true

/-- A text has `n` numbers with a character behind each of them. Where no number begins, the
character stands alone. -/
inductive Octets : ℕ → List UInt8 → Prop
  | zero (text : List UInt8) : Octets 0 text
  | number {n : ℕ} {w : List UInt8} {c : UInt8} {rest : List UInt8} (hw : IsNumber w)
      (hc : isdigit c = false) (h : Octets n rest) : Octets (n + 1) (w ++ c :: rest)
  | missing {n : ℕ} {c : UInt8} {rest : List UInt8}
      (hnone : ∀ w back, IsNumber w → c :: rest ≠ w ++ back) (h : Octets n rest) :
      Octets (n + 1) (c :: rest)

/-- The sign in front of a text. -/
theorem exists_sign (body : List UInt8) :
    ∃ sign, (sign = [] ∨ sign = [45] ∨ sign = [43]) ∧ body = sign ++ unsigned body := by
  rw [unsigned]
  split_ifs with hsign
  · cases body with
    | nil => cases hsign
    | cons c body =>
        refine ⟨[c], ?_, rfl⟩
        rcases Bool.or_eq_true_iff.mp hsign with h | h
        · exact Or.inr (Or.inl (by simpa using h))
        · exact Or.inr (Or.inr (by simpa using h))
  · exact ⟨[], Or.inl rfl, rfl⟩

theorem unsigned_cons_of_isdigit {c : UInt8} (hc : isdigit c = true) (back : List UInt8) :
    unsigned (c :: back) = c :: back := by
  obtain ⟨-, hminus, hplus⟩ := not_isspace_of_isdigit hc
  rw [unsigned, if_neg (by simp [hminus, hplus])]

/-- In front of a text a number is read down to its digits. -/
theorem IsNumber.unsigned_append {w : List UInt8} (h : IsNumber w) :
    ∃ digits, digits ≠ [] ∧ (∀ c ∈ digits, isdigit c = true) ∧
      ∀ back, unsigned ((w ++ back).dropWhile isspace) = digits ++ back := by
  obtain ⟨space, sign, digits, rfl, hspace, hsign, hne, hdigits⟩ := h
  obtain ⟨d, ds, rfl⟩ := List.exists_cons_of_ne_nil hne
  have hd := hdigits d List.mem_cons_self
  refine ⟨d :: ds, hne, hdigits, fun back => ?_⟩
  rw [List.append_assoc, List.dropWhile_append_of_pos hspace]
  rcases hsign with rfl | rfl | rfl
  · rw [List.nil_append, List.cons_append,
      List.dropWhile_cons_of_neg (by simp [(not_isspace_of_isdigit hd).1]),
      unsigned_cons_of_isdigit hd]
  · rfl
  · rfl

/-- **Behind a number** stands what follows it. -/
theorem behindNumber_number {w back : List UInt8} (h : IsNumber w)
    (hback : ∀ c ∈ back.head?, isdigit c = false) : behindNumber (w ++ back) = back := by
  obtain ⟨digits, hne, hdigits, hunsigned⟩ := h.unsigned_append
  have hnone : back.takeWhile isdigit = [] ∧ back.dropWhile isdigit = back := by
    cases back with
    | nil => exact ⟨rfl, rfl⟩
    | cons c back =>
        have hc := hback c rfl
        exact ⟨List.takeWhile_cons_of_neg (by simp [hc]), List.dropWhile_cons_of_neg (by simp [hc])⟩
  rw [behindNumber, hunsigned, List.takeWhile_append_of_pos hdigits,
    List.dropWhile_append_of_pos hdigits, hnone.1, hnone.2, List.append_nil, if_neg hne]

/-- **Without a number** the pointer stays where it was. -/
theorem behindNumber_missing {text : List UInt8} (h : ∀ w back, IsNumber w → text ≠ w ++ back) :
    behindNumber text = text := by
  rw [behindNumber]
  refine if_pos ?_
  by_contra hne
  obtain ⟨sign, hsign, hbody⟩ := exists_sign (text.dropWhile isspace)
  refine h
    (text.takeWhile isspace ++ (sign ++ (unsigned (text.dropWhile isspace)).takeWhile isdigit))
    ((unsigned (text.dropWhile isspace)).dropWhile isdigit)
    ⟨_, sign, _, rfl, fun c hc => List.mem_takeWhile_imp hc, hsign, hne,
      fun c hc => List.mem_takeWhile_imp hc⟩ ?_
  rw [List.append_assoc, List.append_assoc, List.takeWhile_append_dropWhile, ← hbody,
    List.takeWhile_append_dropWhile]

/-- What stands in front of the rest is a number, or nothing. -/
theorem number_or_missing (text : List UInt8) :
    (∃ w, IsNumber w ∧ text = w ++ behindNumber text ∧
        ∀ c ∈ (behindNumber text).head?, isdigit c = false) ∨
      ∀ w back, IsNumber w → text ≠ w ++ back := by
  refine or_iff_not_imp_right.mpr fun hnot => ?_
  obtain ⟨w, back, hw, rfl⟩ : ∃ w back, IsNumber w ∧ text = w ++ back := by
    by_contra hnone
    exact hnot fun w back hw htext => hnone ⟨w, back, hw, htext⟩
  -- the number may go on
  have hmore : IsNumber (w ++ back.takeWhile isdigit) := by
    obtain ⟨space, sign, digits, rfl, hspace, hsign, hne, hdigits⟩ := hw
    refine ⟨space, sign, digits ++ back.takeWhile isdigit, by simp, hspace, hsign, by simp [hne],
      fun c hc => ?_⟩
    exact (List.mem_append.mp hc).elim (hdigits c) fun hc => List.mem_takeWhile_imp hc
  have hhead : ∀ c ∈ (back.dropWhile isdigit).head?, isdigit c = false := by
    intro c hc
    have hnot := List.head?_dropWhile_not isdigit back
    rw [Option.mem_def.mp hc] at hnot
    simpa using hnot
  have hbehind := behindNumber_number hmore hhead
  rw [List.append_assoc, List.takeWhile_append_dropWhile] at hbehind
  refine ⟨_, hmore, ?_, hbehind ▸ hhead⟩
  rw [hbehind, List.append_assoc, List.takeWhile_append_dropWhile]

/-- **One octet**, read by `strtoul`. -/
theorem octets_succ_iff {n : ℕ} {text : List UInt8} :
    Octets (n + 1) text ↔ ∃ c rest, behindNumber text = c :: rest ∧ Octets n rest := by
  constructor
  · rintro (_ | ⟨hw, hc, h⟩ | ⟨hnone, h⟩)
    · exact ⟨_, _, behindNumber_number hw (by simpa using hc), h⟩
    · exact ⟨_, _, behindNumber_missing hnone, h⟩
  · rintro ⟨c, rest, hbehind, h⟩
    rcases number_or_missing text with ⟨w, hw, htext, hhead⟩ | hnone
    · rw [hbehind] at htext hhead
      rw [htext]
      exact .number hw (hhead c rfl) h
    · rw [behindNumber_missing hnone] at hbehind
      rw [hbehind] at hnone ⊢
      exact .missing hnone h

/-! ### Texts and their terminator -/

section Terminator

variable (text rest : List UInt8)

theorem dropWhile_append_zero {p : UInt8 → Bool} (hp : p 0 = false) :
    (text ++ 0 :: rest).dropWhile p = text.dropWhile p ++ 0 :: rest := by
  induction text with
  | nil => exact List.dropWhile_cons_of_neg (by simp [hp])
  | cons c text ih =>
      rw [List.cons_append]
      by_cases hc : p c = true
      · rw [List.dropWhile_cons_of_pos hc, List.dropWhile_cons_of_pos hc, ih]
      · rw [List.dropWhile_cons_of_neg hc, List.dropWhile_cons_of_neg hc, List.cons_append]

theorem takeWhile_append_zero {p : UInt8 → Bool} (hp : p 0 = false) :
    (text ++ 0 :: rest).takeWhile p = text.takeWhile p := by
  induction text with
  | nil => exact List.takeWhile_cons_of_neg (by simp [hp])
  | cons c text ih =>
      rw [List.cons_append]
      by_cases hc : p c = true
      · rw [List.takeWhile_cons_of_pos hc, List.takeWhile_cons_of_pos hc, ih]
      · rw [List.takeWhile_cons_of_neg hc, List.takeWhile_cons_of_neg hc]

theorem unsigned_append_zero : unsigned (text ++ 0 :: rest) = unsigned text ++ 0 :: rest := by
  cases text with
  | nil => rfl
  | cons c text =>
      rw [unsigned, unsigned, List.cons_append, List.head?_cons, List.head?_cons]
      split_ifs <;> rfl

/-- `strtoul` stops in front of the terminator, or at it. -/
theorem stopsAt_append_zero : stopsAt (text ++ 0 :: rest) = stopsAt text ++ 0 :: rest := by
  rw [stopsAt, dropWhile_append_zero _ _ rfl, unsigned_append_zero, dropWhile_append_zero _ _ rfl,
    stopsAt]

theorem behindNumber_append_zero :
    behindNumber (text ++ 0 :: rest) = behindNumber text ++ 0 :: rest := by
  rw [behindNumber, behindNumber, dropWhile_append_zero _ _ rfl, unsigned_append_zero,
    takeWhile_append_zero _ _ rfl, dropWhile_append_zero _ _ rfl]
  split_ifs <;> rfl

variable {text} {start : ℕ}

/-- A step that begins in a text examines nothing behind the terminator. -/
theorem scanStep_last_le (h : start ≤ text.length) :
    (scanStep (text ++ 0 :: rest) start).last ≤ text.length := by
  have hle := (stopsAt_suffix (text.drop start)).length_le
  have hlen := List.length_drop (i := start) (l := text)
  rw [scanStep, List.drop_append_of_le_length h, stopsAt_append_zero]
  simp only [List.length_append]
  omega

theorem scanStep_next (h : start ≤ text.length) :
    (scanStep (text ++ 0 :: rest) start).next =
      text.length - (behindNumber (text.drop start)).length + 1 := by
  have hle := (behindNumber_suffix (text.drop start)).length_le
  have hlen := List.length_drop (i := start) (l := text)
  rw [scanStep, List.drop_append_of_le_length h, behindNumber_append_zero]
  simp only [List.length_append]
  omega

/-- It leaves the text exactly if no character follows the number. -/
theorem scanStep_next_le_iff (h : start ≤ text.length) :
    (scanStep (text ++ 0 :: rest) start).next ≤ text.length ↔
      behindNumber (text.drop start) ≠ [] := by
  have hle := (behindNumber_suffix (text.drop start)).length_le
  rw [List.length_drop] at hle
  rw [scanStep_next rest h, ← List.length_pos_iff]
  omega

/-- **One octet** of a text is one step in it. -/
theorem octets_drop_succ_iff {n : ℕ} (h : start ≤ text.length) :
    Octets (n + 1) (text.drop start) ↔
      (scanStep (text ++ 0 :: rest) start).next ≤ text.length ∧
        Octets n (text.drop (scanStep (text ++ 0 :: rest) start).next) := by
  have hle := (behindNumber_suffix (text.drop start)).length_le
  rw [List.length_drop] at hle
  have hnext : text.drop (text.length - (behindNumber (text.drop start)).length) =
      behindNumber (text.drop start) := by
    conv_rhs => rw [List.suffix_iff_eq_drop.mp (behindNumber_suffix (text.drop start)),
      List.drop_drop, List.length_drop]
    congr 1
    omega
  rw [octets_succ_iff, scanStep_next_le_iff rest h, scanStep_next rest h, ← List.drop_drop, hnext]
  cases behindNumber (text.drop start) with
  | nil => simp
  | cons c back => simp

/-- The steps that leave the pointer in the text, or at its terminator. -/
theorem scanSteps_next_iff (n : ℕ) (h : start ≤ text.length) :
    (∀ st ∈ scanSteps (text ++ 0 :: rest) n start, st.next ≤ text.length) ↔
      Octets n (text.drop start) := by
  induction n generalizing start with
  | zero => exact ⟨fun _ => .zero _, fun _ st hst => (nomatch hst)⟩
  | succ n ih =>
      rw [scanSteps, List.forall_mem_cons, octets_drop_succ_iff rest h]
      exact and_congr_right fun hnext => ih hnext

/-- **The steps that examine bytes of the text** and its terminator only: all but the last
have to leave the pointer there. -/
theorem scanSteps_last_iff (n : ℕ) (h : start ≤ text.length) :
    (∀ st ∈ scanSteps (text ++ 0 :: rest) (n + 1) start, st.last ≤ text.length) ↔
      Octets n (text.drop start) := by
  induction n generalizing start with
  | zero =>
      refine ⟨fun _ => .zero _, fun _ => ?_⟩
      rw [scanSteps, List.forall_mem_cons]
      exact ⟨scanStep_last_le rest h, fun st hst => (nomatch hst)⟩
  | succ n ih =>
      rw [scanSteps, List.forall_mem_cons, octets_drop_succ_iff rest h,
        and_iff_right (scanStep_last_le rest h)]
      by_cases hnext : (scanStep (text ++ 0 :: rest) start).next ≤ text.length
      · rw [and_iff_right hnext]
        exact ih hnext
      · -- the next step begins behind the terminator
        refine iff_of_false (fun hall => hnext ?_) fun hoctets => hnext hoctets.1
        rw [scanSteps, List.forall_mem_cons] at hall
        exact (Nat.le_add_right _ _).trans hall.1

theorem le_scanEnd (mem : List UInt8) (n start : ℕ) : start ≤ scanEnd mem n start := by
  induction n generalizing start with
  | zero => exact Nat.le_refl start
  | succ n ih =>
      have hstep : start ≤ (scanStep mem start).next := by
        rw [scanStep]
        dsimp only
        omega
      exact hstep.trans (ih _)

/-- The scan ends in the text exactly if all steps do. -/
theorem scanEnd_le_iff (n : ℕ) (h : start ≤ text.length) :
    scanEnd (text ++ 0 :: rest) n start ≤ text.length ↔ Octets n (text.drop start) := by
  induction n generalizing start with
  | zero => exact ⟨fun _ => .zero _, fun _ => h⟩
  | succ n ih =>
      rw [scanEnd, octets_drop_succ_iff rest h]
      by_cases hnext : (scanStep (text ++ 0 :: rest) start).next ≤ text.length
      · rw [and_iff_right hnext]
        exact ih hnext
      · exact iff_of_false (fun hend => hnext ((le_scanEnd _ _ _).trans hend))
          fun hoctets => hnext hoctets.1

end Terminator

/-! ### The two programs -/

/-- A text with `n + 1` octets has `n` of them. -/
theorem Octets.of_succ {n : ℕ} {text : List UInt8} (h : Octets (n + 1) text) :
    Octets n text := by
  induction n generalizing text with
  | zero => exact .zero text
  | succ n ih =>
      obtain ⟨c, back, hbehind, hback⟩ := octets_succ_iff.mp h
      exact octets_succ_iff.mpr ⟨c, back, hbehind, ih hback⟩

/-- The steps on a text with any memory behind its terminator. -/
theorem scanSteps_text_iff (text rest : List UInt8) :
    ((∀ st ∈ scanSteps (text ++ 0 :: rest) 4 0, st.last ≤ text.length) ↔ Octets 3 text) ∧
      ((∀ st ∈ scanSteps (text ++ 0 :: rest) 4 0, st.next ≤ text.length) ↔ Octets 4 text) := by
  have hlast := scanSteps_last_iff rest 3 (Nat.zero_le text.length)
  have hnext := scanSteps_next_iff rest 4 (Nat.zero_le text.length)
  rw [List.drop_zero] at hlast hnext
  exact ⟨hlast, hnext⟩

/-- The scan of a text in memory that ends with it. -/
theorem scanDotted_text_iff (text : List UInt8) :
    (∃ r, scanDotted (text ++ [0]) = .ok r) ↔ Octets 3 text := by
  rw [scanDotted_ok_iff, ← (scanSteps_text_iff text []).1]
  simp only [List.length_append, List.length_singleton, Nat.lt_add_one_iff]

/-- **The Postfix client** builds its packet. -/
theorem pfcRequest_text_iff (ndebug : Bool) {secret sender recipient : List UInt8}
    (hsecret : secret ≠ []) (hsender : 0 ∈ sender) (hrecipient : 0 ∈ recipient)
    (text : List UInt8) :
    (∃ packet, pfcRequest ndebug secret (text ++ [0]) sender recipient = .ok packet) ↔
      Octets 3 text := by
  rw [← scanDotted_text_iff, pfcRequest, cstring_eq hsender, ok_bind, cstring_eq hrecipient,
    ok_bind]
  constructor
  · rintro ⟨packet, h⟩
    obtain ⟨r, hr, -⟩ := bind_eq_ok.mp h
    exact ⟨r, hr⟩
  · rintro ⟨⟨ip, back⟩, hr⟩
    have hip := length_of_scanDotted hr
    rw [hr, ok_bind]
    refine ⟨_, signPacket_eq ?_ ?_ hsecret⟩
    · simp [greylistRequest, requestBody]
    · simp [greylistRequest, requestBody]
      omega

/-- **`whitelist_load`** reads a line. -/
theorem WhiteLine.tuple_text_iff (cgi : CgiLib) (ndebug : Bool) (now : ℤ) {line : WhiteLine}
    (hrest : line.rest = []) :
    (∃ t, line.tuple cgi ndebug now = .ok t) ↔ Octets 4 (cgi.trimSpace line.text) := by
  have hscan := scanOctets_drop (cgi.trimSpace line.text ++ [0]) 4 0
  have hok := scanDotted_ok_iff (cgi.trimSpace line.text ++ [0])
  have hend := scanEnd_le_iff [] 4 (Nat.zero_le (cgi.trimSpace line.text).length)
  rw [List.drop_zero, ← scanDotted_eq_scanOctets] at hscan
  rw [List.drop_zero] at hend
  rw [WhiteLine.tuple, hrest]
  constructor
  · rintro ⟨t, h⟩
    obtain ⟨⟨ip, p⟩, hr, h⟩ := bind_eq_ok.mp h
    obtain ⟨text, hcstring, -⟩ := bind_eq_ok.mp h
    rw [if_pos (hok.mp ⟨_, hr⟩), hr] at hscan
    obtain ⟨octets, hoctets⟩ := hscan
    cases hoctets
    refine hend.mp ?_
    by_contra hlt
    rw [cstring, List.drop_eq_nil_of_le (by simp; omega), if_neg List.not_mem_nil] at hcstring
    cases hcstring
  · intro h
    have hlen := hend.mpr h
    rw [if_pos (hok.mp ((scanDotted_text_iff _).mpr h.of_succ))] at hscan
    obtain ⟨octets, hoctets⟩ := hscan
    have hzero : 0 ∈ (cgi.trimSpace line.text ++ [0]).drop
        (scanEnd (cgi.trimSpace line.text ++ [0]) 4 0) := by
      rw [List.drop_append_of_le_length hlen]
      exact List.mem_append_right _ (List.mem_singleton_self 0)
    rw [hoctets, ok_bind]
    dsimp only
    rw [cstring_eq hzero, ok_bind]
    split
    · exact ⟨_, rfl⟩
    · exact ⟨_, rfl⟩

/-- The steps of `whitelist_load` on a line, which passes over one without a text. -/
def WhiteLine.steps (cgi : CgiLib) (line : WhiteLine) : List ScanStep :=
  if cgi.emptyString line.text then []
  else scanSteps (cgi.trimSpace line.text ++ 0 :: line.rest) 4 0

theorem WhiteLine.steps_iff (cgi : CgiLib) (line : WhiteLine) :
    ((∀ st ∈ line.steps cgi, st.last ≤ (cgi.trimSpace line.text).length) ↔
        cgi.emptyString line.text = true ∨ Octets 3 (cgi.trimSpace line.text)) ∧
      ((∀ st ∈ line.steps cgi, st.next ≤ (cgi.trimSpace line.text).length) ↔
        cgi.emptyString line.text = true ∨ Octets 4 (cgi.trimSpace line.text)) := by
  rw [WhiteLine.steps]
  split_ifs with hempty
  · exact ⟨iff_of_true (fun st hst => (nomatch hst)) (Or.inl hempty),
      iff_of_true (fun st hst => (nomatch hst)) (Or.inl hempty)⟩
  · rw [or_iff_right hempty, or_iff_right hempty]
    exact scanSteps_text_iff _ line.rest

/-- **How far an address is read.** The four steps examine nothing behind the terminator of
a text exactly if it has three octets with a character behind each of them, and they leave the
pointer in it exactly if it has four. `whitelist_load` passes over an empty line. Where the
memory ends with the text, the packet of the Postfix client and the tuple of a line come about
in just these cases. -/
theorem dottedScan_iff (ip rest : List UInt8) (cgi : CgiLib) (line : WhiteLine) :
    (((∀ st ∈ scanSteps (ip ++ 0 :: rest) 4 0, st.last ≤ ip.length) ↔ Octets 3 ip) ∧
        ((∀ st ∈ scanSteps (ip ++ 0 :: rest) 4 0, st.next ≤ ip.length) ↔ Octets 4 ip)) ∧
      (((∀ st ∈ line.steps cgi, st.last ≤ (cgi.trimSpace line.text).length) ↔
          cgi.emptyString line.text = true ∨ Octets 3 (cgi.trimSpace line.text)) ∧
        ((∀ st ∈ line.steps cgi, st.next ≤ (cgi.trimSpace line.text).length) ↔
          cgi.emptyString line.text = true ∨ Octets 4 (cgi.trimSpace line.text))) ∧
      (∀ (ndebug : Bool) (secret sender recipient : List UInt8), secret ≠ [] →
        0 ∈ sender → 0 ∈ recipient →
        ((∃ packet, pfcRequest ndebug secret (ip ++ [0]) sender recipient = .ok packet) ↔
          Octets 3 ip)) ∧
      ∀ (ndebug : Bool) (now : ℤ), line.rest = [] →
        ((∃ t, line.tuple cgi ndebug now = .ok t) ↔ Octets 4 (cgi.trimSpace line.text)) :=
  ⟨scanSteps_text_iff ip rest, line.steps_iff cgi,
    fun ndebug _ _ _ hsecret hsender hrecipient =>
      pfcRequest_text_iff ndebug hsecret hsender hrecipient ip,
    fun ndebug now hrest => WhiteLine.tuple_text_iff cgi ndebug now hrest⟩

/-- A request that gives no address: the second step begins behind the empty string, and so
do the steps on a line with one number. -/
theorem dottedScan_empty :
    (∃ s, processRequest false 64 (PolicyInput.start 64 [ascii "sender=a\n\n"])
        ⟨Ift.accept, 14⟩ =
        .ok (s, some
          { query := { request := [], sender := ascii "a", recipient := [], ip := [] }
            reply := MailAnswer.pass.text })) ∧
      pfcRequest false (ascii "decafbad") ([] ++ [0]) (ascii "a" ++ [0]) ([] ++ [0]) =
        .error .memory ∧
      WhiteLine.tuple stdCgi false 0 ⟨ascii "10\n", [], 0⟩ = .error .memory ∧
      (∃ st ∈ scanSteps ([] ++ 0 :: []) 4 0, ([] : List UInt8).length < st.last) ∧
      ∃ st ∈ WhiteLine.steps stdCgi ⟨ascii "10\n", [], 0⟩,
        (stdCgi.trimSpace (ascii "10\n")).length < st.last := by
  refine ⟨?_, rfl, rfl, ?_, ?_⟩
  · have hpending : (PolicyInput.start 64 [ascii "sender=a\n\n"]).pending =
        requestText [senderLine] ++ [] := rfl
    have hfine : Reaction.Fine ⟨Ift.accept, 14⟩ := by decide
    obtain ⟨s, hs, -⟩ := processRequest_request false (by decide) [senderLine] hfine
      (PolicyInput.ok_start 64 (by decide)) hpending
    exact ⟨s, hs⟩
  · decide
  · decide

end XGrey
