import Mathlib.Data.List.DropRight
import XGrey.Dotted

/-!
# The Formats of the State Files

What the programs write with `fprintf`, and how it comes apart again when they read it:
numbers and texts that are padded on the left, fields that are separated by white space,
and the names of the commands.

CGILib is not part of the sources. `CgiLib.Behaves` says what its functions on texts do
according to their names, and `stdCgi` is a library that does it.

## Main results

* `CgiLib.Behaves.trimSpace_line`: trimming a line takes off the padding and the newline.
* `splitLoop_word`, `splitLoop_spaces`: how `split` goes through the fields of a line.
* `ciMapInt_ciMapChars`: a command is found again under its name.
-/

open CRuntime Lexicographic

namespace XGrey

/-! ### CGILib -/

/-- `toupper` in the C locale. -/
def toupper (c : UInt8) : UInt8 := if 97 ≤ c ∧ c ≤ 122 then c - 32 else c

/-- A text without the white space at its ends. -/
def trimmed (s : List UInt8) : List UInt8 := (s.dropWhile isspace).rdropWhile isspace

/-- The functions of CGILib do what they are named for. -/
structure CgiLib.Behaves (cgi : CgiLib) : Prop where
  emptyString_iff : ∀ s, cgi.emptyString s = true ↔ ∀ c ∈ s, isspace c = true
  trimSpace_eq : ∀ s, cgi.trimSpace s = trimmed s
  upString_eq : ∀ s, cgi.upString s = s.map toupper

/-- Such a library. -/
def stdCgi : CgiLib where
  emptyString := fun s => s.all isspace
  trimSpace := trimmed
  upString := List.map toupper

theorem stdCgi_behaves : stdCgi.Behaves where
  emptyString_iff := fun _ => List.all_eq_true
  trimSpace_eq := fun _ => rfl
  upString_eq := fun _ => rfl

/-- A text that neither begins nor ends with white space is what is left of it with white
space around it. -/
theorem trimmed_eq {front body back : List UInt8} (hfront : ∀ c ∈ front, isspace c = true)
    (hback : ∀ c ∈ back, isspace c = true) {c d : UInt8} (hc : isspace c = false)
    (hd : isspace d = false) (hhead : body.head? = some c) (hlast : body.getLast? = some d) :
    trimmed (front ++ body ++ back) = body := by
  have hdrop : (front ++ body ++ back).dropWhile isspace = body ++ back := by
    rw [List.append_assoc, List.dropWhile_append_of_pos hfront]
    cases body with
    | nil => cases hhead
    | cons b body =>
        cases hhead
        rw [List.cons_append, List.dropWhile_cons_of_neg (by simp [hc])]
  obtain ⟨init, rfl⟩ := List.getLast?_eq_some_iff.mp hlast
  rw [trimmed, hdrop, List.rdropWhile, List.reverse_append,
    List.dropWhile_append_of_pos (by simpa using hback), List.reverse_append,
    List.reverse_singleton, List.singleton_append, List.dropWhile_cons_of_neg (by simp [hd]),
    List.reverse_cons, List.reverse_reverse]

/-- White space at the end does not matter. -/
theorem trimmed_append {s back : List UInt8} (hback : ∀ c ∈ back, isspace c = true) :
    trimmed (s ++ back) = trimmed s := by
  rw [trimmed, trimmed, List.dropWhile_append]
  split_ifs with hempty
  · rw [List.isEmpty_iff.mp hempty, List.dropWhile_eq_nil_iff.mpr hback]
  · rw [List.rdropWhile, List.rdropWhile, List.reverse_append,
      List.dropWhile_append_of_pos (by simpa using hback)]

/-- Trimming stops at a character that is no white space. -/
theorem trimmed_append_of_last {s rest : List UInt8} {c d : UInt8} (hc : isspace c = false)
    (hd : isspace d = false) (hhead : s.head? = some c) (hlast : s.getLast? = some d) :
    trimmed (s ++ rest) = s ++ rest.rdropWhile isspace := by
  have hdrop : (s ++ rest).dropWhile isspace = s ++ rest := by
    cases s with
    | nil => cases hhead
    | cons b s =>
        cases hhead
        rw [List.cons_append, List.dropWhile_cons_of_neg (by simp [hc])]
  obtain ⟨init, rfl⟩ := List.getLast?_eq_some_iff.mp hlast
  rw [trimmed, hdrop, List.rdropWhile, List.rdropWhile, List.reverse_append,
    List.dropWhile_append]
  split_ifs with hempty
  · rw [List.isEmpty_iff.mp hempty, List.reverse_append, List.reverse_singleton,
      List.singleton_append, List.dropWhile_cons_of_neg (by simp [hd])]
    simp
  · rw [List.reverse_append, List.reverse_reverse]

/-- Trimming makes no characters. -/
theorem mem_of_mem_trimmed {s : List UInt8} {c : UInt8} (h : c ∈ trimmed s) : c ∈ s :=
  (List.dropWhile_sublist _).subset ((List.rdropWhile_prefix _ _).subset h)

/-- What is trimmed does not end with white space. -/
theorem isspace_getLast?_trimmed {s : List UInt8} {c : UInt8}
    (h : (trimmed s).getLast? = some c) : isspace c = false := by
  have hne : trimmed s ≠ [] := by
    intro hnil
    rw [hnil] at h
    cases h
  rw [List.getLast?_eq_some_getLast hne, Option.some.injEq] at h
  rw [← h, Bool.eq_false_iff]
  exact List.rdropWhile_last_not _ _ hne

/-- **Trimming a line** that was written with padding in front and a newline at the end. -/
theorem CgiLib.Behaves.trimSpace_line {cgi : CgiLib} (h : cgi.Behaves)
    {front body : List UInt8} (hfront : ∀ c ∈ front, isspace c = true) {c d : UInt8}
    (hc : isspace c = false) (hd : isspace d = false) (hhead : body.head? = some c)
    (hlast : body.getLast? = some d) : cgi.trimSpace (front ++ body ++ [10]) = body := by
  have hnewline : ∀ c ∈ [(10 : UInt8)], isspace c = true := List.forall_mem_singleton.mpr rfl
  rw [h.trimSpace_eq, trimmed_eq hfront hnewline hc hd hhead hlast]

/-- A line with something in it is not empty. -/
theorem CgiLib.Behaves.emptyString_eq_false {cgi : CgiLib} (h : cgi.Behaves)
    {s : List UInt8} {c : UInt8} (hc : c ∈ s) (hspace : isspace c = false) :
    cgi.emptyString s = false := by
  rw [Bool.eq_false_iff]
  intro hempty
  have := (h.emptyString_iff s).mp hempty c hc
  rw [hspace] at this
  cases this

/-! ### Padding -/

/-- A text padded with blanks to a width, as `%ws` and `%wlu` print it. -/
def padLeft (width : ℕ) (s : List UInt8) : List UInt8 :=
  List.replicate (width - s.length) 32 ++ s

/-- `%w.ps`: no more than the precision is printed. -/
def padded (width precision : ℕ) (s : List UInt8) : List UInt8 :=
  padLeft width (s.take precision)

theorem padded_of_le {width precision : ℕ} {s : List UInt8} (h : s.length ≤ precision) :
    padded width precision s = padLeft width s := by
  rw [padded, List.take_of_length_le h]

/-- The padding is white space. -/
theorem padLeft_eq (width : ℕ) (s : List UInt8) :
    ∃ front, padLeft width s = front ++ s ∧ ∀ c ∈ front, isspace c = true := by
  refine ⟨_, rfl, fun c hc => ?_⟩
  rw [List.eq_of_mem_replicate hc]
  rfl

/-- What is printed with padding has the characters that it has, and blanks. -/
theorem mem_padLeft {width : ℕ} {s : List UInt8} {c : UInt8} (h : c ∈ padLeft width s) :
    c = 32 ∨ c ∈ s := by
  rw [padLeft, List.mem_append] at h
  exact h.imp_left List.eq_of_mem_replicate

/-- A number of few digits. -/
theorem length_decimal_le {n k : ℕ} (hk : 0 < k) (h : n < 10 ^ k) :
    (decimal n).length ≤ k := by
  induction k generalizing n with
  | zero => exact absurd hk (Nat.lt_irrefl 0)
  | succ k ih =>
      rw [decimal]
      by_cases hn : n < 10
      · rw [if_pos hn]
        exact Nat.succ_le_succ (Nat.zero_le k)
      · rw [if_neg hn, List.length_append]
        rw [pow_succ] at h
        have hpos : 0 < k := by
          rcases Nat.eq_zero_or_pos k with rfl | hpos
          · exact absurd h (by omega)
          · exact hpos
        exact Nat.succ_le_succ (ih hpos (Nat.div_lt_of_lt_mul (by omega)))

/-! ### Fields -/

/-- A text without white space. -/
structure Token (text : List UInt8) : Prop where
  ne_nil : text ≠ []
  not_isspace : ∀ c ∈ text, isspace c = false

theorem Token.of_all {text : List UInt8} (hnil : text ≠ [])
    (h : text.all (fun c => !isspace c) = true) : Token text :=
  ⟨hnil, fun c hc => by simpa using List.all_eq_true.mp h c hc⟩

theorem Token.getLast? {text : List UInt8} (h : Token text) :
    ∃ d, text.getLast? = some d ∧ isspace d = false :=
  ⟨text.getLast h.ne_nil, List.getLast?_eq_some_getLast h.ne_nil,
    h.not_isspace _ (List.getLast_mem h.ne_nil)⟩

theorem Token.notMem {text : List UInt8} (h : Token text) {c : UInt8}
    (hc : isspace c = true) : c ∉ text := by
  intro hmem
  have := h.not_isspace c hmem
  rw [hc] at this
  cases this

/-- A number in decimal is a field. -/
theorem token_decimal (n : ℕ) : Token (decimal n) :=
  ⟨decimal_ne_nil n, fun _ hc => (not_isspace_of_isdigit (isdigit_of_mem_decimal hc)).1⟩

/-- White space in front of a field is skipped. -/
theorem splitLoop_cons {c : UInt8} (hc : isspace c = true) (txt : List UInt8) :
    splitLoop (c :: txt) = splitLoop txt := by
  rw [splitLoop, List.dropWhile_cons_of_pos hc, ← splitLoop]

theorem splitLoop_spaces {front : List UInt8} (hfront : ∀ c ∈ front, isspace c = true)
    (txt : List UInt8) : splitLoop (front ++ txt) = splitLoop txt := by
  induction front with
  | nil => rfl
  | cons c front ih =>
      obtain ⟨hc, hrest⟩ := List.forall_mem_cons.mp hfront
      rw [List.cons_append, splitLoop_cons hc, ih hrest]

/-- The parts into which the loop cuts a text that begins with a field. -/
theorem dropWhile_token {word : List UInt8} (h : Token word) (rest : List UInt8) :
    (word ++ rest).dropWhile isspace = word ++ rest := by
  obtain ⟨c, cs, rfl⟩ := List.exists_cons_of_ne_nil h.ne_nil
  have hc := h.not_isspace c List.mem_cons_self
  rw [List.cons_append, List.dropWhile_cons_of_neg (by simp [hc])]

/-- **A field** that ends at white space. -/
theorem splitLoop_word {word : List UInt8} (h : Token word) {c : UInt8}
    (hc : isspace c = true) (rest : List UInt8) :
    splitLoop (word ++ c :: rest) = word :: splitLoop rest := by
  have hword : ∀ x ∈ word, (! isspace x) = true := fun x hx => by simp [h.not_isspace x hx]
  have htake : (word ++ c :: rest).takeWhile (! isspace ·) = word := by
    rw [List.takeWhile_append_of_pos hword, List.takeWhile_cons_of_neg (by simp [hc]),
      List.append_nil]
  have hdrop : (word ++ c :: rest).dropWhile (! isspace ·) = c :: rest := by
    rw [List.dropWhile_append_of_pos hword, List.dropWhile_cons_of_neg (by simp [hc])]
  rw [splitLoop, dropWhile_token h, htake, hdrop, dif_neg h.ne_nil]
  rfl

/-- The last field of a text. -/
theorem splitLoop_last {word : List UInt8} (h : Token word) : splitLoop word = [word] := by
  have hword : ∀ x ∈ word, (! isspace x) = true := fun x hx => by simp [h.not_isspace x hx]
  have hself := dropWhile_token h []
  rw [List.append_nil] at hself
  have htake : word.takeWhile (! isspace ·) = word := List.takeWhile_eq_self_iff.mpr hword
  have hdrop : word.dropWhile (! isspace ·) = [] := List.dropWhile_eq_nil_iff.mpr hword
  rw [splitLoop, hself, htake, hdrop, dif_neg h.ne_nil, splitLoop]
  rfl

/-! ### Addresses -/

/-- A character of an address, with or without a prefix length. -/
def IsAddressChar (c : UInt8) : Prop := isdigit c = true ∨ c = 46 ∨ c = 47

theorem IsAddressChar.spec {c : UInt8} (h : IsAddressChar c) :
    isspace c = false ∧ toupper c = c := by
  rcases h with h | rfl | rfl
  · refine ⟨(not_isspace_of_isdigit h).1, if_neg fun hlower => ?_⟩
    simp only [isdigit, Bool.and_eq_true, decide_eq_true_eq, UInt8.le_iff_toNat_le] at h hlower
    have hle : c.toNat ≤ 57 := h.2
    have hge : 97 ≤ c.toNat := hlower.1
    omega
  · decide
  · decide

theorem isAddressChar_dotted {a b c d x : UInt8} (h : x ∈ dotted a b c d) :
    IsAddressChar x := by
  have hnum : ∀ {n : ℕ}, x ∈ decimal n → IsAddressChar x :=
    fun hx => Or.inl (isdigit_of_mem_decimal hx)
  simp only [dotted, List.mem_append, List.mem_cons] at h
  rcases h with h | rfl | h | rfl | h | rfl | h
  · exact hnum h
  · exact Or.inr (Or.inl rfl)
  · exact hnum h
  · exact Or.inr (Or.inl rfl)
  · exact hnum h
  · exact Or.inr (Or.inl rfl)
  · exact hnum h

/-- An address takes fifteen characters at most. -/
theorem length_dotted_le (a b c d : UInt8) : (dotted a b c d).length ≤ 15 := by
  have hoctet : ∀ x : UInt8, (decimal x.toNat).length ≤ 3 := fun x =>
    length_decimal_le (by omega) (lt_of_lt_of_le x.toNat_lt (by decide))
  have ha := hoctet a
  have hb := hoctet b
  have hc := hoctet c
  have hd := hoctet d
  simp only [dotted, List.length_append, List.length_cons]
  omega

/-! ### The names of the commands -/

/-- `ci_map_chars`, which returns an empty text for a value that is not in the list. -/
def ciMapChars (value : ℤ) (list : List (String × ℤ)) : List UInt8 :=
  match list.find? fun e => value = e.2 with
  | some e => ascii e.1
  | none => []

/-- A command that has a name. -/
def Named (cmd : ℤ) : Prop :=
  cmd = Ift.greylist ∨ cmd = Ift.accept ∨ cmd = Ift.reject ∨ cmd = Ift.remove ∨
    cmd = Ift.expire

/-- **A command is found again under its name**, though there is another name for
`IFT_GREYLIST`. -/
theorem ciMapInt_ciMapChars {cmd : ℤ} (h : Named cmd) :
    ciMapInt (ciMapChars cmd cIft) cIft = cmd := by
  rcases h with rfl | rfl | rfl | rfl | rfl <;> decide

/-- The name of a command is a field of at most eight characters in upper case. -/
theorem ciMapChars_spec {cmd : ℤ} (h : Named cmd) :
    Token (ciMapChars cmd cIft) ∧ (ciMapChars cmd cIft).length ≤ 8 ∧
      (ciMapChars cmd cIft).map toupper = ciMapChars cmd cIft := by
  rcases h with rfl | rfl | rfl | rfl | rfl <;>
    exact ⟨Token.of_all (by decide) (by decide), by decide, by decide⟩

end XGrey
