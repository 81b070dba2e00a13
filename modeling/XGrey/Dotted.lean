import XGrey.Text

/-!
# Addresses in Dotted Decimal

How the programs read an address that is written in dotted decimal. `whitelist_load` and
the Postfix client read four numbers and skip one character after each, whatever it is
(`scanDotted`); the control program and the loader of the address rules use `parse_ip`
of `common/util.c`, which also takes a prefix length.

## Main results

* `strtoul_decimal`: `strtoul` reads a number that is written in decimal.
* `scanDotted_dotted`, `parseIp_dotted`: both read an address back.
-/

open CRuntime

namespace XGrey

/-! ### Reading -/

/-- `*p++ = strtoul(d,&d,10); d++`: one octet, and the character behind it. -/
def scanOctet (mem : List UInt8) : Exec (UInt8 × List UInt8) := do
  let (n, rest) ← strtoul mem
  .ok (UInt8.ofNat n, rest.drop 1)

/-- Four octets, with what stands behind the last character that was skipped. -/
def scanDotted (mem : List UInt8) : Exec (List UInt8 × List UInt8) := do
  let (a, mem) ← scanOctet mem
  let (b, mem) ← scanOctet mem
  let (c, mem) ← scanOctet mem
  let (d, mem) ← scanOctet mem
  .ok ([a, b, c, d], mem)

/-- The loop of `parse_ip`, for at most `fuel` more octets. The result is the address and
the text at which the loop ended, unless the text is no address. -/
def parseIpLoop : ℕ → List UInt8 → ℕ → List UInt8 → Exec (Option (List UInt8 × List UInt8))
  | 0, ip, _, text => .ok (some (ip, text))
  | fuel + 1, ip, octetcount, text => do
      let (n, text) ← strtoul text
      let ip := ip.set octetcount (UInt8.ofNat n)
      let c ← peek text 0
      if c = 0 ∨ c = 47 then .ok (some (ip, text))
      else if c ≠ 46 then .ok none
      else parseIpLoop fuel ip (octetcount + 1) (text.drop 1)

/-- `parse_ip`, on an address buffer with some content and the memory a text lies in: the
address and the prefix length, unless there is an error. -/
def parseIp (ip text : List UInt8) : Exec (Option (List UInt8 × ℤ)) := do
  match ← parseIpLoop 4 ip 0 text with
  | none => .ok none
  | some (ip, text) => do
      let c ← peek text 0
      if c = 47 then do
        let (n, _) ← strtoul (text.drop 1)
        if toInt n > 32 then .ok none else .ok (some (ip, toInt n))
      else .ok (some (ip, 32))

/-! ### Writing -/

/-- A number in decimal. -/
def decimal (n : ℕ) : List UInt8 :=
  if n < 10 then [UInt8.ofNat (48 + n)]
  else decimal (n / 10) ++ [UInt8.ofNat (48 + n % 10)]

/-- An address in dotted decimal. -/
def dotted (a b c d : UInt8) : List UInt8 :=
  decimal a.toNat ++ 46 :: (decimal b.toNat ++ 46 :: (decimal c.toNat ++ 46 ::
    decimal d.toNat))

/-- `ipv4` -/
def ipv4 (ip : Vector UInt8 16) : List UInt8 := dotted ip[0] ip[1] ip[2] ip[3]

/-- The four bytes of it. -/
def ipv4Bytes (ip : Vector UInt8 16) : List UInt8 := [ip[0], ip[1], ip[2], ip[3]]

/-! ### Reading back -/

/-- The value of a digit. -/
theorem toNat_digit {n : ℕ} (h : n < 10) : (UInt8.ofNat (48 + n)).toNat = 48 + n := by
  rw [UInt8.toNat_ofNat']
  omega

theorem isdigit_digit {n : ℕ} (h : n < 10) : isdigit (UInt8.ofNat (48 + n)) = true := by
  have hn := toNat_digit h
  simp only [isdigit, Bool.and_eq_true, decide_eq_true_eq, UInt8.le_iff_toNat_le, hn]
  exact ⟨Nat.le_add_right _ _, by change 48 + n ≤ 57; omega⟩

/-- A number in decimal consists of digits. -/
theorem isdigit_of_mem_decimal {n : ℕ} {c : UInt8} (h : c ∈ decimal n) :
    isdigit c = true := by
  induction n using decimal.induct with
  | case1 n hn =>
      rw [decimal, if_pos hn, List.mem_singleton] at h
      rw [h]
      exact isdigit_digit hn
  | case2 n hn ih =>
      rw [decimal, if_neg hn, List.mem_append, List.mem_singleton] at h
      rcases h with h | rfl
      · exact ih h
      · exact isdigit_digit (Nat.mod_lt _ (by omega))

theorem decimal_ne_nil (n : ℕ) : decimal n ≠ [] := by
  rw [decimal]
  split_ifs <;> simp

theorem decimal_eq_cons (n : ℕ) :
    ∃ digit digits, isdigit digit = true ∧ decimal n = digit :: digits := by
  obtain ⟨digit, digits, hdigits⟩ := List.exists_cons_of_ne_nil (decimal_ne_nil n)
  exact ⟨digit, digits, isdigit_of_mem_decimal (hdigits ▸ List.mem_cons_self), hdigits⟩

/-- The digits of a number denote it. -/
theorem digitsValue_decimal (n : ℕ) : digitsValue (decimal n) = n := by
  induction n using decimal.induct with
  | case1 n hn =>
      rw [decimal, if_pos hn, digitsValue, List.foldl_cons, List.foldl_nil, toNat_digit hn]
      omega
  | case2 n hn ih =>
      rw [digitsValue] at ih
      rw [decimal, if_neg hn, digitsValue, List.foldl_append, ih, List.foldl_cons,
        List.foldl_nil, toNat_digit (Nat.mod_lt _ (by omega))]
      omega

/-- A digit is neither white space nor a sign. -/
theorem not_isspace_of_isdigit {c : UInt8} (h : isdigit c = true) :
    isspace c = false ∧ c ≠ 45 ∧ c ≠ 43 := by
  simp only [isdigit, Bool.and_eq_true, decide_eq_true_eq, UInt8.le_iff_toNat_le] at h
  have hlow : 48 ≤ c.toNat := h.1
  refine ⟨?_, ?_, ?_⟩
  · simp only [isspace, Bool.or_eq_false_iff, Bool.and_eq_false_iff, decide_eq_false_iff_not,
      UInt8.le_iff_toNat_le, beq_eq_false_iff_ne]
    refine ⟨?_, Or.inr ?_⟩
    · rintro rfl
      exact absurd hlow (by decide)
    · change ¬ c.toNat ≤ 13
      omega
  · rintro rfl
    exact absurd hlow (by decide)
  · rintro rfl
    exact absurd hlow (by decide)

/-- **`strtoul` reads a number in decimal**, up to the first character that is no digit. -/
theorem strtoul_decimal {n : ℕ} (hn : n < 18446744073709551616) {c : UInt8}
    (hc : isdigit c = false) (rest : List UInt8) :
    strtoul (decimal n ++ c :: rest) = .ok (n, c :: rest) := by
  obtain ⟨d, ds, hd⟩ := List.exists_cons_of_ne_nil (decimal_ne_nil n)
  have hdigits : ∀ x ∈ decimal n, isdigit x = true := fun x => isdigit_of_mem_decimal
  obtain ⟨hspace, hminus, hplus⟩ :=
    not_isspace_of_isdigit (hdigits d (hd ▸ List.mem_cons_self))
  have hdrop : (decimal n ++ c :: rest).dropWhile isspace = decimal n ++ c :: rest := by
    rw [hd, List.cons_append, List.dropWhile_cons_of_neg (by simp [hspace])]
  have hhead : (decimal n ++ c :: rest).head? = some d := by
    rw [hd]
    rfl
  have htake : (decimal n ++ c :: rest).takeWhile isdigit = decimal n := by
    rw [List.takeWhile_append_of_pos hdigits, List.takeWhile_cons_of_neg (by simp [hc]),
      List.append_nil]
  have hrest : (decimal n ++ c :: rest).dropWhile isdigit = c :: rest := by
    rw [List.dropWhile_append_of_pos hdigits, List.dropWhile_cons_of_neg (by simp [hc])]
  have hneg : (some d == some (45 : UInt8)) = false := by simpa using hminus
  have hpos : (some d == some (43 : UInt8)) = false := by simpa using hplus
  rw [strtoul]
  simp only [hdrop, hhead, hneg, hpos, Bool.or_self, Bool.false_eq_true, if_false, htake,
    hrest, digitsValue_decimal]
  rw [if_neg (List.cons_ne_nil _ _), if_neg (decimal_ne_nil n), if_neg (by omega)]

/-- An octet in decimal is read and the character behind it skipped. -/
theorem scanOctet_decimal (a : UInt8) {c : UInt8} (hc : isdigit c = false)
    (rest : List UInt8) : scanOctet (decimal a.toNat ++ c :: rest) = .ok (a, rest) := by
  have ha := a.toNat_lt
  rw [scanOctet, strtoul_decimal (by omega) hc, ok_bind]
  simp

/-- **Four octets in dotted decimal** are read back, whatever the character behind them. -/
theorem scanDotted_dotted (a b c d : UInt8) {e : UInt8} (he : isdigit e = false)
    (rest : List UInt8) :
    scanDotted (dotted a b c d ++ e :: rest) = .ok ([a, b, c, d], rest) := by
  have hdot : isdigit 46 = false := by decide
  simp only [scanDotted, dotted, List.append_assoc, List.cons_append]
  rw [scanOctet_decimal a hdot, ok_bind]
  dsimp only
  rw [scanOctet_decimal b hdot, ok_bind]
  dsimp only
  rw [scanOctet_decimal c hdot, ok_bind]
  dsimp only
  rw [scanOctet_decimal d he, ok_bind]

/-- A number of octets. -/
def scanOctets : ℕ → List UInt8 → Exec (List UInt8 × List UInt8)
  | 0, mem => .ok ([], mem)
  | n + 1, mem => do
      let (a, mem) ← scanOctet mem
      let (octets, mem) ← scanOctets n mem
      .ok (a :: octets, mem)

theorem scanDotted_eq_scanOctets (mem : List UInt8) : scanDotted mem = scanOctets 4 mem := by
  simp only [scanDotted, scanOctets, bind_assoc, ok_bind]

theorem length_of_scanOctets {n : ℕ} {mem ip rest : List UInt8}
    (h : scanOctets n mem = .ok (ip, rest)) : ip.length = n := by
  induction n generalizing mem ip with
  | zero =>
      cases h
      rfl
  | succ n ih =>
      obtain ⟨⟨a, mem₁⟩, -, h⟩ := bind_eq_ok.mp h
      obtain ⟨⟨octets, mem₂⟩, hoctets, h⟩ := bind_eq_ok.mp h
      cases h
      rw [List.length_cons, ih hoctets]

/-- A scan yields four octets. -/
theorem length_of_scanDotted {mem ip rest : List UInt8} (h : scanDotted mem = .ok (ip, rest)) :
    ip.length = 4 :=
  length_of_scanOctets ((scanDotted_eq_scanOctets mem).symm.trans h)

/-- One octet of `parse_ip` with a dot behind it. -/
theorem parseIpLoop_dot (fuel : ℕ) (ip : List UInt8) (octetcount : ℕ) (a : UInt8)
    (rest : List UInt8) :
    parseIpLoop (fuel + 1) ip octetcount (decimal a.toNat ++ 46 :: rest) =
      parseIpLoop fuel (ip.set octetcount a) (octetcount + 1) rest := by
  have ha := a.toNat_lt
  rw [parseIpLoop, strtoul_decimal (by omega) (by decide), ok_bind]
  dsimp only
  rw [show peek (46 :: rest) 0 = .ok 46 from rfl, ok_bind, if_neg (by decide),
    if_neg (by decide)]
  simp

/-- The last octet of a text. -/
theorem parseIpLoop_end (fuel : ℕ) (ip : List UInt8) (octetcount : ℕ) (a : UInt8)
    (rest : List UInt8) :
    parseIpLoop (fuel + 1) ip octetcount (decimal a.toNat ++ 0 :: rest) =
      .ok (some (ip.set octetcount a, 0 :: rest)) := by
  have ha := a.toNat_lt
  rw [parseIpLoop, strtoul_decimal (by omega) (by decide), ok_bind]
  dsimp only
  rw [show peek (0 :: rest) 0 = .ok 0 from rfl, ok_bind, if_pos (by decide)]
  simp

/-- **`parse_ip` reads an address in dotted decimal** as that of one host. -/
theorem parseIp_dotted {ip : List UInt8} (hip : ip.length = 4) (a b c d : UInt8)
    (rest : List UInt8) :
    parseIp ip (dotted a b c d ++ 0 :: rest) = .ok (some ([a, b, c, d], 32)) := by
  obtain ⟨w, x, y, z, rfl⟩ : ∃ w x y z, ip = [w, x, y, z] := by
    obtain ⟨w, ip, rfl⟩ := List.exists_cons_of_length_eq_add_one hip
    obtain ⟨x, ip, rfl⟩ := List.exists_cons_of_length_eq_add_one (Nat.succ.inj hip)
    obtain ⟨y, ip, rfl⟩ := List.exists_cons_of_length_eq_add_one (Nat.succ.inj (Nat.succ.inj hip))
    obtain ⟨z, rfl⟩ := List.length_eq_one_iff.mp
      (Nat.succ.inj (Nat.succ.inj (Nat.succ.inj hip)))
    exact ⟨w, x, y, z, rfl⟩
  simp only [parseIp, dotted, List.append_assoc, List.cons_append]
  rw [parseIpLoop_dot, parseIpLoop_dot, parseIpLoop_dot, parseIpLoop_end, ok_bind]
  dsimp only
  rw [show peek (0 :: rest) 0 = .ok 0 from rfl, ok_bind, if_neg (by decide)]
  rfl

end XGrey
