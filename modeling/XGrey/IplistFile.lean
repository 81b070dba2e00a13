import XGrey.IplistDump
import XGrey.IplistPackets
import XGrey.TofromFile

/-!
# Reading the Address Rules

What a line of the file of address rules means by itself, and when `iplist_read` takes it
so. A line is blank, or it is rejected, or it is a rule: an address of at most four octets,
the missing ones zero, a prefix length of at most 32, and a command. `textLine` says which,
from the text of the line alone.

`iplist_read` departs from this at three places. It writes the octets to a buffer that it
does not clear between the lines, so that the missing ones are those of a line before or
whatever the buffer held at first. It takes what `strtoul` makes of a number, signs and
numbers of any size included, so that a prefix length may be negative. And it looks at the
second field of a line without asking whether the line has one.

There are two ways to read the numbers of a line, and the results hold for both: as
`strtoul` and the types of the variables leave them, or strictly, where a number that is
not an octet or not a prefix length as it is written makes the line a wrong one.

## Main results

* `agrees_iff_proper`: a line is taken for what it means exactly when it departs at none of
  the three places.
* `iplistRead_iff`: the lines of a file that are reached are taken for what they mean exactly
  when each of them is such a line; the file is then read as its text says, and every call of
  `ip_add_sm` is one that it is made for.
-/

open CRuntime PrefixMap TextFile

namespace XGrey

/-! ### Numbers -/

/-- A text without the sign that `strtoul` accepts in front of the digits. -/
def unsigned (body : List UInt8) : List UInt8 :=
  if body.head? == some 45 || body.head? == some 43 then body.tail else body

/-- The number that is written at the beginning of a text, which is 0 without any digits. -/
def writtenNumber (text : List UInt8) : ℤ :=
  let body := text.dropWhile isspace
  let value := digitsValue ((unsigned body).takeWhile isdigit)
  if body.head? == some 45 then -(value : ℤ) else value

/-- What follows the number. -/
def behindNumber (text : List UInt8) : List UInt8 :=
  let body := unsigned (text.dropWhile isspace)
  if body.takeWhile isdigit = [] then text else body.dropWhile isdigit

/-- The place at which `strtoul` stops: behind white space, a sign and the digits. -/
def stopsAt (text : List UInt8) : List UInt8 :=
  (unsigned (text.dropWhile isspace)).dropWhile isdigit

/-- The `unsigned long` that `strtoul` makes of a number. -/
def unsignedLong (z : ℤ) : ℕ :=
  if z.natAbs < 18446744073709551616 then (z % 18446744073709551616).toNat
  else 18446744073709551615

/-- A terminator is no digit. -/
theorem zero_mem_dropWhile_isdigit {s : List UInt8} (h : 0 ∈ s) : 0 ∈ s.dropWhile isdigit := by
  rw [← List.takeWhile_append_dropWhile (p := isdigit) (l := s), List.mem_append] at h
  refine h.resolve_left fun hdigits => ?_
  have hzero : isdigit 0 = true := List.mem_takeWhile_imp hdigits
  cases hzero

/-- It is no sign either. -/
theorem zero_mem_unsigned {s : List UInt8} (h : 0 ∈ s) : 0 ∈ unsigned s := by
  rw [unsigned]
  split_ifs with hsign
  · cases s with
    | nil => cases h
    | cons c s =>
        refine (List.mem_cons.mp h).resolve_left ?_
        rintro rfl
        simp at hsign
  · exact h

/-- So `strtoul` stops in front of it, or at it. -/
theorem zero_mem_stopsAt {text : List UInt8} (h : 0 ∈ text) : 0 ∈ stopsAt text :=
  zero_mem_dropWhile_isdigit (zero_mem_unsigned (mem_dropWhile_isspace h rfl))

/-- What follows a number still has the terminator. -/
theorem zero_mem_behindNumber {text : List UInt8} (h : 0 ∈ text) : 0 ∈ behindNumber text := by
  rw [behindNumber]
  split_ifs
  · exact h
  · exact zero_mem_stopsAt h

/-- In memory that ends with the digits `strtoul` does not stop. -/
theorem strtoul_eq_error {mem : List UInt8} (h : stopsAt mem = []) :
    strtoul mem = .error .memory := by
  rw [stopsAt, unsigned] at h
  rw [strtoul]
  exact if_pos h

/-- **`strtoul` where it stops**: the number that is written there, wrapped or cut off. -/
theorem strtoul_of_stopsAt {text : List UInt8} (h : stopsAt text ≠ []) :
    strtoul text = .ok (unsignedLong (writtenNumber text), behindNumber text) := by
  rw [stopsAt] at h
  rw [strtoul, writtenNumber, behindNumber]
  dsimp only
  rw [← unsigned, if_neg h]
  generalize hdigits : (unsigned (text.dropWhile isspace)).takeWhile isdigit = digits
  by_cases hnone : digits = []
  · have hzero : digitsValue digits = 0 := by
      rw [hnone]
      rfl
    rw [if_pos hnone, if_pos hnone, hzero]
    split_ifs <;> rfl
  · rw [if_neg hnone, if_neg hnone]
    generalize digitsValue digits = value
    rw [unsignedLong]
    by_cases hneg : (text.dropWhile isspace).head? == some 45
    · simp only [if_pos hneg, Int.natAbs_neg, Int.natAbs_natCast]
      by_cases hbig : value ≥ 18446744073709551616
      · rw [if_pos hbig, if_neg (by omega)]
      · have hwrap : (18446744073709551616 - value) % 18446744073709551616 =
            (-(value : ℤ) % 18446744073709551616).toNat := by omega
        rw [if_neg hbig, if_pos (by omega), hwrap]
    · simp only [if_neg hneg, Int.natAbs_natCast]
      by_cases hbig : value ≥ 18446744073709551616
      · rw [if_pos hbig, if_neg (by omega)]
      · have hfits : value = ((value : ℤ) % 18446744073709551616).toNat := by omega
        rw [if_neg hbig, if_pos (by omega), ← hfits]

/-- **`strtoul` on a string** stops. -/
theorem strtoul_eq {text : List UInt8} (h : 0 ∈ text) :
    strtoul text = .ok (unsignedLong (writtenNumber text), behindNumber text) :=
  strtoul_of_stopsAt (List.ne_nil_of_mem (zero_mem_stopsAt h))

/-! ### Lines -/

/-- The numbers at the beginning of an address, `n` of them at most, and what follows them,
or nothing after a syntax error. -/
def octetsText : ℕ → List UInt8 → Option (List ℤ × List UInt8)
  | 0, text => some ([], text)
  | n + 1, text =>
      match behindNumber text with
      | [] => none
      | c :: rest =>
          if c = 0 ∨ c = 47 then some ([writtenNumber text], c :: rest)
          else if c ≠ 46 then none
          else (octetsText n rest).map fun found => (writtenNumber text :: found.1, found.2)

/-- The prefix length behind an address, which is 32 if there is none. -/
def maskText (text : List UInt8) : ℤ :=
  if text.head? = some 47 then writtenNumber text.tail else 32

/-- What is left of a number in an `uint8_t`. -/
def storedOctet (z : ℤ) : UInt8 := UInt8.ofNat (unsignedLong z)

/-- What is left of a number in an `int`. -/
def storedMask (z : ℤ) : ℤ := toInt (unsignedLong z)

/-- What is written in a line that begins with an address. -/
structure LineEntry where
  /-- the octets of the address -/
  octets : List ℤ
  /-- the prefix length as it is written -/
  written : ℤ
  /-- the prefix length as it is stored -/
  mask : ℤ
  mask_eq : mask = storedMask written
  /-- the second field, if there is one -/
  word : Option (List UInt8)

/-- The text of a line. -/
inductive LineText
  /-- a blank line -/
  | blank
  /-- a line that begins with no address -/
  | bad
  /-- a line that begins with an address -/
  | entry (e : LineEntry)

/-- The text of a line by itself. -/
def lineText (cgi : CgiLib) (linebuff : List UInt8) : LineText :=
  let line := cgi.trimSpace linebuff
  if cgi.emptyString line then .blank
  else
    match splitLoop (cgi.upString line) with
    | [] => .bad
    | address :: words =>
        if ¬ isdigit (address.headD 0) then .bad
        else
          match octetsText 4 (address ++ [0]) with
          | none => .bad
          | some (octets, behind) =>
              .entry
                { octets := octets
                  written := maskText behind
                  mask := storedMask (maskText behind)
                  mask_eq := rfl
                  word := words.head? }

/-- The address of a line, its missing octets zero. -/
def LineEntry.addr (e : LineEntry) : List UInt8 :=
  (e.octets.map storedOctet ++ List.replicate 4 0).take 4

/-- The command of a line, which is -1 if no command is on it. -/
def LineEntry.cmd (e : LineEntry) : ℤ :=
  match e.word with
  | none => -1
  | some name => ciMapInt name cIft

/-- The numbers of a line are octets and a prefix length as they are written. -/
def LineEntry.Literal (e : LineEntry) : Prop :=
  (∀ z ∈ e.octets, 0 ≤ z ∧ z ≤ 255) ∧ 0 ≤ e.written ∧ e.written ≤ 32

instance : DecidablePred LineEntry.Literal :=
  fun e => inferInstanceAs (Decidable
    ((∀ z ∈ e.octets, 0 ≤ z ∧ z ≤ 255) ∧ 0 ≤ e.written ∧ e.written ≤ 32))

/-- A rule of the file: what `ip_add_sm` is made for. -/
structure IpRule where
  addr : List UInt8
  mask : ℤ
  cmd : ℤ
  length_addr : addr.length = 4
  mask_nonneg : 0 ≤ mask
  mask_le : mask ≤ 32
  cmd_ne : cmd ≠ -1

/-- What a line means. -/
inductive RuleLine
  /-- nothing -/
  | blank
  /-- the line is rejected -/
  | bad
  /-- a rule -/
  | rule (r : IpRule)

/-- The rule of a line that begins with an address. -/
def LineEntry.rule (strict : Bool) (e : LineEntry) : RuleLine :=
  if h : (0 ≤ e.mask ∧ e.mask ≤ 32 ∧ e.cmd ≠ -1) ∧
      (strict = true → e.Literal) then
    .rule
      { addr := e.addr
        mask := e.mask
        cmd := e.cmd
        length_addr := by simp [LineEntry.addr]
        mask_nonneg := h.1.1
        mask_le := h.1.2.1
        cmd_ne := h.1.2.2 }
  else .bad

/-- **What a line means by itself.** -/
def textLine (strict : Bool) (cgi : CgiLib) (linebuff : List UInt8) : RuleLine :=
  match lineText cgi linebuff with
  | .blank => .blank
  | .bad => .bad
  | .entry e => e.rule strict

/-- A line that is a rule begins with an address, and its rule is made of what is written
there. -/
theorem textLine_eq_rule {strict : Bool} {cgi : CgiLib} {linebuff : List UInt8} {r : IpRule}
    (h : textLine strict cgi linebuff = .rule r) :
    ∃ e, lineText cgi linebuff = .entry e ∧ (strict = true → e.Literal) ∧ r.addr = e.addr ∧
      r.mask = e.mask ∧ r.cmd = e.cmd := by
  rw [textLine] at h
  cases hline : lineText cgi linebuff with
  | blank =>
      rw [hline] at h
      cases h
  | bad =>
      rw [hline] at h
      cases h
  | entry e =>
      rw [hline] at h
      dsimp only at h
      rw [LineEntry.rule] at h
      split_ifs at h with hrule
      cases h
      exact ⟨e, rfl, hrule.2, rfl, rfl, rfl⟩

/-- A file read line by line, each line by itself. -/
def textRead (strict : Bool) (cgi : CgiLib) (ndebug : Bool) :
    IpList → List (List UInt8) → Exec (IpList × Bool)
  | l, [] => .ok (l, true)
  | l, linebuff :: lines =>
      match textLine strict cgi linebuff with
      | .blank => textRead strict cgi ndebug l lines
      | .bad => .ok (l, false)
      | .rule r => do
          let l ← ipAddSm ndebug l r.addr r.mask r.cmd
          textRead strict cgi ndebug l lines

/-! ### What is promised of a line -/

/-- A line is taken for what it means, with the buffer as a line before has left it. Of an
address only the bits of the prefix count. -/
def Agrees (strict : Bool) (cgi : CgiLib) (ip linebuff : List UInt8) : Prop :=
  ∃ ip', match textLine strict cgi linebuff with
    | .blank => iplistLine cgi ip linebuff = .ok (.blank, ip')
    | .bad => iplistLine cgi ip linebuff = .ok (.bad, ip')
    | .rule r => iplistLine cgi ip linebuff = .ok (.rule r.mask r.cmd, ip') ∧
        prefixBits ip' r.mask.toNat = prefixBits r.addr r.mask.toNat

/-- What a line that begins with an address needs for that, if its prefix length is not
rejected: it has a second field; if that is a command, the prefix length is not negative,
the numbers are what they should be, and the buffer has only zeros where the prefix goes on
behind the octets. -/
def LineEntry.Proper (strict : Bool) (ip : List UInt8) (e : LineEntry) : Prop :=
  e.word ≠ none ∧
    (e.cmd ≠ -1 → 0 ≤ e.mask ∧ (strict = true → e.Literal) ∧
      ∀ d < e.mask.toNat, 8 * e.octets.length ≤ d → bitAt ip d = false)

instance (strict : Bool) (ip : List UInt8) : DecidablePred (LineEntry.Proper strict ip) :=
  fun e => inferInstanceAs (Decidable (e.word ≠ none ∧
    (e.cmd ≠ -1 → 0 ≤ e.mask ∧ (strict = true → e.Literal) ∧
      ∀ d < e.mask.toNat, 8 * e.octets.length ≤ d → bitAt ip d = false)))

/-- What any line needs. -/
def LineText.Proper (strict : Bool) (ip : List UInt8) : LineText → Prop
  | .blank => True
  | .bad => True
  | .entry e => e.mask ≤ 32 → e.Proper strict ip

instance (strict : Bool) (ip : List UInt8) : DecidablePred (LineText.Proper strict ip)
  | .blank => isTrue trivial
  | .bad => isTrue trivial
  | .entry e => inferInstanceAs (Decidable (e.mask ≤ 32 → e.Proper strict ip))

/-- A line at which `iplist_read` does not go wrong. -/
def Proper (strict : Bool) (cgi : CgiLib) (ip linebuff : List UInt8) : Prop :=
  (lineText cgi linebuff).Proper strict ip

instance (strict : Bool) (cgi : CgiLib) (ip linebuff : List UInt8) :
    Decidable (Proper strict cgi ip linebuff) :=
  inferInstanceAs (Decidable ((lineText cgi linebuff).Proper strict ip))

/-- The buffer with which the reading goes on behind a line. -/
def bufferBehind (cgi : CgiLib) (ip linebuff : List UInt8) : Option (List UInt8) :=
  match iplistLine cgi ip linebuff with
  | .error _ => none
  | .ok (.bad, _) => none
  | .ok (_, ip) => some ip

/-- Something holds of every line of a file that is reached, with the buffer as it is
then. -/
def EachLine (cgi : CgiLib) (P : List UInt8 → List UInt8 → Prop) :
    List UInt8 → List (List UInt8) → Prop
  | _, [] => True
  | ip, linebuff :: lines =>
      P ip linebuff ∧ ∀ ip' ∈ bufferBehind cgi ip linebuff, EachLine cgi P ip' lines

instance EachLine.decidable (cgi : CgiLib) (P : List UInt8 → List UInt8 → Prop)
    [∀ ip linebuff, Decidable (P ip linebuff)] :
    ∀ ip lines, Decidable (EachLine cgi P ip lines)
  | _, [] => isTrue trivial
  | ip, linebuff :: lines =>
      have := fun ip' => EachLine.decidable cgi P ip' lines
      inferInstanceAs (Decidable
        (P ip linebuff ∧ ∀ ip' ∈ bufferBehind cgi ip linebuff, EachLine cgi P ip' lines))

/-! ### A line of the program -/

/-- The buffer after some octets have been written to it, from place `k` on. -/
def writeOctets : ℕ → List ℤ → List UInt8 → List UInt8
  | _, [], ip => ip
  | k, z :: octets, ip => writeOctets (k + 1) octets (ip.set k (storedOctet z))

@[simp] theorem length_writeOctets (k : ℕ) (octets : List ℤ) (ip : List UInt8) :
    (writeOctets k octets ip).length = ip.length := by
  induction octets generalizing k ip with
  | nil => rfl
  | cons z octets ih => rw [writeOctets, ih, List.length_set]

/-- The bytes in front of the octets stay. -/
theorem getElem?_writeOctets_of_lt {i k : ℕ} (h : i < k) (octets : List ℤ) (ip : List UInt8) :
    (writeOctets k octets ip)[i]? = ip[i]? := by
  induction octets generalizing k ip with
  | nil => rfl
  | cons z octets ih => rw [writeOctets, ih (by omega), List.getElem?_set_ne (by omega)]

/-- The octets that are written, and the bytes behind them, which stay too. -/
theorem getElem?_writeOctets {k : ℕ} {octets : List ℤ} {ip : List UInt8}
    (h : k + octets.length ≤ ip.length) (i : ℕ) :
    (writeOctets k octets ip)[k + i]? =
      if i < octets.length then octets[i]?.map storedOctet else ip[k + i]? := by
  induction octets generalizing k i ip with
  | nil => rfl
  | cons z octets ih =>
      rw [List.length_cons] at h
      rw [writeOctets]
      cases i with
      | zero =>
          rw [getElem?_writeOctets_of_lt (by omega), if_pos (by simp), add_zero,
            List.getElem?_set_self (by omega)]
          rfl
      | succ i =>
          have hlen : k + 1 + octets.length ≤ (ip.set k (storedOctet z)).length := by
            rw [List.length_set]
            omega
          have hplace : k + (i + 1) = k + 1 + i := by omega
          have hsame : i + 1 < (z :: octets).length ↔ i < octets.length := by simp
          rw [hplace, ih hlen i, List.getElem?_cons_succ,
            List.getElem?_set_ne (by omega)]
          simp only [hsame]

/-- There is no more than the asked number of octets, and the terminator comes later. -/
theorem octetsText_spec {n : ℕ} {text behind : List UInt8} {octets : List ℤ} (h : 0 ∈ text)
    (hfound : octetsText n text = some (octets, behind)) :
    octets.length ≤ n ∧ 0 ∈ behind := by
  induction n generalizing text octets with
  | zero =>
      cases hfound
      exact ⟨le_rfl, h⟩
  | succ n ih =>
      have hbehind := zero_mem_behindNumber h
      rw [octetsText] at hfound
      cases hrest : behindNumber text with
      | nil =>
          rw [hrest] at hfound
          cases hfound
      | cons c rest =>
          rw [hrest] at hfound hbehind
          dsimp only at hfound
          split_ifs at hfound with hend hdot
          · cases hfound
            exact ⟨by simp, hbehind⟩
          · obtain ⟨⟨octets', behind'⟩, hmore, hpair⟩ := Option.map_eq_some_iff.mp hfound
            cases hpair
            have hc : (0 : UInt8) ≠ c := fun hc => hend (Or.inl hc.symm)
            obtain ⟨hlen, hzero⟩ := ih ((List.mem_cons.mp hbehind).resolve_left hc) hmore
            exact ⟨by simpa using hlen, hzero⟩

/-- **The loop over the octets** of a string finds those of its text and writes them. -/
theorem iplistOctets_eq (n k : ℕ) (ip : List UInt8) {text : List UInt8} (h : 0 ∈ text) :
    iplistOctets n k ip text =
      .ok ((octetsText n text).map fun found => (writeOctets k found.1 ip, found.2)) := by
  induction n generalizing k ip text with
  | zero => rfl
  | succ n ih =>
      have hbehind := zero_mem_behindNumber h
      rw [iplistOctets, strtoul_eq h, ok_bind, octetsText]
      cases hrest : behindNumber text with
      | nil =>
          rw [hrest] at hbehind
          cases hbehind
      | cons c rest =>
          rw [hrest] at hbehind
          dsimp only
          split_ifs with hend hdot
          · rfl
          · rfl
          · have hc : (0 : UInt8) ≠ c := fun hc => hend (Or.inl hc.symm)
            rw [ih _ _ ((List.mem_cons.mp hbehind).resolve_left hc), Option.map_map]
            rfl

/-- The prefix length of a string. -/
theorem iplistMask_eq {behind : List UInt8} (h : 0 ∈ behind) :
    iplistMask behind = .ok (storedMask (maskText behind)) := by
  rw [iplistMask, maskText]
  split_ifs with hslash
  · have hrest : 0 ∈ behind.tail := by
      cases behind with
      | nil => cases h
      | cons c rest =>
          refine (List.mem_cons.mp h).resolve_left ?_
          rintro rfl
          cases hslash
    rw [strtoul_eq hrest]
    rfl
  · rfl

/-- The octets of a line that begins with an address. -/
theorem length_octets_lineText {cgi : CgiLib} {linebuff : List UInt8} {e : LineEntry}
    (h : lineText cgi linebuff = .entry e) : e.octets.length ≤ 4 := by
  rw [lineText] at h
  split_ifs at h
  split at h
  · cases h
  · rename_i address words _
    split_ifs at h
    split at h
    · cases h
    · rename_i octets behind hoctets
      cases h
      exact (octetsText_spec (by simp) hoctets).1

/-- Upper case makes no white space. -/
theorem not_isspace_toupper {c : UInt8} (h : isspace c = false) : isspace (toupper c) = false := by
  rw [toupper]
  split_ifs with hlower
  · have hlow : 97 ≤ c.toNat := UInt8.le_iff_toNat_le.mp hlower.1
    have hsub : (c - 32).toNat = c.toNat - 32 :=
      UInt8.toNat_sub_of_le c 32 (UInt8.le_iff_toNat_le.mpr (le_trans (by decide) hlow))
    have hne : c - 32 ≠ 32 := by
      intro heq
      rw [heq] at hsub
      change 32 = c.toNat - 32 at hsub
      omega
    have hbig : ¬ c - 32 ≤ 13 := by
      rw [UInt8.le_iff_toNat_le, hsub]
      change ¬ c.toNat - 32 ≤ 13
      omega
    simp [isspace, hne, hbig]
  · exact h

/-- A line with something on it has fields in upper case. -/
theorem splitLoop_upString {cgi : CgiLib} (hcgi : cgi.Behaves) {line : List UInt8}
    (h : ¬ cgi.emptyString line = true) :
    ∃ address words, splitLoop (cgi.upString line) = address :: words := by
  rw [hcgi.emptyString_iff] at h
  push Not at h
  obtain ⟨c, hc, hspace⟩ := h
  have hmem : toupper c ∈ cgi.upString line := by
    rw [hcgi.upString_eq]
    exact List.mem_map_of_mem hc
  obtain ⟨address, words, hsplit⟩ :=
    split_of_mem hmem (not_isspace_toupper (Bool.eq_false_iff.mpr hspace))
  refine ⟨address, words, ?_⟩
  rw [split] at hsplit
  cases hloop : splitLoop (cgi.upString line) with
  | nil =>
      rw [hloop] at hsplit
      cases hsplit
  | cons field fields =>
      rw [hloop] at hsplit
      exact Except.ok.inj hsplit

/-- **What `iplist_read` makes of a line**, by the text of the line. -/
theorem iplistLine_eq {cgi : CgiLib} (hcgi : cgi.Behaves) (ip linebuff : List UInt8) :
    iplistLine cgi ip linebuff =
      match lineText cgi linebuff with
      | .blank => .ok (.blank, ip)
      | .bad => .ok (.bad, ip)
      | .entry e =>
          if e.mask > 32 then .ok (.bad, writeOctets 0 e.octets ip)
          else if e.word = none then .error .memory
          else if e.cmd = -1 then .ok (.bad, writeOctets 0 e.octets ip)
          else .ok (.rule (e.mask) e.cmd, writeOctets 0 e.octets ip) := by
  rw [iplistLine, lineText]
  dsimp only
  by_cases hempty : cgi.emptyString (cgi.trimSpace linebuff) = true
  · rw [if_pos hempty, if_pos hempty]
  · rw [if_neg hempty, if_neg hempty]
    obtain ⟨address, words, hloop⟩ := splitLoop_upString hcgi hempty
    rw [split, hloop]
    dsimp only
    rw [ok_bind, List.headD_cons]
    by_cases hdigit : ¬ isdigit (address.headD 0) = true
    · rw [if_pos hdigit, if_pos hdigit]
    · rw [if_neg hdigit, if_neg hdigit, iplistOctets_eq 4 0 ip (by simp), ok_bind]
      cases hoctets : octetsText 4 (address ++ [0]) with
      | none => rfl
      | some found =>
          obtain ⟨octets, behind⟩ := found
          obtain ⟨-, hzero⟩ := octetsText_spec (by simp) hoctets
          dsimp only [Option.map_some]
          rw [iplistMask_eq hzero, ok_bind]
          by_cases hmask : storedMask (maskText behind) > 32
          · rw [if_pos hmask, if_pos hmask]
          · rw [if_neg hmask, if_neg hmask]
            cases words with
            | nil => rfl
            | cons name words =>
                rw [if_neg (by simp)]
                rfl

/-! ### The bits of the address -/

/-- Two addresses have the same prefix if they have the same bits there. -/
theorem prefixBits_eq_iff {ip ip' : List UInt8} {n : ℕ} :
    prefixBits ip n = prefixBits ip' n ↔ ∀ d < n, bitAt ip d = bitAt ip' d := by
  rw [prefixBits, prefixBits, bitsFrom, bitsFrom, List.map_inj_left]
  simp [List.mem_range'_1]

section Entry

variable {e : LineEntry} {ip : List UInt8} {d : ℕ}

/-- The bits of the octets that are written. -/
theorem bitAt_writeOctets_of_lt (hip : e.octets.length ≤ ip.length) (he : e.octets.length ≤ 4)
    (hd : d < 8 * e.octets.length) : bitAt (writeOctets 0 e.octets ip) d = bitAt e.addr d := by
  have hplace : d / 8 < e.octets.length := by omega
  have hroom : 0 + e.octets.length ≤ ip.length := by omega
  have hwritten := getElem?_writeOctets hroom (d / 8)
  rw [zero_add, if_pos hplace] at hwritten
  have haddr : e.addr[d / 8]? = e.octets[d / 8]?.map storedOctet := by
    rw [LineEntry.addr, List.getElem?_take_of_lt (by omega),
      List.getElem?_append_left (by simpa using hplace), List.getElem?_map]
  rw [bitAt, bitAt, List.getD_eq_getElem?_getD, List.getD_eq_getElem?_getD, hwritten, haddr]

/-- Behind them the buffer has what it had, -/
theorem bitAt_writeOctets_of_le (hip : e.octets.length ≤ ip.length)
    (hd : 8 * e.octets.length ≤ d) : bitAt (writeOctets 0 e.octets ip) d = bitAt ip d := by
  have hplace : ¬ d / 8 < e.octets.length := by omega
  have hroom : 0 + e.octets.length ≤ ip.length := by omega
  have hkept := getElem?_writeOctets hroom (d / 8)
  rw [zero_add, if_neg hplace] at hkept
  rw [bitAt, bitAt, List.getD_eq_getElem?_getD, List.getD_eq_getElem?_getD, hkept]

/-- and the address of the line has zeros. -/
theorem bitAt_addr_of_le (hd : 8 * e.octets.length ≤ d) : bitAt e.addr d = false := by
  have hzero : e.addr.getD (d / 8) 0 = 0 := by
    rw [LineEntry.addr, List.getD_eq_getElem?_getD, List.getElem?_take]
    split_ifs
    · rw [List.getElem?_append_right (by rw [List.length_map]; omega), List.getElem?_replicate]
      split_ifs <;> rfl
    · rfl
  rw [bitAt, hzero]
  exact Nat.zero_testBit _

/-- **The prefix of a line** is what the program writes exactly when the buffer has only
zeros in the place of the missing octets, as far as the prefix goes. -/
theorem prefixBits_writeOctets_iff (hip : e.octets.length ≤ ip.length)
    (he : e.octets.length ≤ 4) {n : ℕ} :
    prefixBits (writeOctets 0 e.octets ip) n = prefixBits e.addr n ↔
      ∀ d, 8 * e.octets.length ≤ d → d < n → bitAt ip d = false := by
  rw [prefixBits_eq_iff]
  refine ⟨fun h d hd hn => ?_, fun h d hn => ?_⟩
  · rw [← bitAt_writeOctets_of_le hip hd, h d hn, bitAt_addr_of_le hd]
  · rcases Nat.lt_or_ge d (8 * e.octets.length) with hd | hd
    · exact bitAt_writeOctets_of_lt hip he hd
    · rw [bitAt_writeOctets_of_le hip hd, bitAt_addr_of_le hd, h d hd hn]

end Entry

/-! ### When a line is taken for what it means -/

/-- **A line is taken for what it means** exactly when it is one at which `iplist_read` does
not go wrong. -/
theorem agrees_iff_proper {cgi : CgiLib} (hcgi : cgi.Behaves) (strict : Bool)
    {ip : List UInt8} (hip : 4 ≤ ip.length) (linebuff : List UInt8) :
    Agrees strict cgi ip linebuff ↔ Proper strict cgi ip linebuff := by
  rw [Agrees, Proper, iplistLine_eq hcgi, textLine]
  cases hline : lineText cgi linebuff with
  | blank => simp [LineText.Proper]
  | bad => simp [LineText.Proper]
  | entry e =>
      have he := length_octets_lineText hline
      rw [LineText.Proper, LineEntry.Proper]
      dsimp only
      by_cases hbig : e.mask > 32
      · have hbad : e.rule strict = .bad := dif_neg fun h => by omega
        rw [hbad, if_pos hbig]
        exact ⟨fun _ hle => absurd hle (by omega), fun _ => ⟨_, rfl⟩⟩
      have hmask : e.mask ≤ 32 := by omega
      rw [if_neg hbig, forall_prop_of_true hmask]
      by_cases hword : e.word = none
      · -- the program looks at a field that is not there
        rw [if_pos hword]
        refine ⟨?_, fun h => absurd hword h.1⟩
        rintro ⟨ip', h⟩
        cases hrule : e.rule strict <;> simp [hrule] at h
      rw [if_neg hword]
      by_cases hcmd : e.cmd = -1
      · have hbad : e.rule strict = .bad := dif_neg fun h => h.1.2.2 hcmd
        rw [hbad, if_pos hcmd]
        exact ⟨fun _ => ⟨hword, fun hne => absurd hcmd hne⟩, fun _ => ⟨_, rfl⟩⟩
      rw [if_neg hcmd]
      by_cases hgood : 0 ≤ e.mask ∧ (strict = true → e.Literal)
      · rw [LineEntry.rule, dif_pos ⟨⟨hgood.1, hmask, hcmd⟩, hgood.2⟩]
        have hroom : e.octets.length ≤ ip.length := by omega
        have hbits := prefixBits_writeOctets_iff hroom he (n := e.mask.toNat)
        constructor
        · rintro ⟨ip', hread, hsame⟩
          have hip' := (Prod.mk.inj (Except.ok.inj hread)).2
          rw [← hip'] at hsame
          refine ⟨hword, fun _ => ⟨hgood.1, hgood.2, fun d hlt hd => ?_⟩⟩
          exact hbits.mp hsame d hd hlt
        · rintro ⟨-, h⟩
          exact ⟨_, rfl, hbits.mpr fun d hd hlt => (h hcmd).2.2 d hlt hd⟩
      · -- the program makes a rule of numbers that are none
        have hbad : e.rule strict = .bad := dif_neg fun h => hgood ⟨h.1.1, h.2⟩
        rw [hbad]
        refine ⟨?_, fun h => absurd ⟨(h.2 hcmd).1, (h.2 hcmd).2.1⟩ hgood⟩
        rintro ⟨ip', h⟩
        cases h

/-! ### Whole files -/

/-- `ip_add_sm` looks at the bits of the prefix and at no others. -/
theorem ipAddLoop_congr {ip ip' : List UInt8} (cmd : ℤ) (n : ℕ) {d : ℕ} {off : ℤ} {bit : ℕ}
    (hd : AtDepth d off bit) (hip : d + n ≤ 8 * ip.length) (hip' : d + n ≤ 8 * ip'.length)
    (hbits : ∀ k, d ≤ k → k < d + n → bitAt ip k = bitAt ip' k) (t : BinTrie IpNode)
    (ipcnt : ℤ) : ipAddLoop ip cmd n t off bit ipcnt = ipAddLoop ip' cmd n t off bit ipcnt := by
  induction n generalizing d off bit t ipcnt with
  | zero => cases t <;> rfl
  | succ n ih =>
      cases t with
      | nil => rfl
      | node a zero one =>
          have hplace : d / 8 < ip.length := by omega
          have hplace' : d / 8 < ip'.length := by omega
          obtain ⟨octet, hpeek, hbit⟩ := peek_bit hplace
          obtain ⟨octet', hpeek', hbit'⟩ := peek_bit hplace'
          have hsame : octet.toNat &&& 2 ^ (7 - d % 8) = 0 ↔
              octet'.toNat &&& 2 ^ (7 - d % 8) = 0 := by
            rw [hbit, hbit', hbits d le_rfl (by omega)]
          have hnext := fun (child : BinTrie IpNode) =>
            ih (AtDepth.next d) (by omega) (by omega)
              (fun k hk hlt => hbits k (by omega) (by omega)) child ipcnt
          rw [ipAddLoop, ipAddLoop, hd.roll_eq]
          dsimp only
          rw [hpeek, hpeek', ok_bind, ok_bind, hnext, hnext]
          simp only [hsame]

/-- So it does the same for two addresses with the same prefix. -/
theorem ipAddSm_congr (ndebug : Bool) (l : IpList) {ip ip' : List UInt8} {mask : ℤ}
    (hip : 4 ≤ ip.length) (hip' : 4 ≤ ip'.length) (hmask : mask ≤ 32)
    (hsame : prefixBits ip mask.toNat = prefixBits ip' mask.toNat) (cmd : ℤ) :
    ipAddSm ndebug l ip mask cmd = ipAddSm ndebug l ip' mask cmd := by
  have hbits := prefixBits_eq_iff.mp hsame
  rw [ipAddSm, ipAddSm, ipAddLoop_congr cmd mask.toNat atDepth_zero (by omega) (by omega)
    (fun k _ hk => hbits k (by omega))]

/-- No line changes the length of the buffer. -/
theorem length_of_iplistLine {cgi : CgiLib} (hcgi : cgi.Behaves) {ip ip' linebuff : List UInt8}
    {line : IpLine} (h : iplistLine cgi ip linebuff = .ok (line, ip')) :
    ip'.length = ip.length := by
  rw [iplistLine_eq hcgi] at h
  cases hline : lineText cgi linebuff with
  | blank =>
      rw [hline] at h
      cases h
      rfl
  | bad =>
      rw [hline] at h
      cases h
      rfl
  | entry e =>
      rw [hline] at h
      dsimp only at h
      split_ifs at h <;> cases h <;> exact length_writeOctets _ _ _

section Files

variable {cgi : CgiLib} {strict : Bool} {ip : List UInt8} {lines : List (List UInt8)}

/-- The reading goes on with a buffer of the same length. -/
theorem length_of_mem_bufferBehind (hcgi : cgi.Behaves) {ip' linebuff : List UInt8}
    (h : ip' ∈ bufferBehind cgi ip linebuff) : ip'.length = ip.length := by
  rw [bufferBehind] at h
  split at h
  · cases h
  · cases h
  · rename_i hread
    cases h
    exact length_of_iplistLine hcgi hread

/-- What the lines that are reached have in common is the same for two properties that are
the same of each line. -/
theorem eachLine_congr (hcgi : cgi.Behaves) {P Q : List UInt8 → List UInt8 → Prop}
    (hsame : ∀ ip linebuff, 4 ≤ ip.length → (P ip linebuff ↔ Q ip linebuff))
    (hip : 4 ≤ ip.length) : EachLine cgi P ip lines ↔ EachLine cgi Q ip lines := by
  induction lines generalizing ip with
  | nil => exact Iff.rfl
  | cons linebuff lines ih =>
      refine and_congr (hsame ip linebuff hip) ?_
      refine forall_congr' fun ip' => forall_congr' fun hbehind => ih ?_
      rw [length_of_mem_bufferBehind hcgi hbehind]
      exact hip

/-- **A file** whose lines are taken for what they mean is read as its text says. -/
theorem iplistRead_of_agrees (hcgi : cgi.Behaves) (hip : 4 ≤ ip.length)
    (h : EachLine cgi (Agrees strict cgi) ip lines) (ndebug : Bool) (l : IpList) :
    iplistRead cgi ndebug l ip lines = textRead strict cgi ndebug l lines := by
  induction lines generalizing ip l with
  | nil => rfl
  | cons linebuff lines ih =>
      obtain ⟨⟨ip', hagree⟩, hrest⟩ := h
      rw [bufferBehind] at hrest
      rw [iplistRead, textRead]
      cases hline : textLine strict cgi linebuff with
      | blank =>
          rw [hline] at hagree
          rw [hagree] at hrest
          rw [hagree, ok_bind]
          have hlen := length_of_iplistLine hcgi hagree
          exact ih (by omega) (hrest _ rfl) l
      | bad =>
          rw [hline] at hagree
          rw [hagree, ok_bind]
      | rule r =>
          rw [hline] at hagree
          obtain ⟨hread, hsame⟩ := hagree
          rw [hread] at hrest
          have hlen := length_of_iplistLine hcgi hread
          have haddr := r.length_addr
          rw [hread, ok_bind]
          dsimp only
          rw [ipAddSm_congr ndebug l (by omega) (by omega) r.mask_le hsame]
          cases ipAddSm ndebug l r.addr r.mask r.cmd with
          | error e => rfl
          | ok l' => exact ih (by omega) (hrest _ rfl) l'

/-- The command of a rule is one of the table. -/
theorem rule_cmd_ne_none {linebuff : List UInt8} {r : IpRule}
    (h : textLine strict cgi linebuff = .rule r) : r.cmd ≠ Ift.none := by
  obtain ⟨e, -, -, -, -, hcmd⟩ := textLine_eq_rule h
  have hne := r.cmd_ne
  rw [hcmd, LineEntry.cmd] at hne
  rw [hcmd, LineEntry.cmd]
  cases hword : e.word with
  | none =>
      rw [hword] at hne
      exact absurd rfl hne
  | some name =>
      rw [hword] at hne
      have hknown := (ciMapInt_cIft name).resolve_left hne
      dsimp only
      omega

/-- A file that is read as its text says is read without a fault: each rule in it is one
that `ip_add_sm` is made for. -/
theorem textRead_ok (strict : Bool) (cgi : CgiLib) (ndebug : Bool) {l : IpList}
    (hl : IpTreeOk l.tree) (lines : List (List UInt8)) :
    ∃ l' whole, textRead strict cgi ndebug l lines = .ok (l', whole) ∧ IpTreeOk l'.tree := by
  induction lines generalizing l with
  | nil => exact ⟨l, true, rfl, hl⟩
  | cons linebuff lines ih =>
      rw [textRead]
      cases hline : textLine strict cgi linebuff with
      | blank => exact ih hl
      | bad => exact ⟨l, false, rfl, hl⟩
      | rule r =>
          obtain ⟨l', hadd, hl', -⟩ := ipAddSm_eq ndebug hl (Nat.le_of_eq r.length_addr.symm)
            r.mask_nonneg r.mask_le (rule_cmd_ne_none hline)
          dsimp only
          rw [hadd, ok_bind]
          exact ih hl'

end Files

/-- **When a file of address rules is read as it should be.** Each line that is reached is
taken for what it means by itself exactly when each of them is a line at which `iplist_read`
does not go wrong; then the file is read as its text says, and no call of `ip_add_sm` gets
anything that it is not made for. At first the buffer may hold anything. -/
theorem iplistRead_iff {cgi : CgiLib} (hcgi : cgi.Behaves) (strict : Bool) {ip : List UInt8}
    (hip : ip.length = 16) (lines : List (List UInt8)) :
    (EachLine cgi (Agrees strict cgi) ip lines ↔ EachLine cgi (Proper strict cgi) ip lines) ∧
    (EachLine cgi (Proper strict cgi) ip lines → ∀ (ndebug : Bool) (l : IpList),
      IpTreeOk l.tree → ∃ l' whole, iplistRead cgi ndebug l ip lines = .ok (l', whole) ∧
        textRead strict cgi ndebug l lines = .ok (l', whole) ∧ IpTreeOk l'.tree) := by
  have hsame : EachLine cgi (Agrees strict cgi) ip lines ↔
      EachLine cgi (Proper strict cgi) ip lines :=
    eachLine_congr hcgi (fun _ linebuff hip => agrees_iff_proper hcgi strict hip linebuff)
      (by omega)
  refine ⟨hsame, fun hproper ndebug l hl => ?_⟩
  obtain ⟨l', whole, hread, hl'⟩ := textRead_ok strict cgi ndebug hl lines
  refine ⟨l', whole, ?_, hread, hl'⟩
  rw [iplistRead_of_agrees hcgi (by omega) (hsame.mpr hproper), hread]

/-- A host, a blank line, and a network with all its octets. -/
theorem iplistRead_iff_network :
    ∃ l' whole,
      iplistRead stdCgi false IpList.init (List.replicate 16 255)
        (getlines 10 (ascii "10.9.8.7 accept\n\n10.9.0.0/16 reject\n")) = .ok (l', whole) ∧
      textRead true stdCgi false IpList.init
        (getlines 10 (ascii "10.9.8.7 accept\n\n10.9.0.0/16 reject\n")) = .ok (l', whole) ∧
      IpTreeOk l'.tree :=
  (iplistRead_iff stdCgi_behaves true (by simp) _).2 (by decide +kernel) false IpList.init
    ipTreeOk_init

/-- A short address behind a long one: the octets that the short one does not have are
those of the other. -/
theorem iplistRead_stale :
    ¬ EachLine stdCgi (Agrees false stdCgi) (List.replicate 16 0)
      (getlines 10 (ascii "10.9.8.7 ACCEPT\n10 REJECT\n")) := by
  rw [eachLine_congr stdCgi_behaves
    (fun ip linebuff hip => agrees_iff_proper stdCgi_behaves false hip linebuff) (by decide)]
  decide +kernel

end XGrey
