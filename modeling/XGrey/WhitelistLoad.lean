import XGrey.Dotted
import XGrey.FullPool

/-!
# Loading the Whitelist

`whitelist_load` of `server/tuple.c`, which fills the tuple space from the whitelist file
at startup, and what it does to a store that is in order.

A line is read with four calls of `strtoul` that each skip one character behind the
number, so that on a short line the reading goes on in the memory behind it: a line comes
with that memory.

## Main results

* `WhiteLine.tuple_fresh`: the tuple of a line is one as the store expects it.
* `whitelistLoadLine_eq`: a line leaves a store in order when its tuple is one that it
  holds, or one that is inserted in its place.
-/

open CRuntime Lexicographic

namespace XGrey

/-- A line of the whitelist file as `getline` delivers it, what the memory behind its
trimmed text holds, and what `time(NULL)` returns if the pool has to be swept for it. -/
structure WhiteLine where
  text : List UInt8
  rest : List UInt8
  clock : ℤ

/-- A field of a line, in which `-` stands for an empty text. -/
def whiteField (field : List UInt8) : List UInt8 :=
  if strcmp field (ascii "-") = .eq then [] else field.take 107

theorem length_whiteField (field : List UInt8) : (whiteField field).length ≤ 107 := by
  rw [whiteField]
  split_ifs
  · exact Nat.zero_le _
  · rw [List.length_take]
    exact Nat.min_le_left ..

/-- The tuple of an address and two fields. -/
def whiteTuple (ndebug : Bool) (now : ℤ) (ip sender recipient : List UInt8) : Tuple where
  ctime := now
  atime := now
  fromsize := (whiteField sender).length
  tosize := (whiteField recipient).length
  pad := if ndebug then 0 else decafbad
  f := 0#32
  ip := buffer 16 ip
  fromText := buffer 108 (whiteField sender)
  toText := buffer 108 (whiteField recipient)
  fromsize_le := length_whiteField sender
  tosize_le := length_whiteField recipient

/-- The tuple of a line, unless there is no blank in it behind the address. -/
def WhiteLine.tuple (cgi : CgiLib) (ndebug : Bool) (now : ℤ) (line : WhiteLine) :
    Exec (Option Tuple) := do
  let (ip, p) ← scanDotted (cgi.trimSpace line.text ++ 0 :: line.rest)
  let text ← cstring p
  match strchr text 32 with
  | none => .ok none
  | some n => .ok (some (whiteTuple ndebug now ip (text.takeWhile (· ≠ 32)) n.tail))

/-- The loop of `whitelist_load`. -/
def whitelistLoadLine (cgi : CgiLib) (cfg : Config) (now : ℤ) (s : TupleSpace)
    (line : WhiteLine) : Exec TupleSpace :=
  if cgi.emptyString line.text then .ok s
  else do
    match ← line.tuple cgi cfg.ndebug now with
    | none => .ok s
    | some tuple => whitelistLoadTuple cfg s tuple now line.clock

/-- The end of `whitelist_load`. -/
def whitelistLoaded (s : TupleSpace) : TupleSpace :=
  { s with tuplesLow := s.poolnum, tuplesHigh := s.poolnum }

/-- `whitelist_load`, at a time and on the lines of the file. -/
def whitelistLoad (cgi : CgiLib) (cfg : Config) (now : ℤ) (s : TupleSpace)
    (lines : List WhiteLine) : Exec TupleSpace := do
  let s ← lines.foldlM (whitelistLoadLine cgi cfg now) s
  .ok (whitelistLoaded s)

/-! ### The tuple of a line -/

/-- The tuple of a line is fresh. -/
theorem freshTuple_whiteTuple (cfg : Config) (now : ℤ) (ip sender recipient : List UInt8) :
    FreshTuple cfg now (whiteTuple cfg.ndebug now ip sender recipient) where
  ctime := rfl
  atime := rfl
  whitelisted := hasFlag_zero _
  removed := hasFlag_zero _
  pad := by
    cases h : cfg.ndebug with
    | true => exact Or.inl rfl
    | false => exact Or.inr (by simp [whiteTuple])

/-- Reading a number fails only by running out of memory. -/
theorem strtoul_error {mem : List UInt8} {e : Fault} (h : strtoul mem = .error e) :
    e = .memory := by
  rw [strtoul] at h
  dsimp only at h
  split_ifs at h <;> cases h <;> rfl

theorem scanOctet_error {mem : List UInt8} {e : Fault} (h : scanOctet mem = .error e) :
    e = .memory := by
  rw [scanOctet] at h
  cases hn : strtoul mem with
  | error e' =>
      rw [hn] at h
      cases h
      exact strtoul_error hn
  | ok r =>
      rw [hn] at h
      cases h

theorem scanDotted_error {mem : List UInt8} {e : Fault} (h : scanDotted mem = .error e) :
    e = .memory := by
  have hoctets : ∀ n mem e, scanOctets n mem = .error e → e = .memory := by
    intro n
    induction n with
    | zero =>
        intro mem e h
        cases h
    | succ n ih =>
        intro mem e h
        refine bind_error_eq (fun e => scanOctet_error) (fun r _ h => ?_) h
        refine bind_error_eq (ih r.2) (fun _ _ h => ?_) h
        cases h
  exact hoctets 4 mem e ((scanDotted_eq_scanOctets mem).symm.trans h)

theorem cstring_error {mem : List UInt8} {e : Fault} (h : cstring mem = .error e) :
    e = .memory := by
  rw [cstring] at h
  split_ifs at h
  cases h
  rfl

/-- Reading a line fails only by running out of memory. -/
theorem WhiteLine.tuple_error {cgi : CgiLib} {ndebug : Bool} {now : ℤ} {line : WhiteLine}
    {e : Fault} (h : line.tuple cgi ndebug now = .error e) : e = .memory := by
  refine bind_error_eq (fun e => scanDotted_error) (fun r _ h => ?_) h
  refine bind_error_eq (fun e => cstring_error) (fun text _ h => ?_) h
  cases hat : strchr text 32 with
  | none =>
      rw [hat] at h
      cases h
  | some n =>
      rw [hat] at h
      cases h

/-- **A line with a tuple** has an address, and two fields behind it. -/
theorem WhiteLine.tuple_ok {cgi : CgiLib} {ndebug : Bool} {now : ℤ} {line : WhiteLine}
    {t : Tuple} (h : line.tuple cgi ndebug now = .ok (some t)) :
    ∃ ip p text n, scanDotted (cgi.trimSpace line.text ++ 0 :: line.rest) = .ok (ip, p) ∧
      cstring p = .ok text ∧ strchr text 32 = some n ∧
      t = whiteTuple ndebug now ip (text.takeWhile (· ≠ 32)) n.tail := by
  obtain ⟨⟨ip, p⟩, hscan, h⟩ := bind_eq_ok.mp h
  obtain ⟨text, htext, h⟩ := bind_eq_ok.mp h
  cases hat : strchr text 32 with
  | none =>
      rw [hat] at h
      cases h
  | some n =>
      rw [hat] at h
      cases h
      exact ⟨ip, p, text, n, hscan, htext, hat, rfl⟩

/-- What the tuple of a line is made of. -/
theorem WhiteLine.tuple_inv {cgi : CgiLib} {ndebug : Bool} {now : ℤ} {line : WhiteLine}
    {t : Tuple} (h : line.tuple cgi ndebug now = .ok (some t)) :
    ∃ ip sender recipient, t = whiteTuple ndebug now ip sender recipient := by
  obtain ⟨ip, p, text, n, -, -, -, ht⟩ := WhiteLine.tuple_ok h
  exact ⟨ip, _, _, ht⟩

/-- The tuple of a line is fresh, whatever the line says. -/
theorem WhiteLine.tuple_fresh {cgi : CgiLib} {cfg : Config} {now : ℤ} {line : WhiteLine}
    {t : Tuple} (h : line.tuple cgi cfg.ndebug now = .ok (some t)) : FreshTuple cfg now t := by
  obtain ⟨ip, sender, recipient, rfl⟩ := WhiteLine.tuple_inv h
  exact freshTuple_whiteTuple cfg now ip sender recipient

/-! ### A line and the store -/

/-- A line that is loaded brings nothing or its tuple. -/
theorem whitelistLoadLine_inv {cgi : CgiLib} {cfg : Config} {now : ℤ} {s s' : TupleSpace}
    {line : WhiteLine} (hok : whitelistLoadLine cgi cfg now s line = .ok s') :
    s' = s ∨ ∃ t, line.tuple cgi cfg.ndebug now = .ok (some t) ∧
      whitelistLoadTuple cfg s t now line.clock = .ok s' := by
  rw [whitelistLoadLine] at hok
  split_ifs at hok
  · cases hok
    exact Or.inl rfl
  · obtain ⟨found, hfound, hok⟩ := bind_eq_ok.mp hok
    cases found with
    | none =>
        cases hok
        exact Or.inl rfl
    | some t => exact Or.inr ⟨t, hfound, hok⟩

/-- **A line** leaves a store in order, or ends with a line that runs out of memory, when
its tuple can be allocated and goes where it belongs. -/
theorem whitelistLoadLine_eq {cgi : CgiLib} {cfg : Config} {s : TupleSpace} {top : ℕ}
    (h : StoreOk cfg s top) (now : ℤ) {line : WhiteLine}
    (hnew : ∀ t, line.tuple cgi cfg.ndebug now = .ok (some t) → t.key ∉ s.keys →
      Allocates cfg s line.clock ∧ InsertsLine cfg s line.clock t.key) :
    (∃ s' top', whitelistLoadLine cgi cfg now s line = .ok s' ∧ StoreOk cfg s' top') ∨
      whitelistLoadLine cgi cfg now s line = .error .memory := by
  rw [whitelistLoadLine]
  split_ifs
  · exact Or.inl ⟨s, top, rfl, h⟩
  · cases htuple : line.tuple cgi cfg.ndebug now with
    | error e =>
        rw [WhiteLine.tuple_error htuple]
        exact Or.inr rfl
    | ok r =>
        cases r with
        | none => exact Or.inl ⟨s, top, rfl, h⟩
        | some t => exact Or.inl (h.line (WhiteLine.tuple_fresh htuple).pad (hnew t htuple) now)

end XGrey
