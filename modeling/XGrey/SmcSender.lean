import XGrey.ClientRuns
import XGrey.Formats

/-!
# The Sender of a Connection

The Sendmail client keeps the sender of a mail between two callbacks: `mf_mail_from` copies
it to a buffer of 200 bytes, without its terminator, and takes the brackets out of what the
buffer holds then; `mf_rcpt_to` hands the buffer to `check_greylist`. It is cleared by
`mf_connect` only, so that a sender is read on into what an earlier one has left
(`OnlyBrackets` says when nothing of that is seen).

`remove_char` is not part of the sources. It takes characters out of a string in place
(`RemoveChar.Behaves`); what it leaves between the new terminator and the old one is not
known.

## Main results

* `mfMailFrom_sender_iff`: one `MAIL FROM`.
* `run_sender_iff`: the sender that is checked for a recipient, after any callbacks.
-/

open CRuntime StepRun

namespace XGrey

/-! ### Strings -/

/-- A string without its terminator. -/
structure CString where
  text : List UInt8
  nonzero : 0 ∉ text
  deriving DecidableEq

/-- The memory of a string. -/
def CString.memory (s : CString) : List UInt8 := s.text ++ [0]

/-- `isbracket` -/
def isbracket (c : UInt8) : Bool := c == 62 || c == 60

/-- `remove_char`, from the memory of a string to that memory afterwards. -/
abbrev RemoveChar := (UInt8 → Bool) → List UInt8 → List UInt8

/-- `remove_char` takes the rejected characters out of a string in place: it moves the
terminator forward and leaves what is behind the old one alone. -/
structure RemoveChar.Behaves (removeChar : RemoveChar) : Prop where
  inPlace : ∀ (reject : UInt8 → Bool) (text rest : List UInt8), 0 ∉ text →
    ∃ junk, junk.length = (text.filter reject).length ∧
      removeChar reject (text ++ 0 :: rest) =
        (text.filter fun c => !reject c) ++ 0 :: (junk ++ rest)

/-- A loop that copies what is kept to the front and terminates it. -/
def stdRemoveChar : RemoveChar := fun reject mem =>
  let kept := (mem.takeWhile (· ≠ 0)).filter fun c => !reject c
  kept ++ 0 :: mem.drop (kept.length + 1)

/-- `remove_char` where the string may not be terminated. -/
def removeCharAt (removeChar : RemoveChar) (reject : UInt8 → Bool) (mem : List UInt8) :
    Exec (List UInt8) :=
  if 0 ∈ mem then .ok (removeChar reject mem) else .error .memory

/-! ### The callbacks -/

/-- `struct mfprivate` -/
structure MfPrivate where
  ip : List UInt8
  sender : List UInt8

/-- `mf_connect`, on the address of the client. -/
def mfConnect (addr : List UInt8) : MfPrivate where
  ip := addr.take 4
  sender := List.replicate 200 0

/-- `emptynull_string` -/
def emptynullString (cgi : CgiLib) : Option (List UInt8) → Bool
  | none => true
  | some s => cgi.emptyString s

/-- `mf_mail_from`, where `none` stands for `SMFIS_CONTINUE`. -/
def mfMailFrom (cgi : CgiLib) (removeChar : RemoveChar) (tauth : Option (List UInt8))
    (data : MfPrivate) (argv0 : CString) : Exec (Option Sfsistat × MfPrivate) :=
  if ¬ emptynullString cgi tauth then .ok (some .accept, data)
  else do
    let size := min (200 - 1) argv0.text.length
    let sender ← removeCharAt removeChar isbracket
      (argv0.text.take size ++ data.sender.drop size)
    .ok (none, { data with sender := sender })

/-- What `mf_rcpt_to` hands to `check_greylist`. -/
def mfRcptToArgs (removeChar : RemoveChar) (data : MfPrivate) (argv0 : CString) :
    Exec CheckArgs := do
  let recipient ← removeCharAt removeChar isbracket argv0.memory
  .ok { ip := data.ip, sender := data.sender, recipient := recipient }

/-- The callbacks between `mf_connect` and `mf_close`. -/
inductive Callback
  | mailFrom (argv0 : CString)
  | rcptTo (argv0 : CString)

/-- A callback, and what it has checked. -/
def callbackStep (cgi : CgiLib) (removeChar : RemoveChar) (tauth : Option (List UInt8))
    (data : MfPrivate) : Callback → Exec (MfPrivate × Option CheckArgs)
  | .mailFrom argv0 => do
      let (_, data) ← mfMailFrom cgi removeChar tauth data argv0
      .ok (data, none)
  | .rcptTo argv0 => do
      let args ← mfRcptToArgs removeChar data argv0
      .ok (data, some args)

/-! ### `remove_char` -/

/-- A terminated memory is a string, its terminator and a rest. -/
theorem exists_string_of_zero_mem {mem : List UInt8} (h : 0 ∈ mem) :
    ∃ text rest, 0 ∉ text ∧ mem = text ++ 0 :: rest := by
  obtain ⟨text, rest, heq, hnot⟩ := List.eq_append_cons_of_mem h
  exact ⟨text, rest, hnot, heq⟩

theorem stdRemoveChar_behaves : RemoveChar.Behaves stdRemoveChar where
  inPlace reject text rest h := by
    have hcount := List.length_eq_length_filter_add (l := text) reject
    have htake : (text ++ 0 :: rest).takeWhile (· ≠ 0) = text := takeWhile_append_cons h rest
    have hmem : text ++ 0 :: rest = (text ++ [0]) ++ rest := by simp
    refine ⟨(text ++ [0]).drop ((text.filter fun c => !reject c).length + 1), ?_, ?_⟩
    · rw [List.length_drop, List.length_append, List.length_singleton]
      omega
    · rw [stdRemoveChar, htake, hmem, List.drop_append_of_le_length]
      rw [List.length_append, List.length_singleton]
      omega

/-! ### One `MAIL FROM` -/

/-- The sender that is to be checked: the argument of `MAIL FROM`, cut to what the buffer
holds and without its brackets. -/
def CString.sender (argv0 : CString) : List UInt8 :=
  (argv0.text.take 199).filter fun c => !isbracket c

/-- What a buffer holds behind its first bytes, up to the next terminator, is brackets. -/
def OnlyBrackets (mem : List UInt8) (size : ℕ) : Prop :=
  ((mem.drop size).dropWhile isbracket).head? = some 0

instance (mem : List UInt8) (size : ℕ) : Decidable (OnlyBrackets mem size) :=
  inferInstanceAs (Decidable (_ = _))

/-- Only brackets stand in front of a terminator if nothing else is left of it. -/
theorem dropWhile_isbracket_iff {tail : List UInt8} (htail : 0 ∉ tail) (rest : List UInt8) :
    ((tail ++ 0 :: rest).dropWhile isbracket).head? = some 0 ↔
      (tail.filter fun c => !isbracket c) = [] := by
  induction tail with
  | nil => simp [isbracket]
  | cons c tail ih =>
      rw [List.mem_cons, not_or] at htail
      rw [List.cons_append, List.dropWhile_cons, List.filter_cons]
      cases hc : isbracket c with
      | true => simpa using ih htail.2
      | false => simpa using Ne.symm htail.1

/-- The memory that `mf_mail_from` takes the brackets out of. -/
theorem removeCharAt_mailFrom {removeChar : RemoveChar} (hremove : removeChar.Behaves)
    {text tail : List UInt8} (htext : 0 ∉ text) (htail : 0 ∉ tail) (rest : List UInt8) :
    ∃ mem, removeCharAt removeChar isbracket (text ++ (tail ++ 0 :: rest)) = .ok mem ∧
      cstring mem = .ok ((text.filter fun c => !isbracket c) ++
        tail.filter fun c => !isbracket c) := by
  have hnot : 0 ∉ text ++ tail := by simp [htext, htail]
  obtain ⟨junk, -, heq⟩ := hremove.inPlace isbracket (text ++ tail) rest hnot
  refine ⟨_, if_pos (by simp), ?_⟩
  rw [← List.append_assoc, heq, List.filter_append]
  refine cstring_append fun hmem => hnot ?_
  rw [← List.filter_append] at hmem
  exact List.mem_of_mem_filter hmem

/-- **One `MAIL FROM`** of a client that has not authenticated leaves the sender in the
buffer exactly if nothing but brackets is read on behind it. -/
theorem mfMailFrom_sender_iff {cgi : CgiLib} {removeChar : RemoveChar}
    (hremove : removeChar.Behaves) {tauth : Option (List UInt8)}
    (hauth : emptynullString cgi tauth = true) (data : MfPrivate) (argv0 : CString) :
    (∃ r, mfMailFrom cgi removeChar tauth data argv0 = .ok r ∧
        cstring r.2.sender = .ok argv0.sender) ↔
      OnlyBrackets data.sender (min 199 argv0.text.length) := by
  have hcut : argv0.text.take (min (200 - 1) argv0.text.length) = argv0.text.take 199 := by
    rw [← List.take_take, List.take_length]
  have htext : 0 ∉ argv0.text.take 199 := fun h => argv0.nonzero (List.mem_of_mem_take h)
  have hfrom : mfMailFrom cgi removeChar tauth data argv0 =
      removeCharAt removeChar isbracket
          (argv0.text.take 199 ++ data.sender.drop (min 199 argv0.text.length)) >>= fun sender =>
        .ok (none, { data with sender := sender }) := by
    rw [mfMailFrom, if_neg (by simpa using hauth)]
    dsimp only
    rw [hcut]
  rw [hfrom, OnlyBrackets]
  by_cases hzero : 0 ∈ data.sender.drop (min 199 argv0.text.length)
  · obtain ⟨tail, rest, htail, hdrop⟩ := exists_string_of_zero_mem hzero
    obtain ⟨mem, hremoved, hstring⟩ := removeCharAt_mailFrom hremove htext htail rest
    rw [hdrop, hremoved, ok_bind, dropWhile_isbracket_iff htail]
    constructor
    · rintro ⟨r, heq, hsender⟩
      cases heq
      rw [hstring] at hsender
      exact List.append_right_eq_self.mp (Except.ok.inj hsender)
    · intro hnil
      refine ⟨_, rfl, ?_⟩
      rw [hstring, hnil, List.append_nil]
      rfl
  · have herror : removeCharAt removeChar isbracket
        (argv0.text.take 199 ++ data.sender.drop (min 199 argv0.text.length)) =
          .error .memory := if_neg (by simp [htext, hzero])
    rw [herror]
    constructor
    · rintro ⟨r, heq, -⟩
      cases heq
    · intro hhead
      have hmem := List.mem_of_head? hhead
      exact absurd ((List.dropWhile_sublist isbracket).subset hmem) hzero

section Runs

variable (cgi : CgiLib) (removeChar : RemoveChar) (tauth : Option (List UInt8))

/-- `mf_rcpt_to` checks the sender that is in the buffer, and leaves it there. -/
theorem callbackStep_rcptTo (data : MfPrivate) (argv0 : CString) :
    ∃ recipient, callbackStep cgi removeChar tauth data (.rcptTo argv0) =
      .ok (data, some { ip := data.ip, sender := data.sender, recipient := recipient }) := by
  refine ⟨removeChar isbracket argv0.memory, ?_⟩
  have hremoved : removeCharAt removeChar isbracket argv0.memory =
      .ok (removeChar isbracket argv0.memory) := if_pos (by simp [CString.memory])
  rw [callbackStep, mfRcptToArgs, hremoved]
  rfl

/-- Any number of recipients. -/
theorem run_rcptTo (data : MfPrivate) (others : List CString) (rcpt : CString) :
    ∃ outs recipient, run (callbackStep cgi removeChar tauth) data
        (others.map .rcptTo ++ [.rcptTo rcpt]) =
      .ok (data, outs ++
        [some { ip := data.ip, sender := data.sender, recipient := recipient }]) := by
  induction others with
  | nil =>
      obtain ⟨recipient, hstep⟩ := callbackStep_rcptTo cgi removeChar tauth data rcpt
      refine ⟨[], recipient, ?_⟩
      rw [List.map_nil, List.nil_append, run_cons_of_ok _ hstep]
      rfl
  | cons other others ih =>
      obtain ⟨outs, recipient, hrun⟩ := ih
      obtain ⟨recipient', hstep⟩ := callbackStep_rcptTo cgi removeChar tauth data other
      refine ⟨some { ip := data.ip, sender := data.sender, recipient := recipient' } :: outs,
        recipient, ?_⟩
      rw [List.map_cons, List.cons_append, run_cons_of_ok _ hstep, hrun]
      rfl

variable {cgi removeChar tauth}

/-- **The sender that is checked.** Take any callbacks of a connection of a client that has
not authenticated, then a `MAIL FROM` and any number of recipients. For the last of them
the argument of this `MAIL FROM` is checked, cut and without its brackets, exactly if the
buffer held only brackets behind it before. -/
theorem run_sender_iff (hremove : removeChar.Behaves)
    (hauth : emptynullString cgi tauth = true) (addr : List UInt8) (before : List Callback)
    {data : MfPrivate} {outs : List (Option CheckArgs)}
    (hrun : run (callbackStep cgi removeChar tauth) (mfConnect addr) before = .ok (data, outs))
    (argv0 : CString) (others : List CString) (rcpt : CString) :
    (∃ data' outs' args, run (callbackStep cgi removeChar tauth) (mfConnect addr)
        (before ++ .mailFrom argv0 :: (others.map .rcptTo ++ [.rcptTo rcpt])) =
          .ok (data', outs' ++ [some args]) ∧ cstring args.sender = .ok argv0.sender) ↔
      OnlyBrackets data.sender (min 199 argv0.text.length) := by
  rw [← mfMailFrom_sender_iff hremove hauth, run_append_of_ok _ hrun]
  cases hfrom : mfMailFrom cgi removeChar tauth data argv0 with
  | error e =>
      have hstep : callbackStep cgi removeChar tauth data (.mailFrom argv0) = .error e := by
        rw [callbackStep, hfrom]
        rfl
      rw [run_cons_of_error _ hstep]
      constructor
      · rintro ⟨data', outs', args, heq, -⟩
        cases heq
      · rintro ⟨r, heq, -⟩
        cases heq
  | ok r =>
      obtain ⟨status, data₁⟩ := r
      have hstep : callbackStep cgi removeChar tauth data (.mailFrom argv0) =
          .ok (data₁, none) := by
        rw [callbackStep, hfrom]
        rfl
      obtain ⟨outs₁, recipient, hrcpt⟩ := run_rcptTo cgi removeChar tauth data₁ others rcpt
      rw [run_cons_of_ok _ hstep, hrcpt]
      constructor
      · rintro ⟨data', outs', args, heq, hsender⟩
        have houts : (outs ++ none :: outs₁) ++
            [some { ip := data₁.ip, sender := data₁.sender, recipient := recipient }] =
              outs' ++ [some args] := by
          rw [List.append_assoc]
          exact congrArg Prod.snd (Except.ok.inj heq)
        obtain ⟨-, hlast⟩ := List.append_inj' houts rfl
        cases hlast
        exact ⟨(status, data₁), rfl, hsender⟩
      · rintro ⟨r, heq, hsender⟩
        cases heq
        refine ⟨data₁, outs ++ none :: outs₁,
          { ip := data₁.ip, sender := data₁.sender, recipient := recipient }, ?_, hsender⟩
        simp [Except.map]

end Runs

/-- The argument `<joe@example.com>`. -/
def joeSender : CString := ⟨ascii "<joe@example.com>", by decide⟩

/-- The argument of a mail that is returned. -/
def nullSender : CString := ⟨ascii "<>", by decide⟩

/-- A mail of nobody, and then one of `joe@example.com` on the same connection: the second is
checked for its sender, for both of its recipients. -/
theorem run_sender_second :
    ∃ data outs args, run (callbackStep stdCgi stdRemoveChar none) (mfConnect [10, 0, 0, 1])
        [.mailFrom nullSender, .rcptTo joeSender, .mailFrom joeSender, .rcptTo nullSender,
          .rcptTo joeSender] = .ok (data, outs ++ [some args]) ∧
      cstring args.sender = .ok joeSender.sender := by
  obtain ⟨⟨data, outs⟩, hrun, hbrackets⟩ := exists_of_okAnd
    (run (callbackStep stdCgi stdRemoveChar none) (mfConnect [10, 0, 0, 1])
      [.mailFrom nullSender, .rcptTo joeSender])
    (fun r => decide (OnlyBrackets r.1.sender (min 199 joeSender.text.length)))
    (by decide +kernel)
  exact (run_sender_iff stdRemoveChar_behaves rfl [10, 0, 0, 1]
    [.mailFrom nullSender, .rcptTo joeSender] hrun joeSender [nullSender] joeSender).mpr
      (of_decide_eq_true hbrackets)

/-- A mail of `joe@example.com`, and then one of nobody on the same connection: the second
is checked for what is left of the first sender. -/
theorem run_sender_stale :
    nullSender.sender = [] ∧
    ∃ data outs args, run (callbackStep stdCgi stdRemoveChar none) (mfConnect [10, 0, 0, 1])
        [.mailFrom joeSender, .rcptTo joeSender, .mailFrom nullSender, .rcptTo joeSender] =
          .ok (data, outs ++ [some args]) ∧
      cstring args.sender = .ok (ascii "e@example.com") := by
  refine ⟨rfl, _, [none, some _, none], _, rfl, rfl⟩

end XGrey
