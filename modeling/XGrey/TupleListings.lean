import Mathlib.Data.List.Flatten
import XGrey.WhitelistDump

/-!
# The Listings of the Tuples

`tuple_dump_stream` and `tuple_all_dump_stream` of `server/tuple.c`, which together with
`whitelist_dump_stream` show the live tuples to the control program: those on the greylist,
all of them, and those on the whitelist. Each of the three has a test of its own on the flags
of a tuple.

The test of `tuple_dump_stream` is meant for tuples that are not whitelisted, but the negation
in it binds more tightly than the mask, so that it is passed by the tuples without any flag.
A tuple that has been cut off, or has an IPv6 address, is in none of the two lists.

## Main results

* `run_tuple_listings`: what the three listings show in any state that the server reaches, and
  when the first shows what it should.
* `run_tuple_listings_short`: it does as long as no request has a long address.
-/

open CRuntime StepRun

namespace XGrey

/-! ### The listings -/

/-- The test of `tuple_dump_stream`, `!f & F_WHITELIST`, where `!f` is one or zero. -/
def Tuple.listed (t : Tuple) : Bool := hasFlag (if t.f = 0#32 then 1#32 else 0#32) fWhitelist

/-- The letter for a flag. -/
def flagLetter (f flag : Flags) (letter : UInt8) : UInt8 := if hasFlag f flag then letter else 45

/-- The flags of a tuple as they are shown. -/
def flagLetters (f : Flags) : List UInt8 :=
  [flagLetter f fWhitelist 87, flagLetter f fRemove 68, flagLetter f fTruncfrom 70,
    flagLetter f fTruncto 84, flagLetter f fIPv6 54]

/-- `%lu` of a time. -/
def timeText (time : ℤ) : List UInt8 := decimal (time % 18446744073709551616).toNat

/-- The line for a tuple in the first two listings, with its newline. -/
def tupleDumpLine (t : Tuple) : Exec (List UInt8) := do
  let sender ← dumpField t.fromsize t.fromText
  let recipient ← dumpField t.tosize t.toText
  .ok (ipv4 t.ip ++ 32 :: (sender ++ 32 :: (recipient ++ 32 :: (flagLetters t.f ++ 32 ::
    (timeText t.ctime ++ 32 :: (timeText t.atime ++ [10]))))))

/-- The loop of the listings: a line for each tuple that passes a test. -/
def dumpTuples (test : Tuple → Bool) (line : Tuple → Exec (List UInt8)) :
    List Tuple → Exec (List UInt8)
  | [] => .ok []
  | t :: tuples =>
      if test t then do
        let text ← line t
        let rest ← dumpTuples test line tuples
        .ok (text ++ rest)
      else dumpTuples test line tuples

/-- `tuple_dump_stream` -/
def tupleDumpStream (s : TupleSpace) : Exec (List UInt8) :=
  dumpTuples Tuple.listed tupleDumpLine s.liveTuples

/-- `tuple_all_dump_stream` -/
def tupleAllDumpStream (s : TupleSpace) : Exec (List UInt8) :=
  dumpTuples (fun _ => true) tupleDumpLine s.liveTuples

/-- What such a loop writes. -/
theorem dumpTuples_eq {test : Tuple → Bool} {line : Tuple → Exec (List UInt8)}
    {text : Tuple → List UInt8} {tuples : List Tuple}
    (h : ∀ t ∈ tuples, line t = .ok (text t)) :
    dumpTuples test line tuples = .ok ((tuples.filter test).flatMap text) := by
  induction tuples with
  | nil => rfl
  | cons t tuples ih =>
      obtain ⟨ht, hrest⟩ := List.forall_mem_cons.mp h
      rw [dumpTuples]
      by_cases htest : test t = true
      · rw [if_pos htest, ht, ok_bind, ih hrest, ok_bind, List.filter_cons_of_pos htest,
          List.flatMap_cons]
      · rw [if_neg htest, ih hrest, List.filter_cons_of_neg htest]

/-- The line for a tuple in the first two listings. -/
def Tuple.infoLine (t : Tuple) : List UInt8 :=
  ipv4 t.ip ++ 32 :: (fieldText t.fromBytes ++ 32 :: (fieldText t.toBytes ++ 32 ::
    (flagLetters t.f ++ 32 :: (timeText t.ctime ++ 32 :: (timeText t.atime ++ [10])))))

theorem tupleDumpLine_eq {t : Tuple} (h : t.Padded) : tupleDumpLine t = .ok t.infoLine := by
  have hsender := dumpField_eq (t.length_fromBytes.trans_le t.fromsize_le)
  have hrecipient := dumpField_eq (t.length_toBytes.trans_le t.tosize_le)
  rw [← h.sender, t.length_fromBytes] at hsender
  rw [← h.recipient, t.length_toBytes] at hrecipient
  rw [tupleDumpLine, hsender, ok_bind, hrecipient, ok_bind, Tuple.infoLine]

/-! ### The flags -/

/-- The tuple has no other flags than the five that there are. -/
def Tuple.Flagged (t : Tuple) : Prop := t.f >>> 5 = 0#32

/-- The tuple has a flag from the request that it was made for: a part of it was cut off, or
the address is one of IPv6. -/
def Tuple.Special (t : Tuple) : Prop :=
  hasFlag t.f fTruncfrom = true ∨ hasFlag t.f fTruncto = true ∨ hasFlag t.f fIPv6 = true

instance Tuple.decidableSpecial (t : Tuple) : Decidable t.Special :=
  inferInstanceAs (Decidable (_ ∨ _ ∨ _))

theorem shiftRight_or (f g : Flags) : (f ||| g) >>> 5 = f >>> 5 ||| g >>> 5 := by
  ext i hi
  simp

theorem lasting_flagged : Lasting Tuple.Flagged where
  setFlag t flag hflag h := by
    have hzero : flag >>> 5 = 0#32 := by
      rcases hflag with rfl | rfl <;> rfl
    rw [Tuple.Flagged] at h ⊢
    rw [Tuple.setFlag, shiftRight_or, h, hzero]
    rfl
  touch _ _ h := h

/-- The flags that a tuple is made with are not set later. -/
theorem lasting_not_special : Lasting fun t => ¬ t.Special where
  setFlag t flag hflag h := by
    have hother : hasFlag flag fTruncfrom = false ∧ hasFlag flag fTruncto = false ∧
        hasFlag flag fIPv6 = false := by
      rcases hflag with rfl | rfl <;> exact ⟨rfl, rfl, rfl⟩
    obtain ⟨hsender, hrecipient, hip⟩ := hother
    rwa [Tuple.Special, Tuple.setFlag, hasFlag_or, hasFlag_or, hasFlag_or, hsender, hrecipient,
      hip, Bool.or_false, Bool.or_false, Bool.or_false]
  touch _ _ h := h

/-- A flag is a bit. -/
theorem hasFlag_shiftLeft (f : Flags) {i : ℕ} (hi : i < 32) :
    hasFlag f (1#32 <<< i) = f.getLsbD i := by
  rw [hasFlag, ← BitVec.twoPow_eq, BitVec.and_twoPow]
  cases hbit : f.getLsbD i with
  | false => simp
  | true =>
      rw [if_pos rfl, bne_iff_ne]
      intro hzero
      have hset : (BitVec.twoPow 32 i).getLsbD i = true := by simp [hi]
      rw [hzero] at hset
      simp at hset

/-- A tuple has no flag when it has none of the five. -/
theorem Tuple.Flagged.eq_zero_iff {t : Tuple} (h : t.Flagged) :
    t.f = 0#32 ↔ t.whitelisted = false ∧ t.removed = false ∧ ¬ t.Special := by
  constructor
  · intro hzero
    simp [Tuple.whitelisted, Tuple.removed, Tuple.Special, hzero]
  · rintro ⟨hwhite, hremove, hspecial⟩
    rw [Tuple.Special, not_or, not_or, Bool.not_eq_true, Bool.not_eq_true, Bool.not_eq_true]
      at hspecial
    obtain ⟨hsender, hrecipient, hip⟩ := hspecial
    rw [Tuple.whitelisted, fWhitelist, hasFlag_shiftLeft _ (by decide)] at hwhite
    rw [Tuple.removed, fRemove, hasFlag_shiftLeft _ (by decide)] at hremove
    rw [fTruncfrom, hasFlag_shiftLeft _ (by decide)] at hsender
    rw [fTruncto, hasFlag_shiftLeft _ (by decide)] at hrecipient
    rw [fIPv6, hasFlag_shiftLeft _ (by decide)] at hip
    refine BitVec.eq_of_getLsbD_eq fun i hi => ?_
    rw [BitVec.getLsbD_zero]
    rcases i with _ | _ | _ | _ | _ | j
    · exact hwhite
    · exact hremove
    · exact hsender
    · exact hrecipient
    · exact hip
    · have hbit := congrArg (fun f => BitVec.getLsbD f j) h
      have hplace : 5 + j = j + 1 + 1 + 1 + 1 + 1 := by omega
      rw [BitVec.getLsbD_ushiftRight, hplace, BitVec.getLsbD_zero] at hbit
      exact hbit

/-- **The test of `tuple_dump_stream`** is passed by the tuples without a flag. -/
theorem Tuple.listed_iff (t : Tuple) : t.listed = true ↔ t.f = 0#32 := by
  rw [Tuple.listed]
  by_cases h : t.f = 0#32
  · rw [if_pos h]
    exact iff_of_true rfl h
  · rw [if_neg h]
    exact iff_of_false (by decide) h

/-! ### Runs -/

/-- A stricter test writes the same only if nothing that passes the other fails it. -/
theorem flatMap_filter_eq_iff {α β : Type*} {p q : α → Bool} {f : α → List β} {l : List α}
    (hle : ∀ a, p a = true → q a = true) (hf : ∀ a, f a ≠ []) :
    (l.filter p).flatMap f = (l.filter q).flatMap f ↔ ∀ a ∈ l, q a = true → p a = true := by
  constructor
  · intro h
    induction l with
    | nil => simp
    | cons a l ih =>
        have hsub : List.Sublist ((l.filter p).flatMap f) ((l.filter q).flatMap f) :=
          (List.monotone_filter_right l hle).flatMap f
        rw [List.forall_mem_cons]
        by_cases hp : p a = true
        · rw [List.filter_cons_of_pos hp, List.filter_cons_of_pos (hle a hp), List.flatMap_cons,
            List.flatMap_cons, List.append_cancel_left_eq] at h
          exact ⟨fun _ => hp, ih h⟩
        · by_cases hq : q a = true
          · -- what `a` adds cannot be made up for
            rw [List.filter_cons_of_neg hp, List.filter_cons_of_pos hq, List.flatMap_cons] at h
            have hlen := hsub.length_le
            have hpos := List.length_pos_iff.mpr (hf a)
            rw [h, List.length_append] at hlen
            omega
          · rw [List.filter_cons_of_neg hp, List.filter_cons_of_neg hq] at h
            exact ⟨fun hq' => absurd hq' hq, ih h⟩
  · intro h
    rw [List.filter_congr fun a ha => Bool.eq_iff_iff.mpr ⟨hle a, h a ha⟩]

/-- A line is not empty. -/
theorem Tuple.infoLine_ne_nil (t : Tuple) : t.infoLine ≠ [] := by
  simp [Tuple.infoLine]

/-- The flags of the tuple of a request. -/
theorem Request.flagged_tuple (cfg : Config) (req : Request) : (req.tuple cfg).Flagged := by
  rw [Tuple.Flagged, Request.tuple, requestTuple, shiftRight_or, shiftRight_or]
  split_ifs <;> rfl

section Runs

variable {cgi : CgiLib} {cfg : Config} {starttime : ℤ} {actions : List Action} {srv : Server}
  {outs : List (List Output)}

theorem makes_flagged (a : Action) : a.Makes cgi cfg Tuple.Flagged := by
  cases a with
  | whitelistLoad now lines =>
      intro line _ t ht
      obtain ⟨ip, sender, recipient, rfl⟩ := WhiteLine.tuple_inv ht
      exact BitVec.zero_ushiftRight
  | request req canReport type => exact fun _ => req.flagged_tuple cfg
  | iplistRead ip lines => trivial
  | tofromRead name lines => trivial
  | sigalrm now => trivial
  | sigusr2 now => trivial

/-- **The listing of the greylist** has no line for the tuples that are cut off or have an
IPv6 address. -/
theorem tupleDumpStream_iff
    (hrun : run (actionStep cgi cfg) (Server.init cfg starttime) actions = .ok (srv, outs)) :
    tupleDumpStream srv.store =
        .ok ((srv.store.liveTuples.filter fun t => !t.whitelisted && !t.removed).flatMap
          Tuple.infoLine) ↔
      ∀ t ∈ srv.store.liveTuples, t.whitelisted = false → t.removed = false → ¬ t.Special := by
  have hpadded := run_liveTuples lasting_padded (fun a _ => makes_padded a) hrun
  have hflagged := run_liveTuples lasting_flagged (fun a _ => makes_flagged a) hrun
  have hle : ∀ t : Tuple, t.listed = true → (!t.whitelisted && !t.removed) = true := by
    intro t ht
    simp [Tuple.whitelisted, Tuple.removed, t.listed_iff.mp ht]
  rw [tupleDumpStream, dumpTuples_eq fun t ht => tupleDumpLine_eq (hpadded t ht),
    Except.ok.injEq, flatMap_filter_eq_iff hle Tuple.infoLine_ne_nil]
  refine forall₂_congr fun t ht => ?_
  rw [t.listed_iff, (hflagged t ht).eq_zero_iff, Bool.and_eq_true, Bool.not_eq_true',
    Bool.not_eq_true']
  constructor
  · intro h hwhite hkept
    exact (h ⟨hwhite, hkept⟩).2.2
  · rintro h ⟨hwhite, hkept⟩
    exact ⟨hwhite, hkept, h hwhite hkept⟩

/-- A step that brings no request with a long address or one of IPv6. -/
def Action.Short : Action → Prop
  | .request req _ _ => req.ipsize ≠ 16 ∧ req.fromsize ≤ 107 ∧ req.tosize ≤ 107
  | _ => True

/-- **As long as the addresses are short**, the listing of the greylist is complete. -/
theorem run_tuple_listings_short (hshort : ∀ a ∈ actions, a.Short)
    (hrun : run (actionStep cgi cfg) (Server.init cfg starttime) actions = .ok (srv, outs)) :
    tupleDumpStream srv.store =
      .ok ((srv.store.liveTuples.filter fun t => !t.whitelisted && !t.removed).flatMap
        Tuple.infoLine) := by
  have hmakes : ∀ a ∈ actions, a.Makes cgi cfg fun t => ¬ t.Special := by
    intro a ha
    have hshort := hshort a ha
    cases a with
    | whitelistLoad now lines =>
        intro line _ t ht
        obtain ⟨ip, sender, recipient, rfl⟩ := WhiteLine.tuple_inv ht
        simp [Tuple.Special, whiteTuple]
    | request req canReport type =>
        obtain ⟨hip, hsender, hrecipient⟩ := hshort
        intro _
        simp [Tuple.Special, Request.tuple, requestTuple, hip, hsender, hrecipient]
    | iplistRead ip lines => trivial
    | tofromRead name lines => trivial
    | sigalrm now => trivial
    | sigusr2 now => trivial
  have hspecial := run_liveTuples lasting_not_special hmakes hrun
  exact (tupleDumpStream_iff hrun).mpr fun t ht _ _ => hspecial t ht

end Runs

/-- **The three listings.** In every state that the server reaches from startup on, the
listing of the whitelist has a line for each live tuple that is whitelisted and not marked for
removal, and that of all tuples one for each live tuple. The listing of the greylist has
lines for exactly those that are neither whitelisted nor marked if and only if none of these
has been cut off or has an IPv6 address. -/
theorem run_tuple_listings (cgi : CgiLib) (cfg : Config) (starttime : ℤ) (actions : List Action)
    (srv : Server) (outs : List (List Output))
    (hrun : run (actionStep cgi cfg) (Server.init cfg starttime) actions = .ok (srv, outs)) :
    whitelistDumpStream srv.store =
        .ok ((srv.store.liveTuples.filter fun t => t.whitelisted && !t.removed).flatMap
          fun t => t.dumpLine ++ [10]) ∧
      tupleAllDumpStream srv.store = .ok (srv.store.liveTuples.flatMap Tuple.infoLine) ∧
      (tupleDumpStream srv.store =
          .ok ((srv.store.liveTuples.filter fun t => !t.whitelisted && !t.removed).flatMap
            Tuple.infoLine) ↔
        ∀ t ∈ srv.store.liveTuples, t.whitelisted = false → t.removed = false →
          ¬ t.Special) := by
  have hpadded := run_liveTuples lasting_padded (fun a _ => makes_padded a) hrun
  refine ⟨?_, ?_, tupleDumpStream_iff hrun⟩
  · have hdumped : ∀ t ∈ srv.store.liveTuples, t.dumped = (t.whitelisted && !t.removed) := by
      intro t _
      rw [Bool.eq_iff_iff, t.dumped_iff]
      simp
    rw [whitelistDumpStream_eq hpadded, TupleSpace.dumpedTuples, List.filter_congr hdumped]
  · rw [tupleAllDumpStream, dumpTuples_eq fun t ht => tupleDumpLine_eq (hpadded t ht),
      List.filter_true]

/-- Two letters on the greylist and two on the whitelist. -/
theorem run_tuple_listings_letters :
    ∃ srv outs, run (actionStep stdCgi smallConfig) (Server.init smallConfig 0)
        [.request (letterRequest 97 98 0) false (some .greylist),
          .request (letterRequest 99 100 0) false (some .whitelist)] = .ok (srv, outs) ∧
      tupleDumpStream srv.store =
        .ok ((srv.store.liveTuples.filter fun t => !t.whitelisted && !t.removed).flatMap
          Tuple.infoLine) := by
  obtain ⟨⟨srv, outs⟩, hrun, htest⟩ := exists_of_okAnd
    (run (actionStep stdCgi smallConfig) (Server.init smallConfig 0)
      [.request (letterRequest 97 98 0) false (some .greylist),
        .request (letterRequest 99 100 0) false (some .whitelist)])
    (fun r => decide (∀ t ∈ r.1.store.liveTuples, ¬ t.Special)) (by decide +kernel)
  obtain ⟨-, -, hiff⟩ := run_tuple_listings stdCgi smallConfig 0 _ srv outs hrun
  exact ⟨srv, outs, hrun, hiff.mpr fun t ht _ _ => of_decide_eq_true htest t ht⟩

/-- A request with a sender of 108 bytes. -/
def longRequest : Request where
  packet := [0, 0, 0, 0, 1, 1, 0, 3, 0, 2, 0, 4, 0, 108, 0, 1, 10, 0, 0, 1] ++
    (List.replicate 108 97 ++ [98])
  size := 129
  now := 0
  clock := 0
  size_le := by simp

/-- The tuple of a sender of 108 bytes is on the greylist and not in its listing. -/
theorem run_tuple_listings_long :
    ∃ srv outs t, run (actionStep stdCgi smallConfig) (Server.init smallConfig 0)
        [.request longRequest false (some .greylist)] = .ok (srv, outs) ∧
      t ∈ srv.store.liveTuples ∧ t.whitelisted = false ∧ t.removed = false ∧
      tupleDumpStream srv.store = .ok [] := by
  obtain ⟨⟨srv, outs⟩, hrun, htest⟩ := exists_of_okAnd
    (run (actionStep stdCgi smallConfig) (Server.init smallConfig 0)
      [.request longRequest false (some .greylist)])
    (fun r => decide ((∃ t ∈ r.1.store.liveTuples, t.whitelisted = false ∧
      t.removed = false) ∧ tupleDumpStream r.1.store = .ok [])) (by decide +kernel)
  obtain ⟨⟨t, ht, hwhite, hkept⟩, hdump⟩ := of_decide_eq_true htest
  exact ⟨srv, outs, t, hrun, ht, hwhite, hkept, hdump⟩

end XGrey
