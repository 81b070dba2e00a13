import XGrey.Responses

/-!
# Failing Open

What the two `check_greylist` of the clients come to, for everything that `recvfrom` may
return to them. They are meant to let a mail pass whenever they do not understand the
answer.

The packet is a local variable that nobody clears: a byte of it that was not received has
no value, and to read one is a fault here (`receivedField`). `checkGreylist` is the end of
the two functions under this reading of the memory; `clientVerdict`, which gives the rest
of the packet some content, agrees with it where it does not fail.

## Main results

* `clientVerdict_of_checkGreylist`: what `checkGreylist` returns, `clientVerdict` returns.
* `checkGreylist_failsOpen_iff`: on which outcomes the clients fail open.
* `mailAnswer_of_failsOpen`: what that means for their answer to the mail server.
-/

open CRuntime

namespace XGrey

/-! ### Receiving -/

/-- What `recvfrom` comes to for a client. -/
inductive Received
  /-- an error, or the signal after the timeout -/
  | failed
  /-- a datagram -/
  | datagram (data : List UInt8)

/-- A field of two bytes of a packet of which some bytes were received, `ntohs`. -/
def receivedField (packet : List UInt8) (off : ℕ) : Exec ℕ :=
  if off + 2 ≤ packet.length then .ok (ntohs packet off) else .error .memory

/-- The checksum field of such a packet, `ntohl`. -/
def receivedCrc (packet : List UInt8) : Exec ℕ :=
  if 4 ≤ packet.length then .ok (ntohl packet 0) else .error .memory

/-- The end of `check_greylist`, from the call of `recvfrom` on. A packet of another type is
logged with its response before it is let pass. -/
def checkGreylist (cfg : Config) (accepts : ℕ → Bool) : Received → Exec ℤ
  | .failed => .ok Ift.accept
  | .datagram data => do
      let packet := data.take 1500
      let crc ← crc32 cfg.ndebug initCrc32 (packet.drop 4) (sizeT (packet.length - 4))
      let crc ← crc32 cfg.ndebug crc cfg.secret cfg.secret.length
      let sent ← receivedCrc packet
      if crc.toNat ≠ sent then .ok Ift.accept
      else do
        let v ← receivedField packet 4
        if accepts v = false then .ok Ift.accept
        else do
          let mta ← receivedField packet 6
          if mta ≠ mtaPostfix then .ok Ift.accept
          else do
            let type ← receivedField packet 8
            if type ≠ Cmd.greylistResp.code then do
              let _ ← receivedField packet 10
              .ok Ift.accept
            else do
              let response ← receivedField packet 10
              .ok response

/-- The versions that the Postfix client accepts. -/
def pfcAccepts (v : ℕ) : Bool := decide (v = version)

/-- The versions that the Sendmail client accepts. -/
def smcAccepts (v : ℕ) : Bool := decide (v ≤ version)

/-- The end of `check_greylist` of the Postfix client. -/
def pfcCheckGreylist (cfg : Config) (r : Received) : Exec ℤ := checkGreylist cfg pfcAccepts r

/-- The end of `check_greylist` of the Sendmail client. -/
def smcCheckGreylist (cfg : Config) (r : Received) : Exec ℤ := checkGreylist cfg smcAccepts r

/-- What the mail server is told to do with a mail. -/
inductive MailAnswer
  /-- `m_dunno`, `SMFIS_ACCEPT` -/
  | pass
  /-- `m_reject`, `SMFIS_REJECT` -/
  | refuse
  /-- `m_defer`, `SMFIS_TEMPFAIL` -/
  | defer
  deriving DecidableEq, Repr

/-- The switch over the result of `check_greylist`, in `process_request` and `mf_rcpt_to`.
Its default is not expected, and falls through to the first case. -/
def mailAnswer (ndebug : Bool) (response : ℤ) : Exec MailAnswer :=
  if response = Ift.accept then .ok .pass
  else if response = Ift.reject then .ok .refuse
  else if response = Ift.greylist then .ok .defer
  else do
    cassert ndebug False
    .ok .pass

/-! ### The promise -/

/-- `sizeof(struct greylist_response)` -/
def greylistResponseSize : ℕ := 16

/-- What was received is a complete response with a given verdict. -/
structure IsResponse (cfg : Config) (accepts : ℕ → Bool) (packet : List UInt8) (v : ℤ) :
    Prop where
  complete : greylistResponseSize ≤ packet.length
  verified : Verified cfg packet
  version : accepts (ntohs packet 4) = true
  mta : ntohs packet 6 = mtaPostfix
  type : ntohs packet 8 = Cmd.greylistResp.code
  response : (ntohs packet 10 : ℤ) = v

/-- A result of a client fails open: it is a verdict, and one that does not let the mail
pass only if that is what a complete response says. -/
def FailsOpen (cfg : Config) (accepts : ℕ → Bool) (r : Received) (result : Exec ℤ) : Prop :=
  ∃ v, result = .ok v ∧ IsVerdict v ∧
    (v ≠ Ift.accept → ∃ data, r = .datagram data ∧
      IsResponse cfg accepts (data.take 1500) v)

/-- A packet that is safe for a client: it is longer than its checksum and, if that
verifies, long enough for every field that is looked at before it is let pass; and a
response in it is `ACCEPT`, or a complete one with another verdict. -/
def SafePacket (cfg : Config) (accepts : ℕ → Bool) (packet : List UInt8) : Prop :=
  (5 ≤ packet.length ∨ (cfg.ndebug = true ∧ packet.length = 4)) ∧
    (Verified cfg packet → 6 ≤ packet.length ∧
      (accepts (ntohs packet 4) = true → 8 ≤ packet.length ∧
        (ntohs packet 6 = mtaPostfix → 12 ≤ packet.length ∧
          (ntohs packet 8 = Cmd.greylistResp.code →
            (ntohs packet 10 : ℤ) = Ift.accept ∨
              (IsVerdict (ntohs packet 10) ∧ greylistResponseSize ≤ packet.length)))))

/-- What is safe for a client to receive. -/
def SafeToReceive (cfg : Config) (accepts : ℕ → Bool) : Received → Prop
  | .failed => True
  | .datagram data => SafePacket cfg accepts (data.take 1500)

/-! ### What is read of a packet -/

section Packet

variable {cfg : Config} {accepts : ℕ → Bool} {packet : List UInt8} {P : ℤ → Prop}

/-- The checksum of a packet with anything behind its checksum field. -/
theorem crc_packet (h : 5 ≤ packet.length ∨ (cfg.ndebug = true ∧ packet.length = 4))
    (h' : packet.length ≤ 1500) :
    (do
      let crc ← crc32 cfg.ndebug initCrc32 (packet.drop 4) (sizeT (packet.length - 4))
      crc32 cfg.ndebug crc cfg.secret cfg.secret.length) =
      .ok (checksum cfg.secret (packet.drop 4)) := by
  have hsize : sizeT (packet.length - 4) = (packet.drop 4).length := by
    rw [sizeT, List.length_drop]
    omega
  rw [hsize]
  rcases h with hlen | ⟨hndebug, hlen⟩
  · rw [crc32_crc32 cfg.ndebug (by rw [List.length_drop]; omega) (Nat.le_refl _)
      cfg.secret_ne, List.take_length]
  · have hnil : packet.drop 4 = [] := List.drop_eq_nil_of_le hlen.le
    have hempty : crc32 cfg.ndebug initCrc32 [] 0 = .ok initCrc32 := by
      rw [crc32, hndebug, cassert_ndebug, ok_bind]
      rfl
    rw [hnil, List.length_nil, hempty, ok_bind,
      crc32_eq _ (List.length_pos_iff.mpr cfg.secret_ne) (Nat.le_refl _), List.take_length]
    rfl

/-- The checksum of any other packet fails. -/
theorem crc_packet_error
    (h : ¬ (5 ≤ packet.length ∨ (cfg.ndebug = true ∧ packet.length = 4))) :
    ∃ e, crc32 cfg.ndebug initCrc32 (packet.drop 4) (sizeT (packet.length - 4)) = .error e := by
  rw [not_or, not_and] at h
  obtain ⟨hshort, hfour⟩ := h
  have hnil : packet.drop 4 = [] := List.drop_eq_nil_of_le (by omega)
  rw [hnil, crc32, sizeT]
  by_cases hlen : packet.length = 4
  · have hndebug : cfg.ndebug = false := Bool.eq_false_iff.mpr fun hn => hfour hn hlen
    rw [hndebug, cassert_false_of_not (by omega)]
    exact ⟨_, rfl⟩
  · rw [cassert_of (by omega), ok_bind, if_neg (by rw [List.length_nil]; omega)]
    exact ⟨_, rfl⟩

/-- A field that is read has been received. -/
theorem receivedField_bind {off : ℕ} {f : ℕ → Exec ℤ} {v : ℤ} :
    receivedField packet off >>= f = .ok v ↔
      off + 2 ≤ packet.length ∧ f (ntohs packet off) = .ok v := by
  rw [receivedField]
  split_ifs with h
  · rw [ok_bind]
    exact (and_iff_right h).symm
  · rw [error_bind]
    exact iff_of_false (fun hv => by cases hv) fun hand => h hand.1

theorem exists_receivedField {off : ℕ} {f : ℕ → Exec ℤ} :
    (∃ v, receivedField packet off >>= f = .ok v ∧ P v) ↔
      off + 2 ≤ packet.length ∧ ∃ v, f (ntohs packet off) = .ok v ∧ P v := by
  simp only [receivedField_bind, and_assoc, exists_and_left]

/-- A test after which the mail is let pass. -/
theorem exists_ite_accept {c : Prop} [Decidable c] (hP : P Ift.accept) {x : Exec ℤ} :
    (∃ v, (if c then .ok Ift.accept else x) = .ok v ∧ P v) ↔
      (¬ c → ∃ v, x = .ok v ∧ P v) := by
  split_ifs with hc
  · exact iff_of_true ⟨_, rfl, hP⟩ fun hnot => absurd hc hnot
  · exact ⟨fun h _ => h, fun h => h hc⟩

/-- The test of the type, with the response read on both sides of it. -/
theorem exists_type (hP : P Ift.accept) {type : ℕ} :
    (∃ v, (if type ≠ Cmd.greylistResp.code then do
          let _ ← receivedField packet 10
          .ok Ift.accept
        else do
          let response ← receivedField packet 10
          .ok (response : ℤ)) = (.ok v : Exec ℤ) ∧ P v) ↔
      12 ≤ packet.length ∧ (type = Cmd.greylistResp.code → P (ntohs packet 10)) := by
  by_cases htype : type = Cmd.greylistResp.code
  · rw [if_neg (not_not.mpr htype), exists_receivedField]
    refine and_congr_right fun _ => ⟨?_, fun h => ⟨_, rfl, h htype⟩⟩
    rintro ⟨v, hv, hPv⟩ -
    cases hv
    exact hPv
  · rw [if_pos htype, exists_receivedField]
    exact and_congr_right fun _ => iff_of_true ⟨_, rfl, hP⟩ fun h => absurd h htype

/-- **What a client gets out of a datagram**, in terms of what was received of it. -/
theorem checkGreylist_iff (hP : P Ift.accept) (data : List UInt8) :
    (∃ v, checkGreylist cfg accepts (.datagram data) = .ok v ∧ P v) ↔
      (5 ≤ (data.take 1500).length ∨ (cfg.ndebug = true ∧ (data.take 1500).length = 4)) ∧
        (Verified cfg (data.take 1500) → 6 ≤ (data.take 1500).length ∧
          (accepts (ntohs (data.take 1500) 4) = true → 8 ≤ (data.take 1500).length ∧
            (ntohs (data.take 1500) 6 = mtaPostfix → 12 ≤ (data.take 1500).length ∧
              (ntohs (data.take 1500) 8 = Cmd.greylistResp.code →
                P (ntohs (data.take 1500) 10))))) := by
  have hlen : (data.take 1500).length ≤ 1500 := List.length_take_le _ _
  rw [checkGreylist]
  generalize data.take 1500 = packet at hlen ⊢
  by_cases h : 5 ≤ packet.length ∨ (cfg.ndebug = true ∧ packet.length = 4)
  · have hsent : receivedCrc packet = .ok (ntohl packet 0) := if_pos (by omega)
    have hcrc := crc_packet h hlen
    obtain ⟨crc, hfirst, hsecond⟩ := bind_eq_ok.mp hcrc
    rw [hfirst, ok_bind, hsecond, ok_bind, hsent, ok_bind, exists_ite_accept hP, not_not,
      and_iff_right h, ← Verified]
    refine imp_congr_right fun _ => ?_
    rw [exists_receivedField, exists_ite_accept hP, Bool.not_eq_false]
    refine and_congr_right fun _ => imp_congr_right fun _ => ?_
    rw [exists_receivedField, exists_ite_accept hP, not_not]
    refine and_congr_right fun _ => imp_congr_right fun _ => ?_
    rw [exists_receivedField, exists_type hP]
    exact and_iff_right_of_imp fun hand => by omega
  · obtain ⟨e, herror⟩ := crc_packet_error h
    rw [herror, error_bind]
    refine iff_of_false ?_ fun hand => h hand.1
    rintro ⟨v, hv, -⟩
    cases hv

end Packet

/-- A client does not look behind the first 1500 bytes. -/
theorem clientVerdict_take (cfg : Config) (accepts : ℕ → Bool) (buf data : List UInt8) :
    clientVerdict cfg accepts buf (data.take 1500) = clientVerdict cfg accepts buf data := by
  rw [clientVerdict, clientVerdict, recvfrom_take]

/-- Whatever the rest of the packet holds, `clientVerdict` returns what `checkGreylist`
does. -/
theorem clientVerdict_of_checkGreylist {cfg : Config} {accepts : ℕ → Bool}
    {data : List UInt8} (hlen : 5 ≤ (data.take 1500).length) {v : ℤ}
    (h : checkGreylist cfg accepts (.datagram data) = .ok v) (buf : List UInt8) :
    clientVerdict cfg accepts buf data = .ok v := by
  rw [← clientVerdict_take]
  rw [checkGreylist] at h
  have hle : (data.take 1500).length ≤ 1500 := List.length_take_le _ _
  generalize data.take 1500 = packet at hlen hle h ⊢
  rw [clientVerdict_eq cfg accepts buf hle hlen, ntohl_append_left (by omega)]
  have hsent : receivedCrc packet = .ok (ntohl packet 0) := if_pos (by omega)
  obtain ⟨crc, hfirst, hsecond⟩ := bind_eq_ok.mp (@crc_packet cfg packet (Or.inl hlen) hle)
  rw [hfirst, ok_bind, hsecond, ok_bind, hsent, ok_bind] at h
  by_cases hcrc : (checksum cfg.secret (packet.drop 4)).toNat ≠ ntohl packet 0
  · rw [if_pos hcrc] at h ⊢
    exact h
  · rw [if_neg hcrc, receivedField_bind] at h
    rw [if_neg hcrc, ntohs_append_left h.1]
    by_cases hversion : accepts (ntohs packet 4) = false
    · rw [if_pos hversion] at h ⊢
      exact h.2
    · rw [if_neg hversion, receivedField_bind] at h
      rw [if_neg hversion, ntohs_append_left h.2.1]
      by_cases hmta : ntohs packet 6 ≠ mtaPostfix
      · rw [if_pos hmta] at h ⊢
        exact h.2.2
      · rw [if_neg hmta, receivedField_bind] at h
        rw [if_neg hmta, ntohs_append_left h.2.2.1]
        by_cases htype : ntohs packet 8 ≠ Cmd.greylistResp.code
        · rw [if_pos htype, receivedField_bind] at h
          rw [if_pos htype]
          exact h.2.2.2.2
        · rw [if_neg htype, receivedField_bind] at h
          rw [if_neg htype, ntohs_append_left h.2.2.2.1]
          exact h.2.2.2.2

/-- **A client fails open** exactly on what is safe to receive. -/
theorem checkGreylist_failsOpen_iff (cfg : Config) (accepts : ℕ → Bool) (r : Received) :
    FailsOpen cfg accepts r (checkGreylist cfg accepts r) ↔ SafeToReceive cfg accepts r := by
  cases r with
  | failed =>
      exact iff_of_true ⟨_, rfl, Or.inr (Or.inl rfl), fun h => absurd rfl h⟩ trivial
  | datagram data =>
      have haccept : IsVerdict Ift.accept := Or.inr (Or.inl rfl)
      rw [FailsOpen, checkGreylist_iff ⟨haccept, fun h => absurd rfl h⟩, SafeToReceive,
        SafePacket]
      refine and_congr_right fun _ => forall_congr' fun hverified => and_congr_right fun _ =>
        forall_congr' fun hversion => and_congr_right fun _ => forall_congr' fun hmta =>
          and_congr_right fun _ => forall_congr' fun htype => ?_
      constructor
      · rintro ⟨hverdict, hresponse⟩
        by_cases hpass : (ntohs (data.take 1500) 10 : ℤ) = Ift.accept
        · exact Or.inl hpass
        · obtain ⟨data', hdata, hresp⟩ := hresponse hpass
          cases hdata
          exact Or.inr ⟨hverdict, hresp.complete⟩
      · rintro (hpass | ⟨hverdict, hcomplete⟩)
        · exact ⟨hpass ▸ haccept, fun h => absurd hpass h⟩
        · exact ⟨hverdict, fun _ => ⟨data, rfl, hcomplete, hverified, hversion, hmta, htype,
            rfl⟩⟩

/-- What fails open does not run into the default of the switch, and holds a mail back only
for a complete response. -/
theorem mailAnswer_of_failsOpen {cfg : Config} {accepts : ℕ → Bool} {r : Received}
    {result : Exec ℤ} (h : FailsOpen cfg accepts r result) (ndebug : Bool) :
    ∃ a, result >>= mailAnswer ndebug = .ok a ∧ (a ≠ .pass → ∃ data v, r = .datagram data ∧
      IsResponse cfg accepts (data.take 1500) v) := by
  obtain ⟨v, rfl, hv, hresponse⟩ := h
  rw [ok_bind, mailAnswer]
  by_cases haccept : v = Ift.accept
  · exact ⟨.pass, if_pos haccept, fun hpass => absurd rfl hpass⟩
  · obtain ⟨data, hdata, hresp⟩ := hresponse haccept
    rw [if_neg haccept]
    rcases hv with hgrey | hacc | hrej
    · subst hgrey
      exact ⟨.defer, rfl, fun _ => ⟨data, _, hdata, hresp⟩⟩
    · exact absurd hacc haccept
    · exact ⟨.refuse, if_pos hrej, fun _ => ⟨data, _, hdata, hresp⟩⟩

/-- **Both clients.** -/
theorem failsOpen_iff (cfg : Config) (r : Received) :
    (FailsOpen cfg pfcAccepts r (pfcCheckGreylist cfg r) ↔ SafeToReceive cfg pfcAccepts r) ∧
      (FailsOpen cfg smcAccepts r (smcCheckGreylist cfg r) ↔
        SafeToReceive cfg smcAccepts r) :=
  ⟨checkGreylist_failsOpen_iff cfg pfcAccepts r, checkGreylist_failsOpen_iff cfg smcAccepts r⟩

/-- Any four bytes end a client that was built with assertions, and fewer make it read
beyond what was received. -/
theorem not_failsOpen_short :
    ¬ FailsOpen (Config.default false) pfcAccepts (.datagram [0, 0, 0, 0])
        (pfcCheckGreylist (Config.default false) (.datagram [0, 0, 0, 0])) ∧
      ¬ FailsOpen (Config.default false) smcAccepts (.datagram [])
        (smcCheckGreylist (Config.default false) (.datagram [])) := by
  have hfour : pfcCheckGreylist (Config.default false) (.datagram [0, 0, 0, 0]) =
      .error .assertion := by decide
  have hempty : smcCheckGreylist (Config.default false) (.datagram []) = .error .memory := by
    decide
  rw [hfour, hempty]
  constructor
  · rintro ⟨v, hv, -⟩
    cases hv
  · rintro ⟨v, hv, -⟩
    cases hv

end XGrey
