import XGrey.Clients
import XGrey.TypeGreylist

/-!
# The Responses

What the server puts on the wire (`send_reply` and `send_packet` of `server/gld.c`), and
what the two `check_greylist` of the clients make of a datagram that they receive. The two
differ in the versions they accept.

Neither of them looks at anything that would tell which request a response belongs to:
`struct greylist_response` has no such field.

## Main results

* `gldRecv_clientPacket`: if the server answers the packet of a client, then with a reply
  to a request for a verdict.
* `clientVerdict_reply`: a client gets the response out of such a reply.
-/

open CRuntime

namespace XGrey

/-- `struct greylist_response` behind its checksum field. Its size is a multiple of four,
so that two bytes are sent that nobody has written. -/
def replyBody (r : Reply) (pad : List UInt8) : List UInt8 :=
  htons version ++ (r.mta ++ (htons r.type.code ++ (htons (r.response % 65536).toNat ++
    (htons r.why.code ++ pad))))

/-- An output behind its checksum field. -/
def Output.body (pad : List UInt8) : Output → List UInt8
  | .reply r => replyBody r pad
  | .packet body => body

/-- `send_packet` -/
def sendPacket (cfg : Config) (pad : List UInt8) (out : Output) : Exec (List UInt8) :=
  signPacket cfg.ndebug cfg.secret (htonl 0 ++ out.body pad)

/-- The end of `check_greylist`, on a datagram that is received into a buffer. A response
that a client does not understand is taken for `ACCEPT`. -/
def clientVerdict (cfg : Config) (accepts : ℕ → Bool) (buf data : List UInt8) : Exec ℤ := do
  let (packet, rrc) := recvfrom buf data
  let crc ← crc32 cfg.ndebug initCrc32 (packet.drop 4) (sizeT (rrc - 4))
  let crc ← crc32 cfg.ndebug crc cfg.secret cfg.secret.length
  if crc.toNat ≠ ntohl packet 0 then .ok Ift.accept
  else if accepts (ntohs packet 4) = false then .ok Ift.accept
  else if ntohs packet 6 ≠ mtaPostfix then .ok Ift.accept
  else if ntohs packet 8 ≠ Cmd.greylistResp.code then .ok Ift.accept
  else .ok (ntohs packet 10)

/-- The end of `check_greylist` of the Postfix client. -/
def pfcVerdict (cfg : Config) (buf data : List UInt8) : Exec ℤ :=
  clientVerdict cfg (fun v => decide (v = version)) buf data

/-- The end of `check_greylist` of the Sendmail client. -/
def smcVerdict (cfg : Config) (buf data : List UInt8) : Exec ℤ :=
  clientVerdict cfg (fun v => decide (v ≤ version)) buf data

/-! ### What a client understands -/

/-- The checksum that a client computes is the one that the server would. -/
theorem clientVerdict_eq (cfg : Config) (accepts : ℕ → Bool) (buf : List UInt8)
    {data : List UInt8} (hlen : data.length ≤ 1500) (hlen' : 5 ≤ data.length) :
    clientVerdict cfg accepts buf data =
      .ok (if (checksum cfg.secret (data.drop 4)).toNat ≠
          ntohl (data ++ buf.drop data.length) 0 then Ift.accept
        else if accepts (ntohs (data ++ buf.drop data.length) 4) = false then Ift.accept
        else if ntohs (data ++ buf.drop data.length) 6 ≠ mtaPostfix then Ift.accept
        else if ntohs (data ++ buf.drop data.length) 8 ≠ Cmd.greylistResp.code then Ift.accept
        else ntohs (data ++ buf.drop data.length) 10) := by
  let d : Datagram := ⟨data, 0, 0, false⟩
  have hcrc : (d.request buf).crc cfg = .ok (checksum cfg.secret (data.drop 4)) :=
    crc_request cfg buf hlen hlen'
  have hpacket : (recvfrom buf data).1 = data ++ buf.drop data.length :=
    packet_request buf (show d.data.length ≤ 1500 from hlen)
  have heq : clientVerdict cfg accepts buf data = (do
      let crc ← (d.request buf).crc cfg
      if crc.toNat ≠ ntohl (recvfrom buf data).1 0 then .ok Ift.accept
      else if accepts (ntohs (recvfrom buf data).1 4) = false then .ok Ift.accept
      else if ntohs (recvfrom buf data).1 6 ≠ mtaPostfix then .ok Ift.accept
      else if ntohs (recvfrom buf data).1 8 ≠ Cmd.greylistResp.code then .ok Ift.accept
      else .ok (ntohs (recvfrom buf data).1 10)) := by
    rw [Request.crc, bind_assoc]
    rfl
  rw [heq, hcrc, hpacket, ok_bind]
  split_ifs <;> rfl

/-- **A client understands the server.** Out of the reply to its own kind of request it
gets the response, whatever its buffer held before. -/
theorem clientVerdict_reply (cfg : Config) {accepts : ℕ → Bool}
    (haccepts : accepts version = true) {r : Reply} (hmta : r.mta = htons mtaPostfix)
    (htype : r.type = .greylistResp) {pad data : List UInt8} (hpad : pad.length = 2)
    (hdata : sendPacket cfg pad (.reply r) = .ok data) (buf : List UInt8) :
    clientVerdict cfg accepts buf data = .ok (r.response % 65536) := by
  have hlen : (htonl 0 ++ (Output.reply r).body pad).length = 16 := by
    simp [Output.body, replyBody, hmta, hpad]
  rw [sendPacket, signPacket_eq (by omega) (by omega) cfg.secret_ne] at hdata
  cases hdata
  have hbody : (htonl 0 ++ (Output.reply r).body pad).drop 4 = replyBody r pad := rfl
  rw [hbody]
  have hsize : (replyBody r pad).length = 12 := by
    simp [replyBody, hmta, hpad]
  rw [clientVerdict_eq cfg accepts buf
    (by rw [List.length_append, hsize, length_htonl]; omega)
    (by rw [List.length_append, hsize, length_htonl]; omega)]
  generalize hcrc : (checksum cfg.secret (replyBody r pad)).toNat = crc
  generalize (htonl crc ++ replyBody r pad).length = n
  have hresponse : (r.response % 65536).toNat < 65536 := by omega
  -- the packet as the client reads it
  have hfields : htonl crc ++ replyBody r pad ++ buf.drop n = htonl crc ++ (htons version ++
      (htons mtaPostfix ++ (htons Cmd.greylistResp.code ++
        (htons (r.response % 65536).toNat ++ (htons r.why.code ++ (pad ++ buf.drop n)))))) := by
    simp only [replyBody, hmta, htype, List.append_assoc]
  have hcrc' : (checksum cfg.secret ((htonl crc ++ replyBody r pad).drop 4)).toNat =
      ntohl (htonl crc ++ replyBody r pad ++ buf.drop n) 0 := by
    rw [hfields, ntohl_htonl (hcrc ▸ crc_lt _), ← hcrc]
    rfl
  have hversion : ntohs (htonl crc ++ replyBody r pad ++ buf.drop n) 4 = version := by
    rw [hfields]
    exact ntohs_field (htonl crc) rfl (by decide) _
  have hmta' : ntohs (htonl crc ++ replyBody r pad ++ buf.drop n) 6 = mtaPostfix := by
    rw [hfields, ← List.append_assoc]
    exact ntohs_field (htonl crc ++ htons version) rfl (by decide) _
  have htype' : ntohs (htonl crc ++ replyBody r pad ++ buf.drop n) 8 =
      Cmd.greylistResp.code := by
    rw [hfields, ← List.append_assoc, ← List.append_assoc]
    exact ntohs_field (htonl crc ++ htons version ++ htons mtaPostfix) rfl (by decide) _
  have hresponse' : ntohs (htonl crc ++ replyBody r pad ++ buf.drop n) 10 =
      (r.response % 65536).toNat := by
    rw [hfields, ← List.append_assoc, ← List.append_assoc, ← List.append_assoc]
    exact ntohs_field (htonl crc ++ htons version ++ htons mtaPostfix ++
      htons Cmd.greylistResp.code) rfl hresponse _
  rw [if_neg (not_not.mpr hcrc'), hversion, haccepts, if_neg Bool.noConfusion, hmta',
    if_neg (not_not.mpr rfl), htype', if_neg (not_not.mpr rfl), hresponse']
  congr 1
  omega

/-! ### What a client is answered -/

/-- The packet that a client sends: four bytes of address and two texts of up to 200
bytes. -/
def ClientPacket (cfg : Config) (packet : List UInt8) : Prop :=
  ∃ ip sender recipient : List UInt8,
    ip.length = 4 ∧ sender.length ≤ 200 ∧ recipient.length ≤ 200 ∧
      packet = htonl (checksum cfg.secret (requestBody mtaPostfix Cmd.greylist.code 4
          sender.length recipient.length (ip ++ sender ++ recipient))).toNat ++
        requestBody mtaPostfix Cmd.greylist.code 4 sender.length recipient.length
          (ip ++ sender ++ recipient)

/-- What both clients build is such a packet. -/
theorem clientPacket_signPacket {cfg : Config} {ndebug : Bool} {ip packet : List UInt8}
    (hip : ip.length = 4) (sender recipient : List UInt8)
    (h : signPacket ndebug cfg.secret (greylistRequest mtaPostfix Cmd.greylist.code 4
      (min sender.length 200) (min recipient.length 200)
      (ip ++ sender.take (min sender.length 200) ++
        recipient.take (min recipient.length 200))) = .ok packet) :
    ClientPacket cfg packet := by
  have hsender := length_take_text sender
  have hrecipient := length_take_text recipient
  rw [take_min_length, take_min_length, ← hsender, ← hrecipient,
    signPacket_request cfg.secret_ne _ _ _ _ _ (by simp [hip]; omega)] at h
  cases h
  exact ⟨ip, sender.take 200, recipient.take 200, hip, by omega, by omega, rfl⟩

theorem clientPacket_pfcRequest {cfg : Config} {ndebug : Bool}
    {ip sender recipient packet : List UInt8}
    (h : pfcRequest ndebug cfg.secret ip sender recipient = .ok packet) :
    ClientPacket cfg packet := by
  rw [pfcRequest] at h
  obtain ⟨sender, -, h⟩ := bind_eq_ok.mp h
  obtain ⟨recipient, -, h⟩ := bind_eq_ok.mp h
  obtain ⟨⟨ip, rest⟩, hip, h⟩ := bind_eq_ok.mp h
  exact clientPacket_signPacket (length_of_scanDotted hip) sender recipient h

theorem clientPacket_smcRequest {cfg : Config} {ndebug : Bool}
    {ip sender recipient packet : List UInt8}
    (h : smcRequest ndebug cfg.secret ip sender recipient = .ok packet) :
    ClientPacket cfg packet := by
  rw [smcRequest] at h
  obtain ⟨sender, -, h⟩ := bind_eq_ok.mp h
  obtain ⟨recipient, -, h⟩ := bind_eq_ok.mp h
  obtain ⟨ip, hip, h⟩ := bind_eq_ok.mp h
  have hlen : ip.length = 4 := by
    rw [memcpyField] at hip
    split_ifs at hip with hfit
    cases hip
    rw [List.length_take, List.length_drop]
    omega
  exact clientPacket_signPacket hlen sender recipient h

/-- **The answer to a client.** If the server handles the packet of a client, then it
sends one reply to a request for a verdict, for the MTA of the client. -/
theorem gldRecv_clientPacket {cfg : Config} {srv srv' : Server} {buf buf' packet : List UInt8}
    (hpacket : ClientPacket cfg packet) {now clock : ℤ} {canReport : Bool}
    {outs : List Output}
    (h : gldRecv cfg srv buf ⟨packet, now, clock, canReport⟩ = .ok (outs, srv', buf')) :
    ∃ r : Reply, outs = [.reply r] ∧ r.mta = htons mtaPostfix ∧ r.type = .greylistResp := by
  obtain ⟨ip, sender, recipient, hip, hsender, hrecipient, hsigned⟩ := hpacket
  obtain ⟨crc, r, t, hcrc, hverified, hsane, -⟩ := (hsigned ▸ delivers_signed cfg mtaPostfix
    Cmd.greylist.code hip hsender hrecipient : Delivers cfg packet ip sender recipient)
    buf now clock canReport
  generalize hd : (⟨packet, now, clock, canReport⟩ : Datagram) = d at *
  have hdata : d.data = packet := by
    rw [← hd]
  have hlen : d.data.length ≤ 1500 := by
    rw [hdata, hsigned]
    simp [requestBody, hip]
    omega
  -- the header as the server reads it
  have hfields := packet_request buf hlen
  rw [hdata, hsigned, requestBody] at hfields
  simp only [List.append_assoc] at hfields
  generalize hsum : (checksum cfg.secret _).toNat = sum at hfields
  have hversion : ntohs (d.request buf).packet 4 = version := by
    rw [hfields]
    exact ntohs_field (htonl sum) rfl (by decide) _
  have htype : ntohs (d.request buf).packet 8 = Cmd.greylist.code := by
    rw [hfields, ← List.append_assoc, ← List.append_assoc]
    exact ntohs_field (htonl sum ++ htons version ++ htons mtaPostfix) rfl (by decide) _
  have hmta : ((d.request buf).swapField 8).bytes 6 2 = htons mtaPostfix := by
    change (((swapField (d.request buf).packet 8).drop 6).take 2) = _
    rw [List.take_drop, take_swapField _ (by omega), ← List.take_drop, hfields]
    rfl
  have hacc : ((d.request buf).swapField 8).Accepts := by
    by_contra hacc
    rw [greylistSanitizeReq_of_not_accepts cfg hacc] at hsane
    cases hsane
  rw [gldRecv] at h
  dsimp only at h
  rw [hcrc, ok_bind, if_neg (not_not.mpr hverified), if_neg (by omega), htype,
    Cmd.ofCode_code] at h
  obtain ⟨⟨out, srv'', req⟩, hdispatch, h⟩ := bind_eq_ok.mp h
  cases h
  obtain ⟨-, -, rc, why, rfl, -⟩ := typeGreylist_inv hacc hdispatch
  exact ⟨_, rfl, hmta, rfl⟩

end XGrey
