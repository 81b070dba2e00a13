import XGrey.Dotted
import XGrey.Receive
import XGrey.Sanitize

/-!
# The Clients

The packets that the Postfix client (`postfix/pfc.c`), the Sendmail client
(`sendmail/smc.c`) and the command `tuple` of the control program (`control/gld-mcp.c`)
build. Each of them writes the header and the data on its own; what they share is the
layout of `struct greylist_request` and the checksum over the packet and the secret.

## Main results

* `greylistSanitizeReq_roundtrip`: what the server accepts and what it makes of it, and
  that it gets the address and the texts out of the packets of all three clients.
-/

open CRuntime Lexicographic

namespace XGrey

/-! ### Packets -/

/-- `struct greylist_request` behind its checksum field, with the data that follow. -/
def requestBody (mta type ipsize fromsize tosize : ℕ) (data : List UInt8) : List UInt8 :=
  htons version ++ htons mta ++ htons type ++ htons ipsize ++ htons fromsize ++
    htons tosize ++ data

/-- A packet whose checksum field is zero, as the clients fill it in. -/
def greylistRequest (mta type ipsize fromsize tosize : ℕ) (data : List UInt8) :
    List UInt8 :=
  htonl 0 ++ requestBody mta type ipsize fromsize tosize data

/-- The end of every client: the checksum is computed over the packet and the secret and
put in front. -/
def signPacket (ndebug : Bool) (secret packet : List UInt8) : Exec (List UInt8) := do
  let crc ← crc32 ndebug initCrc32 (packet.drop 4) (sizeT (packet.length - 4))
  let crc ← crc32 ndebug crc secret secret.length
  .ok (htonl crc.toNat ++ packet.drop 4)

/-- The packet of `check_greylist` of the Postfix client, from the memory that its three
texts lie in. -/
def pfcRequest (ndebug : Bool) (secret ip sender recipient : List UInt8) :
    Exec (List UInt8) := do
  let sender ← cstring sender
  let recipient ← cstring recipient
  let sfrom := min sender.length 200
  let sto := min recipient.length 200
  let (ip, _) ← scanDotted ip
  signPacket ndebug secret (greylistRequest mtaPostfix Cmd.greylist.code 4 sfrom sto
    (ip ++ sender.take sfrom ++ recipient.take sto))

/-- The packet of `check_greylist` of the Sendmail client, which has the address in
binary. -/
def smcRequest (ndebug : Bool) (secret ip sender recipient : List UInt8) :
    Exec (List UInt8) := do
  let sender ← cstring sender
  let recipient ← cstring recipient
  let sfrom := min sender.length 200
  let sto := min recipient.length 200
  let ip ← memcpyField ip 0 4 4
  signPacket ndebug secret (greylistRequest mtaPostfix Cmd.greylist.code 4 sfrom sto
    (ip ++ sender.take sfrom ++ recipient.take sto))

/-- `m_tuple_cmd` -/
def mTupleCmd : List (String × ℤ) :=
  [("GRAYLIST", Cmd.greylist.code), ("GREYLIST", Cmd.greylist.code),
    ("WHITELIST", Cmd.whitelist.code), ("REMOVE", Cmd.tupleRemove.code)]

/-- The packet of the command `tuple` of the control program, unless the command is
rejected. The address buffer is part of a packet that has not been written to yet. -/
def mcpTuple (cgi : CgiLib) (ndebug : Bool) (secret uninit : List UInt8)
    (cmdline : List (List UInt8)) : Exec (Option (List UInt8)) :=
  match cmdline with
  | [_, word, ip, sender, recipient] => do
      let word ← cstring word
      let cmd := ciMapInt (cgi.upString word) mTupleCmd
      if cmd = -1 then .ok none
      else do
        let sender ← cstring sender
        let recipient ← cstring recipient
        let sfrom := min sender.length 200
        let sto := min recipient.length 200
        match ← parseIp uninit ip with
        | none => .ok none
        | some (ip, mask) =>
            if mask ≠ 32 then .ok none
            else do
              let (fromsize, fromData) :=
                if strcmp sender (ascii "-") ≠ .eq then (sfrom, sender.take sfrom) else (0, [])
              let (tosize, toData) :=
                if strcmp recipient (ascii "-") ≠ .eq then (sto, recipient.take sto)
                else (0, [])
              let packet ← signPacket ndebug secret (greylistRequest mtaMcp cmd.toNat 4
                fromsize tosize (ip ++ fromData ++ toData))
              .ok (some packet)
  | _ => .ok none

/-! ### Fields of a packet -/

/-- The field behind some bytes. -/
theorem ntohs_field (pre : List UInt8) {off n : ℕ} (hoff : off = pre.length)
    (hn : n < 65536) (post : List UInt8) : ntohs (pre ++ (htons n ++ post)) off = n := by
  rw [hoff, ← Nat.add_zero pre.length, ntohs_append, ntohs_htons hn]

theorem getD_set_ne (p : List UInt8) {i j : ℕ} (h : i ≠ j) (b : UInt8) :
    (p.set i b).getD j 0 = p.getD j 0 := by
  simp [List.getD_eq_getElem?_getD, List.getElem?_set_ne h]

/-- Converting one field leaves the others alone. -/
theorem ntohs_swapField (p : List UInt8) {off off' : ℕ} (h : off + 2 ≤ off') :
    ntohs (swapField p off) off' = ntohs p off' := by
  simp only [ntohs, swapField]
  rw [getD_set_ne _ (by omega), getD_set_ne _ (by omega), getD_set_ne _ (by omega),
    getD_set_ne _ (by omega)]

/-- The three sizes of a packet. -/
theorem sizes_requestBody (crc mta type : ℕ) {ipsize fromsize tosize : ℕ}
    (hip : ipsize < 65536) (hfrom : fromsize < 65536) (hto : tosize < 65536)
    (data rest : List UInt8) :
    ntohs (htonl crc ++ requestBody mta type ipsize fromsize tosize data ++ rest) 10 = ipsize ∧
      ntohs (htonl crc ++ requestBody mta type ipsize fromsize tosize data ++ rest) 12 =
        fromsize ∧
      ntohs (htonl crc ++ requestBody mta type ipsize fromsize tosize data ++ rest) 14 =
        tosize := by
  simp only [requestBody, List.append_assoc]
  refine ⟨?_, ?_, ?_⟩
  · exact ntohs_field (htonl crc ++ (htons version ++ (htons mta ++ htons type))) rfl
      hip (htons fromsize ++ (htons tosize ++ (data ++ rest)))
  · exact ntohs_field (htonl crc ++ (htons version ++ (htons mta ++ (htons type ++
      htons ipsize)))) rfl hfrom (htons tosize ++ (data ++ rest))
  · exact ntohs_field (htonl crc ++ (htons version ++ (htons mta ++ (htons type ++
      (htons ipsize ++ htons fromsize))))) rfl hto (data ++ rest)

/-- The data stand behind the header. -/
theorem drop_requestBody (crc mta type ipsize fromsize tosize : ℕ) (data : List UInt8) :
    (htonl crc ++ requestBody mta type ipsize fromsize tosize data).drop 16 = data := rfl

/-- A packet that is long enough is signed. -/
theorem signPacket_eq {ndebug : Bool} {secret packet : List UInt8}
    (hlen : 4 < packet.length) (hlen' : packet.length < 18446744073709551616)
    (hsecret : secret ≠ []) :
    signPacket ndebug secret packet =
      .ok (htonl (checksum secret (packet.drop 4)).toNat ++ packet.drop 4) := by
  have hsize : sizeT ((packet.length : ℤ) - 4) = (packet.drop 4).length := by
    rw [sizeT, List.length_drop]
    omega
  have hpos : 0 < (packet.drop 4).length := by
    rw [List.length_drop]
    omega
  have hcrc := crc32_crc32 ndebug hpos (Nat.le_refl _) hsecret
  rw [List.take_length] at hcrc
  rw [signPacket, hsize]
  rw [crc32_eq _ hpos (Nat.le_refl _), ok_bind] at hcrc ⊢
  rw [hcrc, ok_bind]

/-! ### What the server makes of a request -/

/-- The bytes of a request that were received. -/
def Request.received (req : Request) : List UInt8 := req.packet.take req.size

/-- A tuple is what a request says: the address in front of zeros, the texts cut to 107
bytes, and the flags for what was cut and for the kind of the address. All of it comes
from what was received, and every copy fits the field it goes to. -/
structure Decodes (req : Request) (t : Tuple) : Prop where
  ip : t.ip.toList = (req.received.drop 16).take req.ipsize ++
    List.replicate (16 - req.ipsize) 0
  fromsize : t.fromsize = min req.fromsize 107
  fromBytes : t.fromBytes =
    ((req.received.drop (16 + req.ipsize)).take req.fromsize).take 107
  fromText : t.fromText.toList = t.fromBytes ++ List.replicate (108 - t.fromsize) 0
  tosize : t.tosize = min req.tosize 107
  toBytes : t.toBytes =
    ((req.received.drop (16 + req.ipsize + req.fromsize)).take req.tosize).take 107
  toText : t.toText.toList = t.toBytes ++ List.replicate (108 - t.tosize) 0
  truncfrom : hasFlag t.f fTruncfrom = decide (107 < req.fromsize)
  truncto : hasFlag t.f fTruncto = decide (107 < req.tosize)
  ipv6 : hasFlag t.f fIPv6 = decide (req.ipsize = 16)
  /-- The three copies lie inside what was received and inside their fields. -/
  inside : 16 + req.ipsize ≤ req.size ∧ req.ipsize ≤ 16 ∧
    16 + req.ipsize + t.fromsize ≤ req.size ∧ t.fromsize ≤ 108 ∧
    16 + req.ipsize + req.fromsize + t.tosize ≤ req.size ∧ t.tosize ≤ 108

/-- Bytes inside what was received. -/
theorem bytes_eq_received {req : Request} {off n : ℕ} (h : off + n ≤ req.size) :
    req.bytes off n = (req.received.drop off).take n := by
  rw [Request.bytes, Request.received, List.drop_take, List.take_take,
    Nat.min_eq_left (by omega)]

/-- A text of a request in its field. -/
theorem buffer_text (req : Request) {off n : ℕ} (h : off + n ≤ req.size) :
    (buffer 108 (req.bytes off (min 107 n))).toList.take (min 107 n) =
        ((req.received.drop off).take n).take 107 ∧
      (buffer 108 (req.bytes off (min 107 n))).toList =
        (buffer 108 (req.bytes off (min 107 n))).toList.take (min 107 n) ++
          List.replicate (108 - min 107 n) 0 := by
  have hmin : min 107 n ≤ n := Nat.min_le_right ..
  have hmin' : min 107 n ≤ 107 := Nat.min_le_left ..
  have hsize := req.size_le
  have hlen : (req.bytes off (min 107 n)).length = min 107 n := length_bytes (by omega)
  have htake : (buffer 108 (req.bytes off (min 107 n))).toList.take (min 107 n) =
      req.bytes off (min 107 n) := take_buffer hlen (by omega)
  refine ⟨?_, ?_⟩
  · rw [htake, bytes_eq_received (by omega), List.take_take]
  · rw [htake, toList_buffer, hlen, List.take_of_length_le (by omega)]

/-- The tuple of a request that is accepted is what the request says. -/
theorem decodes_tuple (cfg : Config) {req : Request} (h : req.Accepts) :
    Decodes req (req.tuple cfg) := by
  obtain ⟨hip, hfit⟩ := h
  have hsize := req.size_le
  obtain ⟨hfrom, hfromText⟩ := buffer_text req
    (show 16 + req.ipsize + req.fromsize ≤ req.size by omega)
  obtain ⟨hto, htoText⟩ := buffer_text req
    (show 16 + req.ipsize + req.fromsize + req.tosize ≤ req.size by omega)
  have hlen : (req.bytes 16 req.ipsize).length = req.ipsize := length_bytes (by omega)
  refine
    { ip := ?_, fromsize := Nat.min_comm .., fromBytes := hfrom, fromText := hfromText
      tosize := Nat.min_comm .., toBytes := hto, toText := htoText, truncfrom := ?_
      truncto := ?_, ipv6 := ?_, inside := ?_ }
  · change (buffer 16 (req.bytes 16 req.ipsize)).toList = _
    rw [toList_buffer, hlen, List.take_of_length_le (by omega), bytes_eq_received (by omega)]
  · rw [Request.tuple, hasFlag_requestTuple]
    simp [hasFlag, fTruncfrom, fTruncto, fIPv6]
  · rw [Request.tuple, hasFlag_requestTuple]
    simp [hasFlag, fTruncfrom, fTruncto, fIPv6]
  · rw [Request.tuple, hasFlag_requestTuple]
    simp [hasFlag, fTruncfrom, fIPv6, fTruncto]
  · change _ ∧ _ ∧ 16 + req.ipsize + min 107 req.fromsize ≤ _ ∧ min 107 req.fromsize ≤ _ ∧
      16 + req.ipsize + req.fromsize + min 107 req.tosize ≤ _ ∧ min 107 req.tosize ≤ _
    omega

/-! ### Packets that arrive -/

/-- A packet gets an address and two texts across: whatever is left in the buffer of the
server, the checksum verifies, the request is accepted, and its tuple has the address and
the texts, cut to 107 bytes. -/
def Delivers (cfg : Config) (packet ip sender recipient : List UInt8) : Prop :=
  ∀ (buf : List UInt8) (now clock : ℤ) (canReport : Bool), ∃ crc r t,
    (Datagram.request buf ⟨packet, now, clock, canReport⟩).crc cfg = .ok crc ∧
      crc.toNat = ntohl (Datagram.request buf ⟨packet, now, clock, canReport⟩).packet 0 ∧
      greylistSanitizeReq cfg
        ((Datagram.request buf ⟨packet, now, clock, canReport⟩).swapField 8) =
          .ok (r, .inr t) ∧
      t.ip.toList = ip ++ List.replicate 12 0 ∧
      t.fromBytes = sender.take 107 ∧ t.toBytes = recipient.take 107

/-- What was received behind the header of a request. -/
theorem received_drop (buf : List UInt8) {d : Datagram} (h : d.data.length ≤ 1500) {n : ℕ}
    (hn : 16 ≤ n) (hn' : n ≤ d.data.length) :
    ((d.request buf).swapField 8).received.drop n = d.data.drop n := by
  have hpacket : ((d.request buf).packet).drop n = d.data.drop n ++ buf.drop d.data.length := by
    rw [packet_request buf h, List.drop_append_of_le_length hn']
  change ((swapField (d.request buf).packet 8).take (d.request buf).size).drop n = _
  rw [List.drop_take, drop_swapField _ (by omega), hpacket, size_request buf h,
    List.take_append_of_le_length (by simp), List.take_of_length_le (by simp)]

/-- What the server reads from its buffer after a request with an address of four bytes and
two texts was received. -/
theorem request_fields {buf : List UInt8} {d : Datagram} {crc mta type : ℕ}
    {ip sender recipient : List UInt8} (hip : ip.length = 4)
    (hsender : sender.length ≤ 200) (hrecipient : recipient.length ≤ 200)
    (hdata : d.data = htonl crc ++ requestBody mta type 4 sender.length recipient.length
      (ip ++ sender ++ recipient)) {req : Request} (hreq : (d.request buf).swapField 8 = req) :
    req.ipsize = 4 ∧ req.fromsize = sender.length ∧ req.tosize = recipient.length ∧
      req.size = 20 + sender.length + recipient.length ∧
      ∀ n, 16 ≤ n → n ≤ req.size →
        req.received.drop n = (ip ++ sender ++ recipient).drop (n - 16) := by
  have hlen : d.data.length = 20 + sender.length + recipient.length := by
    rw [hdata]
    simp [requestBody, hip]
    omega
  have hshort : d.data.length ≤ 1500 := by omega
  obtain ⟨hipsize, hfromsize, htosize⟩ := sizes_requestBody crc mta type
    (show 4 < 65536 by omega) (show sender.length < 65536 by omega)
    (show recipient.length < 65536 by omega) (ip ++ sender ++ recipient)
    (buf.drop d.data.length)
  rw [← hdata, ← packet_request buf hshort] at hipsize hfromsize htosize
  have hsize : req.size = d.data.length := by
    rw [← hreq]
    exact size_request buf hshort
  refine ⟨?_, ?_, ?_, hsize.trans hlen, ?_⟩
  · rw [← hreq, ← hipsize]
    exact ntohs_swapField _ (by omega)
  · rw [← hreq, ← hfromsize]
    exact ntohs_swapField _ (by omega)
  · rw [← hreq, ← htosize]
    exact ntohs_swapField _ (by omega)
  · intro n hn hn'
    have hdrop : d.data.drop 16 = ip ++ sender ++ recipient := hdata ▸ drop_requestBody ..
    rw [← hreq, received_drop buf hshort hn (hsize ▸ hn'), ← hdrop, List.drop_drop]
    congr 1
    omega

/-- **A signed request arrives.** -/
theorem delivers_signed (cfg : Config) (mta type : ℕ) {ip sender recipient : List UInt8}
    (hip : ip.length = 4) (hsender : sender.length ≤ 200) (hrecipient : recipient.length ≤ 200) :
    Delivers cfg
      (htonl (checksum cfg.secret (requestBody mta type 4 sender.length recipient.length
          (ip ++ sender ++ recipient))).toNat ++
        requestBody mta type 4 sender.length recipient.length (ip ++ sender ++ recipient))
      ip sender recipient := by
  intro buf now clock canReport
  generalize hcrc : checksum cfg.secret _ = crc
  generalize hd : (⟨_, now, clock, canReport⟩ : Datagram) = d
  have hdata : d.data = htonl crc.toNat ++ requestBody mta type 4 sender.length
      recipient.length (ip ++ sender ++ recipient) := by
    rw [← hd]
  generalize hreq : (d.request buf).swapField 8 = req
  obtain ⟨hip', hfrom', hto', hsize, hreceived⟩ :=
    request_fields hip hsender hrecipient hdata hreq
  have hlen : d.data.length = 20 + sender.length + recipient.length := by
    rw [hdata]
    simp [requestBody, hip]
    omega
  have hacc : req.Accepts := ⟨Or.inl hip', by omega⟩
  have hdec := decodes_tuple cfg hacc
  refine ⟨crc, _, req.tuple cfg, ?_, ?_, greylistSanitizeReq_of_accepts cfg hacc, ?_, ?_, ?_⟩
  · rw [crc_request cfg buf (by omega) (by omega), ← hcrc, hdata]
    rfl
  · rw [ntohl_packet_request buf (by omega) (by omega), hdata]
    exact (ntohl_htonl (crc_lt crc) _).symm
  · rw [hdec.ip, hip', hreceived 16 (by omega) (by omega)]
    simp [hip]
  · rw [hdec.fromBytes, hip', hfrom', hreceived 20 (by omega) (by omega)]
    simp [hip]
  · have hoff : (ip ++ sender).length = 16 + 4 + sender.length - 16 := by
      rw [List.length_append, hip]
      omega
    rw [hdec.toBytes, hip', hfrom', hto', hreceived _ (by omega) (by omega),
      List.drop_left' hoff, List.take_length]

/-! ### The three clients -/

/-- A request is signed over everything behind its checksum field. -/
theorem signPacket_request {ndebug : Bool} {secret : List UInt8} (hsecret : secret ≠ [])
    (mta type ipsize fromsize tosize : ℕ) {data : List UInt8} (hdata : data.length ≤ 404) :
    signPacket ndebug secret (greylistRequest mta type ipsize fromsize tosize data) =
      .ok (htonl (checksum secret (requestBody mta type ipsize fromsize tosize data)).toNat ++
        requestBody mta type ipsize fromsize tosize data) := by
  have hlen : (greylistRequest mta type ipsize fromsize tosize data).length =
      16 + data.length := by
    simp [greylistRequest, requestBody]
    omega
  exact signPacket_eq (by omega) (by omega) hsecret

/-- A text cut to 200 bytes, as the clients write it. -/
theorem take_min_length (s : List UInt8) : s.take (min s.length 200) = s.take 200 := by
  rw [List.take_eq_take_iff]
  omega

theorem length_take_text (s : List UInt8) : (s.take 200).length = min s.length 200 := by
  rw [List.length_take, Nat.min_comm]

section Encoders

variable (cfg : Config) (ndebug : Bool) {sender recipient : List UInt8}

/-- A signed request with two texts that were cut arrives. -/
theorem delivers_cut (mta type : ℕ) {ip : List UInt8} (hip : ip.length = 4) :
    ∃ packet, signPacket ndebug cfg.secret (greylistRequest mta type 4
        (min sender.length 200) (min recipient.length 200)
        (ip ++ sender.take (min sender.length 200) ++
          recipient.take (min recipient.length 200))) = .ok packet ∧
      Delivers cfg packet ip (sender.take 200) (recipient.take 200) := by
  have hsender := length_take_text sender
  have hrecipient := length_take_text recipient
  rw [take_min_length, take_min_length, ← hsender, ← hrecipient,
    signPacket_request cfg.secret_ne _ _ _ _ _ (by simp [hip]; omega)]
  exact ⟨_, rfl, delivers_signed cfg mta type hip (by omega) (by omega)⟩

/-- The packet of the Postfix client, with the four numbers that it reads from its text for the
address. -/
theorem pfcRequest_scanned {mem ip back : List UInt8} (hscan : scanDotted mem = .ok (ip, back))
    (hsender : 0 ∉ sender) (hrecipient : 0 ∉ recipient) (rest₁ rest₂ : List UInt8) :
    ∃ packet, pfcRequest ndebug cfg.secret mem (sender ++ 0 :: rest₁) (recipient ++ 0 :: rest₂) =
        .ok packet ∧
      Delivers cfg packet ip (sender.take 200) (recipient.take 200) := by
  rw [pfcRequest, cstring_append hsender, ok_bind, cstring_append hrecipient, ok_bind]
  dsimp only
  rw [hscan, ok_bind]
  exact delivers_cut cfg ndebug _ _ (length_of_scanDotted hscan)

/-- The same for an address as it is usually written. -/
theorem pfcRequest_delivers (a b c d : UInt8) (hsender : 0 ∉ sender)
    (hrecipient : 0 ∉ recipient) (rest rest₁ rest₂ : List UInt8) :
    ∃ packet, pfcRequest ndebug cfg.secret (dotted a b c d ++ 0 :: rest)
        (sender ++ 0 :: rest₁) (recipient ++ 0 :: rest₂) = .ok packet ∧
      Delivers cfg packet [a, b, c, d] (sender.take 200) (recipient.take 200) :=
  pfcRequest_scanned cfg ndebug (scanDotted_dotted a b c d (by decide) rest) hsender hrecipient
    rest₁ rest₂

/-- The packet of the Sendmail client. -/
theorem smcRequest_delivers (a b c d : UInt8) (hsender : 0 ∉ sender)
    (hrecipient : 0 ∉ recipient) (rest rest₁ rest₂ : List UInt8) :
    ∃ packet, smcRequest ndebug cfg.secret ([a, b, c, d] ++ rest)
        (sender ++ 0 :: rest₁) (recipient ++ 0 :: rest₂) = .ok packet ∧
      Delivers cfg packet [a, b, c, d] (sender.take 200) (recipient.take 200) := by
  have hip : memcpyField ([a, b, c, d] ++ rest) 0 4 4 = .ok [a, b, c, d] :=
    if_pos ⟨by simp, Nat.le_refl 4⟩
  rw [smcRequest, cstring_append hsender, ok_bind, cstring_append hrecipient, ok_bind]
  dsimp only
  rw [hip, ok_bind]
  exact delivers_cut cfg ndebug _ _ rfl

/-- The packet of the command `tuple` of the control program. -/
theorem mcpTuple_delivers (cgi : CgiLib) {word name : List UInt8} (hname : 0 ∉ name)
    (hcmd : ciMapInt (cgi.upString name) mTupleCmd ≠ -1) {uninit : List UInt8}
    (huninit : uninit.length = 4) (a b c d : UInt8) (hsender : 0 ∉ sender)
    (hrecipient : 0 ∉ recipient) (hsender' : sender ≠ ascii "-")
    (hrecipient' : recipient ≠ ascii "-") (rest rest₀ rest₁ rest₂ : List UInt8) :
    ∃ packet, mcpTuple cgi ndebug cfg.secret uninit [word, name ++ 0 :: rest₀,
        dotted a b c d ++ 0 :: rest, sender ++ 0 :: rest₁, recipient ++ 0 :: rest₂] =
          .ok (some packet) ∧
      Delivers cfg packet [a, b, c, d] (sender.take 200) (recipient.take 200) := by
  have hne : ∀ {s : List UInt8}, s ≠ ascii "-" → strcmp s (ascii "-") ≠ .eq :=
    fun hs heq => hs ((strcmp_compares _ _).eq_eq.mp heq)
  obtain ⟨packet, hsign, hdelivers⟩ := delivers_cut cfg ndebug mtaMcp
    (ciMapInt (cgi.upString name) mTupleCmd).toNat (show [a, b, c, d].length = 4 from rfl)
  rw [mcpTuple, cstring_append hname, ok_bind]
  dsimp only
  rw [if_neg hcmd, cstring_append hsender, ok_bind, cstring_append hrecipient, ok_bind,
    parseIp_dotted huninit, ok_bind]
  dsimp only
  rw [if_neg (by decide), if_pos (hne hsender'), if_pos (hne hrecipient'), hsign, ok_bind]
  exact ⟨packet, rfl, hdelivers⟩

end Encoders

/-- **Requests survive the wire.** The server accepts a request exactly when its address
has one of two sizes and its fields lie inside what was received, and then makes the tuple
of it that it says; and the packets of all three clients get an address and two texts
across. -/
theorem greylistSanitizeReq_roundtrip (cfg : Config) :
    (∀ req : Request,
      ((∃ r t, greylistSanitizeReq cfg req = .ok (r, .inr t)) ↔ req.Accepts) ∧
        ∀ r t, greylistSanitizeReq cfg req = .ok (r, .inr t) → Decodes req t) ∧
    ∀ (ndebug : Bool) (a b c d : UInt8) (sender recipient rest rest₀ rest₁ rest₂ : List UInt8),
      0 ∉ sender → 0 ∉ recipient →
      (∃ packet, pfcRequest ndebug cfg.secret (dotted a b c d ++ 0 :: rest)
          (sender ++ 0 :: rest₁) (recipient ++ 0 :: rest₂) = .ok packet ∧
        Delivers cfg packet [a, b, c, d] (sender.take 200) (recipient.take 200)) ∧
      (∃ packet, smcRequest ndebug cfg.secret ([a, b, c, d] ++ rest)
          (sender ++ 0 :: rest₁) (recipient ++ 0 :: rest₂) = .ok packet ∧
        Delivers cfg packet [a, b, c, d] (sender.take 200) (recipient.take 200)) ∧
      ∀ (cgi : CgiLib) (word name uninit : List UInt8), 0 ∉ name →
        ciMapInt (cgi.upString name) mTupleCmd ≠ -1 → uninit.length = 4 →
        sender ≠ ascii "-" → recipient ≠ ascii "-" →
        ∃ packet, mcpTuple cgi ndebug cfg.secret uninit [word, name ++ 0 :: rest₀,
            dotted a b c d ++ 0 :: rest, sender ++ 0 :: rest₁, recipient ++ 0 :: rest₂] =
              .ok (some packet) ∧
          Delivers cfg packet [a, b, c, d] (sender.take 200) (recipient.take 200) := by
  refine ⟨fun req => ?_, ?_⟩
  · by_cases hacc : req.Accepts
    · have hsane := greylistSanitizeReq_of_accepts cfg hacc
      refine ⟨iff_of_true ⟨_, _, hsane⟩ hacc, fun r t h => ?_⟩
      rw [hsane] at h
      cases h
      exact decodes_tuple cfg hacc
    · have hsane := greylistSanitizeReq_of_not_accepts cfg hacc
      have hno : ¬ ∃ r t, greylistSanitizeReq cfg req = .ok (r, .inr t) := by
        rintro ⟨r, t, h⟩
        rw [hsane] at h
        cases h
      exact ⟨iff_of_false hno hacc, fun r t h => absurd ⟨r, t, h⟩ hno⟩
  · intro ndebug a b c d sender recipient rest rest₀ rest₁ rest₂ hsender hrecipient
    refine ⟨pfcRequest_delivers cfg ndebug a b c d hsender hrecipient rest rest₁ rest₂,
      smcRequest_delivers cfg ndebug a b c d hsender hrecipient rest rest₁ rest₂, ?_⟩
    intro cgi word name uninit hname hcmd huninit hsender' hrecipient'
    exact mcpTuple_delivers cfg ndebug cgi hname hcmd huninit a b c d hsender hrecipient
      hsender' hrecipient' rest rest₀ rest₁ rest₂

/-- A request of the control program for one letter each, with a command word that is
already in capitals. -/
theorem greylistSanitizeReq_roundtrip_letters :
    ∃ packet, mcpTuple { emptyString := List.isEmpty, trimSpace := id, upString := id } false
        (Config.default false).secret [0, 0, 0, 0]
        [ascii "TUPLE", ascii "REMOVE" ++ [0], dotted 10 0 0 255 ++ [0], [97] ++ [0],
          [98] ++ [0]] = .ok (some packet) ∧
      Delivers (Config.default false) packet [10, 0, 0, 255] [97] [98] :=
  ((greylistSanitizeReq_roundtrip (Config.default false)).2 false 10 0 0 255 [97] [98] [] []
    [] [] (by decide) (by decide)).2.2
    { emptyString := List.isEmpty, trimSpace := id, upString := id } (ascii "TUPLE")
    (ascii "REMOVE") [0, 0, 0, 0] (by decide) (by decide) rfl (by decide) (by decide)

end XGrey
