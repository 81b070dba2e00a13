import XGrey.Clients
import XGrey.IpRules
import XGrey.RequestSteps
import XGrey.RuleRun

/-!
# Packets for Client Addresses

How a rule on client addresses gets from the control program (`control/gld-mcp.c`) to the
tree of the server. The control program makes such packets from its command line and from
the lines of three kinds of files, each with a scanner of its own; the server takes the
command, the mask and the address out of the packet as they are.

The server looks at the size of the address only. A mask of more bits than an address has,
and the command `IFT_NONE`, which marks the nodes without a rule, go through to the tree.

## Main results

* `mcpIplist_datagram`, `mcpFileLine_datagram`: what the control program sends is a packet
  of the full size with a valid checksum and a command of the table.
* `gldRecv_iplist_iff`: on which of these packets the server does what it should.
* `run_iplist_iff`: the same in every state that the server reaches.
-/

open CRuntime PrefixMap StepRun Lexicographic

namespace XGrey

/-! ### The control program -/

/-- `struct glmcp_request_iplist` behind its checksum, from the control program. -/
def iplistBody (cmd mask : ℕ) (ip : List UInt8) : List UInt8 :=
  htons version ++ htons mtaMcp ++ htons Cmd.mcpIplist.code ++ htons cmd ++ htons 4 ++
    htons mask ++ ip

/-- `send_request` with such a packet. -/
def iplistSend (ndebug : Bool) (secret : List UInt8) (cmd mask : ℕ) (ip : List UInt8) :
    Exec (List UInt8) :=
  signPacket ndebug secret (htonl 0 ++ iplistBody cmd mask ip)

/-- The loop over the octets of an address, with `n` of them to go: the address, the number
of the octet at which the loop ended, and the text behind it. -/
def mcpOctets : ℕ → ℕ → List UInt8 → List UInt8 → Exec (List UInt8 × ℕ × List UInt8)
  | 0, octet, ip, p => .ok (ip, octet, p)
  | n + 1, octet, ip, p => do
      let (value, p) ← strtoul p
      let ip := ip.set octet (UInt8.ofNat value)
      let c ← peek p 0
      if c ≠ 46 then .ok (ip, octet, p)
      else mcpOctets n (octet + 1) ip (p.drop 1)

/-- The mask behind an address, with the text behind the mask. -/
def mcpMask (p : List UInt8) : Exec (ℕ × List UInt8) := do
  let c ← peek p 0
  if c = 47 then strtoul (p.drop 1) else .ok (32, p)

/-- The packet of the command `iplist`, unless the command is rejected or names a file. -/
def mcpIplist (cgi : CgiLib) (ndebug : Bool) (secret : List UInt8)
    (cmdline : List (List UInt8)) : Exec (Option (List UInt8)) :=
  match cmdline with
  | _ :: word :: address :: _ => do
      let word ← cstring word
      if strcmp word (ascii "file") = .eq then .ok none
      else
        let cmd := ciMapInt (cgi.upString word) cIft
        if cmd = -1 then .ok none
        else do
          let (ip, _, p) ← mcpOctets 4 0 (List.replicate 16 0) address
          let (mask, _) ← mcpMask p
          let packet ← iplistSend ndebug secret cmd.toNat mask ip
          .ok (some packet)
  | _ => .ok none

/-- `isalpha` in the C locale. -/
def isalpha (c : UInt8) : Bool := (65 ≤ c && c ≤ 90) || (97 ≤ c && c ≤ 122)

/-- The packet for a line of a file, if there is one. What follows the octets is left to
the kind of the file: the mask and the command, or nothing after a syntax error. -/
def mcpFileLine (cgi : CgiLib) (ndebug : Bool) (secret : List UInt8)
    (rest : ℕ → List UInt8 → Exec (Option (ℕ × ℤ))) (line : List UInt8) :
    Exec (Option (List UInt8)) :=
  if cgi.emptyString line then .ok none
  else
    let p := cgi.trimSpace line
    if p.head? = some 35 then .ok none
    else do
      let (ip, octet, p) ← mcpOctets 4 0 (List.replicate 16 0) (p ++ [0])
      match ← rest octet p with
      | none => .ok none
      | some (mask, cmd) => do
          let packet ← iplistSend ndebug secret cmd.toNat mask ip
          .ok (some packet)

/-- The kinds of files that `iplist file` reads. -/
inductive IplistKind
  | plain
  | relaydelay
  | bogonspace
  deriving DecidableEq

/-- What a line of such a file has behind the octets of its address: the mask and the command. For
`relaydelay` the mask follows from the number of octets. -/
def IplistKind.rest (cgi : CgiLib) : IplistKind → ℕ → List UInt8 → Exec (Option (ℕ × ℤ))
  | .plain, _, p => do
      let (mask, p) ← mcpMask p
      let name := (p.dropWhile isspace).takeWhile isalpha
      let cmd := ciMapInt (cgi.upString name) cIft
      if cmd = -1 then .ok none else .ok (some (mask, cmd))
  | .relaydelay, octet, _ => .ok (some ((octet + 1) * 8, Ift.accept))
  | .bogonspace, _, p => do
      let (mask, _) ← mcpMask p
      .ok (some (mask, Ift.reject))

/-- A line of `iplist_file`. -/
def iplistFile (cgi : CgiLib) (ndebug : Bool) (secret : List UInt8) :
    List UInt8 → Exec (Option (List UInt8)) :=
  mcpFileLine cgi ndebug secret (IplistKind.plain.rest cgi)

/-- A line of `iplist_file_relaydelay`. -/
def iplistFileRelaydelay (cgi : CgiLib) (ndebug : Bool) (secret : List UInt8) :
    List UInt8 → Exec (Option (List UInt8)) :=
  mcpFileLine cgi ndebug secret (IplistKind.relaydelay.rest cgi)

/-- A line of `iplist_file_bogonspace`. -/
def iplistFileBogonspace (cgi : CgiLib) (ndebug : Bool) (secret : List UInt8) :
    List UInt8 → Exec (Option (List UInt8)) :=
  mcpFileLine cgi ndebug secret (IplistKind.bogonspace.rest cgi)

/-! ### What the server should do -/

/-- The command of such a packet. -/
def iplistCmd (data : List UInt8) : ℕ := ntohs data 10

/-- The size of its address. -/
def iplistIpsize (data : List UInt8) : ℕ := ntohs data 12

/-- Its mask. -/
def iplistMaskField (data : List UInt8) : ℕ := ntohs data 14

/-- The sixteen bytes for its address. -/
def iplistAddress (data : List UInt8) : List UInt8 := (data.drop 16).take 16

/-- The server may receive this as a packet for client addresses. -/
structure IplistDatagram (cfg : Config) (data : List UInt8) : Prop where
  /-- It has the size of the structure. -/
  size : 32 ≤ data.length
  size_le : data.length ≤ 1500
  verified : Verified cfg data
  type : ntohs data 8 = Cmd.mcpIplist.code

/-- The reply to a datagram. -/
def replyTo (data : List UInt8) (type : Cmd) (response : ℤ) : Output :=
  .reply { mta := (data.drop 6).take 2, type := type, response := response, why := .none }

/-- The rule of a packet is installed or removed. -/
structure RuleChanged (cfg : Config) (srv : Server) (data : List UInt8)
    (out : List Output) (srv' : Server) : Prop where
  reply : out = [replyTo data .mcpIplistResp 0]
  mask_le : iplistMaskField data ≤ 32
  /-- The walk gets along with the sixteen bytes, and its assertions hold. -/
  walk : ipAddSm cfg.ndebug srv.iplist (iplistAddress data) (iplistMaskField data)
    (iplistCmd data) = .ok srv'.iplist
  rules : ipRules srv'.iplist.tree = addRule (ipRules srv.iplist.tree) (iplistAddress data)
    (iplistMaskField data) (iplistCmd data)
  ipcnt : srv'.iplist.ipcnt = srv.iplist.ipcnt + addedCount (ipRules srv.iplist.tree)
    (iplistAddress data) (iplistMaskField data) (iplistCmd data)
  rest : srv' = { srv with iplist := srv'.iplist }

/-- The packet is refused, and nothing changes. -/
def Refused (srv : Server) (data : List UInt8) (out : List Output) (srv' : Server) : Prop :=
  (∃ error : Glerr, error ≠ .okay ∧ out = [replyTo data .noneResp error.code]) ∧ srv' = srv

/-- The server handles a packet as it should. -/
def IplistHandled (cfg : Config) (srv : Server) (data : List UInt8)
    (result : Exec (List Output × Server × List UInt8)) : Prop :=
  ∃ out srv' buf', result = .ok (out, srv', buf') ∧
    (RuleChanged cfg srv data out srv' ∨ Refused srv data out srv')

/-- A packet that is refused, or that asks for something that can be done. -/
def IplistSafe (data : List UInt8) : Prop :=
  version < ntohs data 4 ∨ iplistIpsize data ≠ 4 ∨
    (iplistMaskField data ≤ 32 ∧ (iplistCmd data : ℤ) ≠ Ift.none)

/-! ### What the control program sends -/

/-- A field keeps the low 16 bits of a number. -/
theorem htons_mod (n : ℕ) : htons (n % 65536) = htons n := by
  have hhigh : UInt8.ofNat (n % 65536 / 256) = UInt8.ofNat (n / 256) := by
    apply UInt8.toNat_inj.mp
    rw [UInt8.toNat_ofNat', UInt8.toNat_ofNat']
    omega
  have hlow : UInt8.ofNat (n % 65536) = UInt8.ofNat n := by
    apply UInt8.toNat_inj.mp
    rw [UInt8.toNat_ofNat', UInt8.toNat_ofNat']
    omega
  rw [htons, hhigh, hlow, htons]

/-- **A packet with an address of sixteen bytes** has the size of the structure and the
fields that were put into it. -/
theorem iplistSend_datagram {cfg : Config} {cmd mask : ℕ} {ip packet : List UInt8}
    (hip : ip.length = 16)
    (h : iplistSend cfg.ndebug cfg.secret cmd mask ip = .ok packet) :
    IplistDatagram cfg packet ∧ ntohs packet 4 = version ∧ iplistCmd packet = cmd % 65536 ∧
      iplistIpsize packet = 4 ∧ iplistMaskField packet = mask % 65536 ∧
      iplistAddress packet = ip := by
  have hlen : (iplistBody cmd mask ip).length = 28 := by
    simp [iplistBody, hip]
  have hdrop : (htonl 0 ++ iplistBody cmd mask ip).drop 4 = iplistBody cmd mask ip := rfl
  have htotal : (htonl 0 ++ iplistBody cmd mask ip).length = 32 := by
    rw [List.length_append, hlen, length_htonl]
  rw [iplistSend, signPacket_eq (by omega) (by omega) cfg.secret_ne, hdrop] at h
  cases h
  have hver := verified_append cfg (iplistBody cmd mask ip)
  generalize (checksum cfg.secret (iplistBody cmd mask ip)).toNat = crc at hver ⊢
  have hfields : htonl crc ++ iplistBody cmd mask ip = htonl crc ++ (htons version ++
      (htons mtaMcp ++ (htons Cmd.mcpIplist.code ++ (htons (cmd % 65536) ++ (htons 4 ++
        (htons (mask % 65536) ++ ip)))))) := by
    simp only [iplistBody, List.append_assoc, htons_mod]
  refine ⟨⟨?_, ?_, hver, ?_⟩, ?_, ?_, ?_, ?_, ?_⟩
  · rw [List.length_append, hlen, length_htonl]
  · rw [List.length_append, hlen, length_htonl]
    omega
  · rw [hfields]
    exact ntohs_field (htonl crc ++ (htons version ++ htons mtaMcp)) rfl (by decide) _
  · rw [hfields]
    exact ntohs_field (htonl crc) rfl (by decide) _
  · rw [hfields]
    exact ntohs_field (htonl crc ++ (htons version ++ (htons mtaMcp ++
      htons Cmd.mcpIplist.code))) rfl (Nat.mod_lt _ (by omega)) _
  · rw [hfields]
    exact ntohs_field (htonl crc ++ (htons version ++ (htons mtaMcp ++
      (htons Cmd.mcpIplist.code ++ htons (cmd % 65536))))) rfl (by decide) _
  · rw [hfields]
    exact ntohs_field (htonl crc ++ (htons version ++ (htons mtaMcp ++
      (htons Cmd.mcpIplist.code ++ (htons (cmd % 65536) ++ htons 4))))) rfl
      (Nat.mod_lt _ (by omega)) _
  · exact List.take_of_length_le hip.le

/-- Reading octets keeps the size of the buffer, and ends after at most four of them. -/
theorem mcpOctets_inv {n octet : ℕ} {ip p : List UInt8} {r : List UInt8 × ℕ × List UInt8}
    (h : mcpOctets n octet ip p = .ok r) : r.1.length = ip.length ∧ r.2.1 ≤ octet + n := by
  induction n generalizing octet ip p with
  | zero =>
      cases h
      exact ⟨rfl, Nat.le_refl _⟩
  | succ n ih =>
      obtain ⟨⟨value, p'⟩, -, h⟩ := bind_eq_ok.mp h
      obtain ⟨c, -, h⟩ := bind_eq_ok.mp h
      by_cases hdot : c ≠ 46
      · rw [if_pos hdot] at h
        cases h
        exact ⟨List.length_set, Nat.le_add_right _ _⟩
      · rw [if_neg hdot] at h
        obtain ⟨hlen, hle⟩ := ih h
        rw [List.length_set] at hlen
        exact ⟨hlen, by omega⟩

/-- The commands of the table. -/
theorem ciMapInt_cIft (name : List UInt8) :
    ciMapInt name cIft = -1 ∨ (0 ≤ ciMapInt name cIft ∧ ciMapInt name cIft < Ift.none) := by
  rw [ciMapInt]
  cases hfind : cIft.find? fun e => decide (strcmp name (ascii e.1) = .eq) with
  | none => exact Or.inl rfl
  | some e =>
      have hmem := List.mem_of_find?_eq_some hfind
      have hall : ∀ e ∈ cIft, 0 ≤ e.2 ∧ e.2 < Ift.none := by decide
      exact Or.inr (hall e hmem)

/-- What is sent with a command of the table. -/
structure FromMcp (cfg : Config) (mask : ℕ) (packet : List UInt8) : Prop where
  datagram : IplistDatagram cfg packet
  version : ntohs packet 4 = version
  ipsize : iplistIpsize packet = 4
  mask : iplistMaskField packet = mask % 65536
  cmd_ne : (iplistCmd packet : ℤ) ≠ Ift.none

theorem iplistSend_fromMcp {cfg : Config} {cmd : ℤ} {mask : ℕ} {ip packet : List UInt8}
    (hip : ip.length = 16) (hcmd : 0 ≤ cmd ∧ cmd < Ift.none)
    (h : iplistSend cfg.ndebug cfg.secret cmd.toNat mask ip = .ok packet) :
    FromMcp cfg mask packet := by
  obtain ⟨hdata, hversion, hcmd', hsize, hmask, -⟩ := iplistSend_datagram hip h
  refine ⟨hdata, hversion, hsize, hmask, ?_⟩
  have hlt : cmd < 5 := hcmd.2
  rw [hcmd', Ift.none]
  omega

/-- **What `iplist` has read**, if it sends a packet. -/
theorem mcpIplist_inv {cgi : CgiLib} {ndebug : Bool} {secret : List UInt8}
    {cmdline : List (List UInt8)} {packet : List UInt8}
    (h : mcpIplist cgi ndebug secret cmdline = .ok (some packet)) :
    ∃ first word address rest word' ip octet p mask p',
      cmdline = first :: word :: address :: rest ∧ cstring word = .ok word' ∧
      strcmp word' (ascii "file") ≠ .eq ∧ ciMapInt (cgi.upString word') cIft ≠ -1 ∧
      mcpOctets 4 0 (List.replicate 16 0) address = .ok (ip, octet, p) ∧
      mcpMask p = .ok (mask, p') ∧
      iplistSend ndebug secret (ciMapInt (cgi.upString word') cIft).toNat mask ip =
        .ok packet := by
  rcases cmdline with _ | ⟨first, _ | ⟨word, _ | ⟨address, rest⟩⟩⟩
  · cases h
  · cases h
  · cases h
  rw [mcpIplist] at h
  obtain ⟨word', hword, h⟩ := bind_eq_ok.mp h
  dsimp only at h
  split_ifs at h with hfile hbad
  · cases h
  · cases h
  · obtain ⟨⟨ip, octet, p⟩, hoctets, h⟩ := bind_eq_ok.mp h
    obtain ⟨⟨mask, p'⟩, hmask, h⟩ := bind_eq_ok.mp h
    obtain ⟨packet', hsend, h⟩ := bind_eq_ok.mp h
    cases h
    exact ⟨first, word, address, rest, word', ip, octet, p, mask, p', rfl, hword, hfile, hbad,
      hoctets, hmask, hsend⟩

/-- **The command line.** Its packet has a command of the table, and the mask that was
typed, cut to 16 bits. -/
theorem mcpIplist_datagram {cgi : CgiLib} {cfg : Config} {cmdline : List (List UInt8)}
    {packet : List UInt8}
    (h : mcpIplist cgi cfg.ndebug cfg.secret cmdline = .ok (some packet)) :
    ∃ p mask p', mcpMask p = .ok (mask, p') ∧ FromMcp cfg mask packet := by
  obtain ⟨_, _, _, _, _, ip, _, p, mask, p', -, -, -, hcmd, hoctets, hmask, hsend⟩ :=
    mcpIplist_inv h
  exact ⟨p, mask, p', hmask, iplistSend_fromMcp (mcpOctets_inv hoctets).1
    ((ciMapInt_cIft _).resolve_left hcmd) hsend⟩

/-- **What a line of a file comes to**, if something is sent for it. -/
theorem mcpFileLine_inv {cgi : CgiLib} {ndebug : Bool} {secret : List UInt8}
    {rest : ℕ → List UInt8 → Exec (Option (ℕ × ℤ))} {line packet : List UInt8}
    (h : mcpFileLine cgi ndebug secret rest line = .ok (some packet)) :
    cgi.emptyString line = false ∧ (cgi.trimSpace line).head? ≠ some 35 ∧
      ∃ ip octet p mask cmd,
        mcpOctets 4 0 (List.replicate 16 0) (cgi.trimSpace line ++ [0]) = .ok (ip, octet, p) ∧
        rest octet p = .ok (some (mask, cmd)) ∧
        iplistSend ndebug secret cmd.toNat mask ip = .ok packet := by
  rw [mcpFileLine] at h
  dsimp only at h
  by_cases hempty : cgi.emptyString line = true
  · rw [if_pos hempty] at h
    cases h
  rw [if_neg hempty] at h
  by_cases hcomment : (cgi.trimSpace line).head? = some 35
  · rw [if_pos hcomment] at h
    cases h
  rw [if_neg hcomment] at h
  obtain ⟨⟨ip, octet, p⟩, hoctets, h⟩ := bind_eq_ok.mp h
  obtain ⟨found, hfound, h⟩ := bind_eq_ok.mp h
  cases found with
  | none => cases h
  | some r =>
      obtain ⟨mask, cmd⟩ := r
      obtain ⟨packet', hsend, h⟩ := bind_eq_ok.mp h
      cases h
      exact ⟨Bool.not_eq_true _ ▸ hempty, hcomment, ip, octet, p, mask, cmd, hoctets, hfound,
        hsend⟩

/-- The command is one of the table, whatever the kind of the file is. -/
theorem IplistKind.rest_cmd {cgi : CgiLib} {kind : IplistKind} {octet mask : ℕ}
    {p : List UInt8} {cmd : ℤ} (h : kind.rest cgi octet p = .ok (some (mask, cmd))) :
    0 ≤ cmd ∧ cmd < Ift.none := by
  cases kind with
  | plain =>
      obtain ⟨⟨mask', p'⟩, -, h⟩ := bind_eq_ok.mp h
      dsimp only at h
      split_ifs at h with hbad
      · cases h
      · cases h
        exact (ciMapInt_cIft _).resolve_left hbad
  | relaydelay =>
      cases h
      decide
  | bogonspace =>
      obtain ⟨⟨mask', p'⟩, -, h⟩ := bind_eq_ok.mp h
      cases h
      decide

/-- **A line of a file.** Its packet has the mask that the kind of the file makes of the
octets and the text behind them. -/
theorem mcpFileLine_datagram {cgi : CgiLib} {cfg : Config} {kind : IplistKind}
    {line packet : List UInt8}
    (h : mcpFileLine cgi cfg.ndebug cfg.secret (kind.rest cgi) line = .ok (some packet)) :
    ∃ octet p mask cmd, octet ≤ 4 ∧ kind.rest cgi octet p = .ok (some (mask, cmd)) ∧
      FromMcp cfg mask packet := by
  obtain ⟨-, -, ip, octet, p, mask, cmd, hoctets, hrest, hsend⟩ := mcpFileLine_inv h
  obtain ⟨hip, hoctet⟩ := mcpOctets_inv hoctets
  exact ⟨octet, p, mask, cmd, by simpa using hoctet, hrest,
    iplistSend_fromMcp hip (IplistKind.rest_cmd hrest) hsend⟩

/-! ### What the server does -/

section Server

variable {cfg : Config} {srv : Server} {buf : List UInt8} {d : Datagram}

/-- The reply to a datagram, as the branch of the main loop sends it. -/
theorem reply_request (hlen : 8 ≤ d.data.length) (h : d.data.length ≤ 1500) (type : Cmd)
    (response : ℤ) :
    (d.request buf).reply type response .none = replyTo d.data type response := by
  rw [Request.reply, Request.bytes, packet_request buf h,
    List.drop_append_of_le_length (by omega),
    List.take_append_of_le_length (by rw [List.length_drop]; omega), replyTo]

/-- A datagram of a later version is refused. -/
theorem gldRecv_iplist_version (hd : IplistDatagram cfg d.data)
    (hversion : version < ntohs d.data 4) :
    gldRecv cfg srv buf d =
      .ok ([replyTo d.data .noneResp Glerr.versionNotSupported.code], srv,
        (d.request buf).packet) := by
  have hsize := hd.size
  have hv : version < ntohs (d.request buf).packet 4 := by
    rw [ntohs_packet_request buf hd.size_le (by omega)]
    exact hversion
  rw [gldRecv_of_version cfg srv buf hd.size_le (by omega) hd.verified hv,
    sendReply_eq _ _ (by decide), ok_bind, reply_request (by omega) hd.size_le]

/-- Any other is handled by the branch for client addresses. -/
theorem gldRecv_iplist (hd : IplistDatagram cfg d.data)
    (hversion : ntohs d.data 4 ≤ version) :
    gldRecv cfg srv buf d = (do
      let (out, srv, req) ← cmdMcpIplist cfg srv ((d.request buf).swapField 8)
      .ok (out, srv, req.packet)) := by
  have hsize := hd.size
  have hv : ntohs (d.request buf).packet 4 ≤ version := by
    rw [ntohs_packet_request buf hd.size_le (by omega)]
    exact hversion
  rw [gldRecv_of_verified cfg srv buf hd.size_le (by omega) hd.verified hv,
    ntohs_packet_request buf hd.size_le (by omega), hd.type, Cmd.ofCode_code]
  rfl

/-- A byte behind the type of a datagram, after the conversion of the type. -/
theorem getD_swapped (buf : List UInt8) (h : d.data.length ≤ 1500) {i : ℕ} (hi : 10 ≤ i)
    (hi' : i < d.data.length) :
    ((d.request buf).swapField 8).packet.getD i 0 = d.data.getD i 0 := by
  change (XGrey.swapField (d.request buf).packet 8).getD i 0 = _
  rw [XGrey.swapField, getD_set_ne _ (by omega), getD_set_ne _ (by omega),
    packet_request buf h, getD_append_left hi']

/-- The fields that the branches of the main loop look at. -/
theorem ntohs_swapped (buf : List UInt8) (h : d.data.length ≤ 1500) {off : ℕ}
    (hoff : 10 ≤ off) (hoff' : off + 2 ≤ d.data.length) :
    ntohs ((d.request buf).swapField 8).packet off = ntohs d.data off := by
  rw [ntohs, getD_swapped buf h hoff (by omega), getD_swapped buf h (by omega) (by omega),
    ntohs]

/-- An address of another size is refused. -/
theorem gldRecv_iplist_ipsize (hd : IplistDatagram cfg d.data)
    (hversion : ntohs d.data 4 ≤ version) (hip : iplistIpsize d.data ≠ 4) :
    gldRecv cfg srv buf d =
      .ok ([replyTo d.data .noneResp Glerr.ipaddrNotSupported.code], srv,
        ((d.request buf).swapField 8).packet) := by
  have hsize := hd.size
  have hsend : sendReply cfg.ndebug ((d.request buf).swapField 8) .noneResp
      Glerr.ipaddrNotSupported.code .none =
      .ok [replyTo d.data .noneResp Glerr.ipaddrNotSupported.code] := by
    rw [sendReply_eq _ _ (by decide), reply_swapField _ (by omega),
      reply_request (by omega) hd.size_le]
  rw [iplistIpsize] at hip
  rw [gldRecv_iplist hd hversion, cmdMcpIplist,
    ntohs_swapped buf hd.size_le (by omega) (by omega), if_pos hip, hsend]
  rfl

/-- With an address of four bytes it is up to `ip_add_sm`. -/
theorem gldRecv_iplist_add (hd : IplistDatagram cfg d.data)
    (hversion : ntohs d.data 4 ≤ version) (hip : iplistIpsize d.data = 4) :
    gldRecv cfg srv buf d = (do
      let iplist ← ipAddSm cfg.ndebug srv.iplist ((d.request buf).packet.drop 16)
        (iplistMaskField d.data) (iplistCmd d.data)
      .ok ([replyTo d.data .mcpIplistResp 0], { srv with iplist := iplist },
        ((d.request buf).swapField 8).packet)) := by
  have hsize := hd.size
  have hdrop : ((d.request buf).swapField 8).packet.drop 16 =
      (d.request buf).packet.drop 16 := drop_swapField _ (by omega)
  have hsend : sendReply cfg.ndebug ((d.request buf).swapField 8) .mcpIplistResp 0 .none =
      .ok [replyTo d.data .mcpIplistResp 0] := by
    rw [sendReply_eq _ _ (le_refl 0), reply_swapField _ (by omega),
      reply_request (by omega) hd.size_le]
  rw [iplistIpsize] at hip
  rw [gldRecv_iplist hd hversion, cmdMcpIplist,
    ntohs_swapped buf hd.size_le (by omega) (by omega), if_neg (not_not.mpr hip),
    ntohs_swapped buf hd.size_le (by omega) (by omega),
    ntohs_swapped buf hd.size_le (by omega) (by omega), hdrop, bind_assoc, hsend]
  rfl

/-- The walk along an address that has enough octets for the mask. -/
theorem ipAddSm_request (hd : IplistDatagram cfg d.data)
    (hmask : iplistMaskField d.data ≤ 32) (cmd : ℤ) :
    ipAddSm cfg.ndebug srv.iplist ((d.request buf).packet.drop 16) (iplistMaskField d.data)
        cmd =
      ipAddSm cfg.ndebug srv.iplist (iplistAddress d.data) (iplistMaskField d.data) cmd := by
  have hsize := hd.size
  have hlen : 16 ≤ ((d.request buf).packet.drop 16).length := by
    rw [packet_request buf hd.size_le, List.length_drop, List.length_append]
    omega
  have haddress : ((d.request buf).packet.drop 16).take 16 = iplistAddress d.data := by
    rw [packet_request buf hd.size_le, List.drop_append_of_le_length (by omega),
      List.take_append_of_le_length (by rw [List.length_drop]; omega), iplistAddress]
  rw [← haddress, ipAddSm_take cfg.ndebug srv.iplist hlen (by omega)]

/-- No node carries `IFT_NONE` as a rule. -/
theorem ipRules_ne_none (t : BinTrie IpNode) (q : List Bool) :
    ipRules t q ≠ some Ift.none := by
  intro hq
  obtain ⟨a, -, ha⟩ := Option.bind_eq_some_iff.mp hq
  rw [ruleOf] at ha
  split_ifs at ha with hnone
  exact hnone (Option.some_inj.mp ha)

/-- So that none can be installed. -/
theorem addRule_none_ne (t : BinTrie IpNode) (rules : IpRuleMap) (ip : List UInt8)
    (mask : ℤ) : ipRules t ≠ addRule rules ip mask Ift.none := by
  intro heq
  have hq := congrFun heq (prefixBits ip mask.toNat)
  rw [addRule, if_neg (fun h => absurd h.2 (by decide)), Function.update_self] at hq
  exact ipRules_ne_none t _ hq

/-- **The server handles a packet for client addresses as it should** exactly if it refuses
it, or the mask and the command are in their ranges. -/
theorem gldRecv_iplist_iff (hnil : srv.iplist.tree.isNil = false) (buf : List UInt8)
    (hd : IplistDatagram cfg d.data) :
    IplistHandled cfg srv d.data (gldRecv cfg srv buf d) ↔ IplistSafe d.data := by
  by_cases hversion : version < ntohs d.data 4
  · rw [gldRecv_iplist_version hd hversion]
    exact iff_of_true ⟨_, _, _, rfl, Or.inr ⟨⟨_, Glerr.noConfusion, rfl⟩, rfl⟩⟩
      (Or.inl hversion)
  by_cases hip : iplistIpsize d.data ≠ 4
  · rw [gldRecv_iplist_ipsize hd (by omega) hip]
    exact iff_of_true ⟨_, _, _, rfl, Or.inr ⟨⟨_, Glerr.noConfusion, rfl⟩, rfl⟩⟩
      (Or.inr (Or.inl hip))
  rw [gldRecv_iplist_add hd (by omega) (not_not.mp hip), IplistSafe]
  constructor
  · rintro ⟨out, srv', buf', hok, hchanged | ⟨⟨error, -, hout⟩, -⟩⟩
    · refine Or.inr (Or.inr ⟨hchanged.mask_le, fun hcmd => ?_⟩)
      have hrules := hchanged.rules
      rw [hcmd] at hrules
      exact addRule_none_ne _ _ _ _ hrules
    · -- a packet that gets this far is not answered with an error
      obtain ⟨l, -, hok⟩ := bind_eq_ok.mp hok
      cases hok
      cases hout
  · intro hsafe
    obtain ⟨hmask, hcmd⟩ := (hsafe.resolve_left hversion).resolve_left hip
    have hsize := hd.size
    have hlen : 4 ≤ (iplistAddress d.data).length := by
      rw [iplistAddress, List.length_take, List.length_drop]
      omega
    obtain ⟨l', hadd, -, -, hrules, hcnt⟩ := @ipAddSm_spec cfg.ndebug srv.iplist hnil
      (iplistAddress d.data) (iplistMaskField d.data) (Int.natCast_nonneg _)
      (Or.inr (by omega)) (by omega) (iplistCmd d.data)
    rw [ipAddSm_request hd hmask, hadd, ok_bind]
    exact ⟨_, _, _, rfl, Or.inl ⟨rfl, hmask, hadd, hrules hcmd, hcnt, rfl⟩⟩

end Server

/-! ### Runs -/

section Runs

variable {cgi : CgiLib} {cfg : Config} {srv srv' : Server}

/-- The loader keeps the root of the tree. -/
theorem isNil_of_iplistRead {ndebug : Bool} {l : IpList} (h : l.tree.isNil = false)
    {ip : List UInt8} {lines : List (List UInt8)} {r : IpList × Bool}
    (hok : iplistRead cgi ndebug l ip lines = .ok r) : r.1.tree.isNil = false := by
  induction lines generalizing l ip with
  | nil =>
      cases hok
      exact h
  | cons linebuff lines ih =>
      rw [iplistRead] at hok
      obtain ⟨⟨line, ip'⟩, -, hok⟩ := bind_eq_ok.mp hok
      cases line with
      | blank => exact ih h hok
      | bad =>
          cases hok
          exact h
      | rule mask cmd =>
          obtain ⟨l', hadd, hok⟩ := bind_eq_ok.mp hok
          exact ih (isNil_of_ipAddSm hadd) hok

@[simp] theorem iplist_setList (srv : Server) (l : AddrList) (name : ListName) :
    (srv.setList l name).iplist = srv.iplist := by
  cases name <;> rfl

/-- A request keeps the root of the tree. -/
theorem RequestStep.isNil {req : Request} {type : Option Cmd}
    (hstep : RequestStep cfg srv req type srv') (h : srv.iplist.tree.isNil = false) :
    srv'.iplist.tree.isNil = false := by
  cases hstep with
  | same => exact h
  | check whitelist _ hacc rc tree hmatch hiplist hstore =>
      rw [hiplist]
      exact isNil_of_ipMatch hmatch
  | remove hacc => exact h
  | iplist l hsize hok => exact isNil_of_ipAddSm hok
  | tofrom name text l htext hok =>
      rw [iplist_setList]
      exact h

/-- **One step** of the server keeps the root of the tree. -/
theorem actionStep_isNil (h : srv.iplist.tree.isNil = false) {a : Action}
    {out : List Output} (hok : actionStep cgi cfg srv a = .ok (srv', out)) :
    srv'.iplist.tree.isNil = false := by
  have hstep := actionStep_inv hok
  cases hstep with
  | iplistRead ip lines l whole hread => exact isNil_of_iplistRead h hread
  | whitelistLoad => exact h
  | tofromRead name =>
      rw [iplist_setList]
      exact h
  | request req canReport type srv' out req' hdispatch => exact (dispatch_inv hdispatch).isNil h
  | sweep a now ha srv' s hspace hnum hpool hexpire hiplist => rwa [hiplist]

/-- **A run** from startup on leaves a tree with a root. -/
theorem run_isNil {starttime : ℤ} {actions : List Action} {outs : List (List Output)}
    (hrun : run (actionStep cgi cfg) (Server.init cfg starttime) actions = .ok (srv, outs)) :
    srv.iplist.tree.isNil = false := by
  have hstep : ∀ srv a srv' out, (Server.iplist srv).tree.isNil = false → True →
      actionStep cgi cfg srv a = .ok (srv', out) → srv'.iplist.tree.isNil = false :=
    fun _ _ _ _ h _ hok => actionStep_isNil h hok
  have hinit : (Server.init cfg starttime).iplist.tree.isNil = false := rfl
  exact run_invariant hstep hinit (along_of_forall (fun _ _ => trivial) _ actions) hrun

end Runs

/-- **Packets for client addresses** in every state that the server reaches: it handles one
as it should exactly if it refuses it, or the mask and the command are in their ranges. -/
theorem run_iplist_iff (cgi : CgiLib) (cfg : Config) (starttime : ℤ) (actions : List Action)
    (srv : Server) (outs : List (List Output))
    (hrun : run (actionStep cgi cfg) (Server.init cfg starttime) actions = .ok (srv, outs))
    (buf : List UInt8) (d : Datagram) (hd : IplistDatagram cfg d.data) :
    IplistHandled cfg srv d.data (gldRecv cfg srv buf d) ↔ IplistSafe d.data :=
  gldRecv_iplist_iff (run_isNil hrun) buf hd

/-- A packet with room for an address can be sent. -/
theorem exists_iplistSend (cfg : Config) (cmd mask : ℕ) {ip : List UInt8}
    (hip : ip.length = 16) :
    ∃ packet, iplistSend cfg.ndebug cfg.secret cmd mask ip = .ok packet := by
  have hlen : (htonl 0 ++ iplistBody cmd mask ip).length = 32 := by
    simp [iplistBody, hip]
  rw [iplistSend, signPacket_eq (by omega) (by omega) cfg.secret_ne]
  exact ⟨_, rfl⟩

/-- A command line that the control program takes. -/
theorem exists_mcpIplist (cgi : CgiLib) (cfg : Config) (first : List UInt8)
    (rest : List (List UInt8)) {word address word' ip p p' : List UInt8} {octet mask : ℕ}
    (hword : cstring word = .ok word')
    (hfile : strcmp word' (ascii "file") ≠ .eq)
    (hcmd : ciMapInt (cgi.upString word') cIft ≠ -1)
    (hoctets : mcpOctets 4 0 (List.replicate 16 0) address = .ok (ip, octet, p))
    (hmask : mcpMask p = .ok (mask, p')) :
    ∃ packet, mcpIplist cgi cfg.ndebug cfg.secret (first :: word :: address :: rest) =
      .ok (some packet) ∧ FromMcp cfg mask packet := by
  have hip : ip.length = 16 := (mcpOctets_inv hoctets).1
  obtain ⟨packet, hsend⟩ :=
    exists_iplistSend cfg (ciMapInt (cgi.upString word') cIft).toNat mask hip
  refine ⟨packet, ?_, iplistSend_fromMcp hip ((ciMapInt_cIft _).resolve_left hcmd) hsend⟩
  rw [mcpIplist, hword, ok_bind, if_neg hfile]
  dsimp only
  rw [if_neg hcmd, hoctets, ok_bind]
  dsimp only
  rw [hmask, ok_bind]
  dsimp only
  rw [hsend, ok_bind]

/-- A line of a file that the control program takes. -/
theorem exists_mcpFileLine (cgi : CgiLib) (cfg : Config)
    (rest : ℕ → List UInt8 → Exec (Option (ℕ × ℤ))) (line : List UInt8) {ip p : List UInt8}
    {octet mask : ℕ} {cmd : ℤ} (hempty : cgi.emptyString line = false)
    (hcomment : (cgi.trimSpace line).head? ≠ some 35)
    (hoctets : mcpOctets 4 0 (List.replicate 16 0) (cgi.trimSpace line ++ [0]) =
      .ok (ip, octet, p))
    (hrest : rest octet p = .ok (some (mask, cmd))) (hcmd : 0 ≤ cmd ∧ cmd < Ift.none) :
    ∃ packet, mcpFileLine cgi cfg.ndebug cfg.secret rest line = .ok (some packet) ∧
      FromMcp cfg mask packet := by
  have hip : ip.length = 16 := (mcpOctets_inv hoctets).1
  obtain ⟨packet, hsend⟩ := exists_iplistSend cfg cmd.toNat mask hip
  refine ⟨packet, ?_, iplistSend_fromMcp hip hcmd hsend⟩
  rw [mcpFileLine, if_neg (Bool.eq_false_iff.mp hempty)]
  dsimp only
  rw [if_neg hcomment, hoctets, ok_bind]
  dsimp only
  rw [hrest, ok_bind]
  dsimp only
  rw [hsend, ok_bind]

/-- The packet of `iplist accept 10.0.0.0/8`. -/
theorem run_iplist_iff_octet :
    ∃ packet, mcpIplist plainCgi false (ascii "decafbad")
        [ascii "iplist", ascii "ACCEPT" ++ [0], ascii "10.0.0.0/8" ++ [0]] =
          .ok (some packet) ∧ IplistSafe packet ∧
      (IplistHandled (Config.default false) (Server.init (Config.default false) 0) packet
          (gldRecv (Config.default false) (Server.init (Config.default false) 0)
            (List.replicate 1500 0)
            { data := packet, now := 0, clock := 0, canReport := true }) ↔
        IplistSafe packet) := by
  have hword : cstring (ascii "ACCEPT" ++ [0]) = .ok (ascii "ACCEPT") := by decide
  have hoctets : mcpOctets 4 0 (List.replicate 16 0) (ascii "10.0.0.0/8" ++ [0]) =
      .ok (10 :: List.replicate 15 0, 3, ascii "/8" ++ [0]) := by decide
  have hmask : mcpMask (ascii "/8" ++ [0]) = .ok (8, [0]) := by decide
  obtain ⟨packet, hsend, hmcp⟩ := exists_mcpIplist plainCgi (Config.default false)
    (ascii "iplist") [] hword (by decide) (by decide) hoctets hmask
  refine ⟨packet, hsend, Or.inr (Or.inr ⟨?_, hmcp.cmd_ne⟩), ?_⟩
  · rw [hmcp.mask]
    decide
  · exact run_iplist_iff plainCgi (Config.default false) 0 [] _ [] rfl
      (List.replicate 1500 0) { data := packet, now := 0, clock := 0, canReport := true }
      hmcp.datagram

/-- A packet of the control program with a mask that no address has bits for. -/
theorem FromMcp.not_handled {cfg : Config} {srv : Server} {d : Datagram} {mask : ℕ}
    (h : FromMcp cfg mask d.data) (hmask : 32 < mask % 65536)
    (hnil : srv.iplist.tree.isNil = false) (buf : List UInt8) :
    ¬ IplistHandled cfg srv d.data (gldRecv cfg srv buf d) := by
  rw [gldRecv_iplist_iff hnil buf h.datagram]
  rintro (hversion | hip | ⟨hle, -⟩)
  · exact absurd hversion h.version.not_gt
  · exact hip h.ipsize
  · rw [h.mask] at hle
    omega

/-- `iplist accept 10.0.0.0/33` is typed into the control program, or the line `1.2.3.4.`
stands in a file for `relaydelay`: no rule of an address can come of it, and it is not
refused either. -/
theorem not_iplistHandled_mask :
    (∃ packet, mcpIplist plainCgi false (ascii "decafbad")
        [ascii "iplist", ascii "ACCEPT" ++ [0], ascii "10.0.0.0/33" ++ [0]] =
          .ok (some packet) ∧
      ¬ IplistHandled (Config.default false) (Server.init (Config.default false) 0) packet
          (gldRecv (Config.default false) (Server.init (Config.default false) 0)
            (List.replicate 1500 0)
            { data := packet, now := 0, clock := 0, canReport := true })) ∧
    ∃ packet, iplistFileRelaydelay plainCgi false (ascii "decafbad") (ascii "1.2.3.4.") =
        .ok (some packet) ∧
      ¬ IplistHandled (Config.default false) (Server.init (Config.default false) 0) packet
          (gldRecv (Config.default false) (Server.init (Config.default false) 0)
            (List.replicate 1500 0)
            { data := packet, now := 0, clock := 0, canReport := true }) := by
  constructor
  · have hword : cstring (ascii "ACCEPT" ++ [0]) = .ok (ascii "ACCEPT") := by decide
    have hoctets : mcpOctets 4 0 (List.replicate 16 0) (ascii "10.0.0.0/33" ++ [0]) =
        .ok (10 :: List.replicate 15 0, 3, ascii "/33" ++ [0]) := by decide
    have hmask : mcpMask (ascii "/33" ++ [0]) = .ok (33, [0]) := by decide
    obtain ⟨packet, hsend, hmcp⟩ := exists_mcpIplist plainCgi (Config.default false)
      (ascii "iplist") [] hword (by decide) (by decide) hoctets hmask
    let d : Datagram := { data := packet, now := 0, clock := 0, canReport := true }
    have hdata : FromMcp (Config.default false) 33 d.data := hmcp
    exact ⟨packet, hsend, hdata.not_handled (by decide) rfl (List.replicate 1500 0)⟩
  · have hoctets : mcpOctets 4 0 (List.replicate 16 0) (ascii "1.2.3.4." ++ [0]) =
        .ok ([1, 2, 3, 4] ++ List.replicate 12 0, 4, [0]) := by decide
    obtain ⟨packet, hsend, hmcp⟩ := exists_mcpFileLine plainCgi (Config.default false)
      (IplistKind.relaydelay.rest plainCgi) (ascii "1.2.3.4.") rfl (by decide) hoctets rfl
      (by decide)
    let d : Datagram := { data := packet, now := 0, clock := 0, canReport := true }
    have hdata : FromMcp (Config.default false) 40 d.data := hmcp
    exact ⟨packet, hsend, hdata.not_handled (by decide) rfl (List.replicate 1500 0)⟩

end XGrey
