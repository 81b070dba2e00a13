import XGrey.IplistPackets
import XGrey.Lib.TextFile
import XGrey.Responses
import XGrey.StaleBytes

/-!
# The Control Program

`gld-mcp` (`control/gld-mcp.c`): what it makes of a command line, and what it accepts as the
answer of the server to the one packet that most commands send. The words of a command line are
strings in memory; so is the packet before it is filled in, and some of its bytes never are.

The commands that read a file send a packet for each of its lines, and wait for an answer in the
same way. In between the server may have other things to do, so that each line is a step of its own.

## Main results

* `processCmdline_sends`, `kindLine_sends`: every packet that a command line or a line of a file
  sends has a header that the server understands, and the answer that is waited for has the type
  behind its own.
* `Headed.gldRecv`, `Headed.accepted`: what such a header comes to at either end.
-/

open CRuntime Lexicographic TextFile

namespace XGrey

/-! ### Command lines -/

/-- The texts that the control program has of its own. -/
inductive OwnText
  | warranty
  | license
  | commands
  deriving DecidableEq

/-- What a command line comes to. -/
inductive McpCommand
  | ignored
  /-- A message is written. -/
  | prints (text : List UInt8)
  | shows (text : OwnText)
  | reads (fname : List UInt8) (kind : IplistKind)
  /-- A packet is sent with `send_request`, which waits for an answer of a type. -/
  | sends (packet : List UInt8) (expected : ℤ)
  deriving DecidableEq

/-- The commands that send a header alone: `show_stats`, `show_config` and `show_report`. The
structure is two bytes longer than its fields. -/
def mcpQuery (ndebug : Bool) (secret mem : List UInt8) (req resp : Cmd) : Exec McpCommand := do
  let packet ← signPacket ndebug secret (htonl 0 ++ (htons version ++ (htons mtaMcp ++
    (htons req.code ++ (mem.drop 10).take 2))))
  .ok (.sends packet resp.code)

/-- `show` -/
def mcpShow (ndebug : Bool) (secret mem : List UInt8) :
    List (List UInt8) → Exec McpCommand
  | _ :: word :: rest => do
      let word ← cstring word
      if strcmp word (ascii "w") = .eq then .ok (.shows .warranty)
      else if strcmp word (ascii "c") = .eq then .ok (.shows .license)
      else if strcmp word (ascii "stats") = .eq then
        mcpQuery ndebug secret mem .mcpShowStats .mcpShowStatsResp
      else if strcmp word (ascii "config") = .eq then
        mcpQuery ndebug secret mem .mcpShowConfig .mcpShowConfigResp
      else if strcmp word (ascii "iplist") = .eq then
        mcpQuery ndebug secret mem .mcpShowIplist .mcpShowIplistResp
      else if strcmp word (ascii "tuples") = .eq then
        match rest with
        | [] => mcpQuery ndebug secret mem .mcpShowTuple .mcpShowTupleResp
        | which :: _ => do
            let which ← cstring which
            if strcmp which (ascii "all") = .eq then
              mcpQuery ndebug secret mem .mcpShowTupleAll .mcpShowTupleAllResp
            else if strcmp which (ascii "whitelist") = .eq then
              mcpQuery ndebug secret mem .mcpShowWhitelist .mcpShowWhitelistResp
            else .ok .ignored
      else if strcmp word (ascii "to") = .eq then
        mcpQuery ndebug secret mem .mcpShowTo .mcpShowToResp
      else if strcmp word (ascii "to-domain") = .eq then
        mcpQuery ndebug secret mem .mcpShowToDomain .mcpShowToDomainResp
      else if strcmp word (ascii "from") = .eq then
        mcpQuery ndebug secret mem .mcpShowFrom .mcpShowFromResp
      else if strcmp word (ascii "from-domain") = .eq then
        mcpQuery ndebug secret mem .mcpShowFromDomain .mcpShowFromDomainResp
      else .ok .ignored
  | _ => .ok .ignored

/-- `iplist` -/
def mcpIplistCommand (cgi : CgiLib) (ndebug : Bool) (secret : List UInt8)
    (cmdline : List (List UInt8)) : Exec McpCommand :=
  match cmdline with
  | _ :: word :: fname :: rest => do
      let word ← cstring word
      if strcmp word (ascii "file") = .eq then
        match rest with
        | [] => .ok (.reads fname .plain)
        | [kind] => do
            let kind ← cstring kind
            if strcmp kind (ascii "relaydelay") = .eq then .ok (.reads fname .relaydelay)
            else if strcmp kind (ascii "bogonspace") = .eq then .ok (.reads fname .bogonspace)
            else .ok .ignored
        | _ => .ok .ignored
      else
        match ← mcpIplist cgi ndebug secret cmdline with
        | none => .ok (.prints (ascii "bad command\n"))
        | some packet => .ok (.sends packet Cmd.mcpIplistResp.code)
  | _ => .ok .ignored

/-- `struct glmcp_request_tofrom` behind its checksum, with an address of at most 200 bytes. The
field `size` is not set, and the structure is one byte longer than its fields. -/
def tofromBody (cmd : Cmd) (ift : ℕ) (mem address : List UInt8) : List UInt8 :=
  htons version ++ (htons mtaMcp ++ (htons cmd.code ++ (htons ift ++ ((mem.drop 12).take 2 ++
    (address ++ 0 :: (mem.drop (15 + address.length)).take 1)))))

/-- `tofrom` -/
def mcpTofrom (cgi : CgiLib) (ndebug : Bool) (secret mem : List UInt8) (cmd resp : Cmd)
    (domain : Bool) : List (List UInt8) → Exec McpCommand
  | [_, word, address] => do
      let address ← cstring address
      let addrsize := min address.length 200
      let word ← cstring word
      let word := cgi.upString word
      if domain = true ∧ (strchr address 64).isSome then
        .ok (.prints (ascii "this '" ++ address ++ ascii "' is not a domain\n"))
      else
        let ift := ciMapInt (cgi.upString word) cIft
        if ift = -1 then .ok .ignored
        else do
          let packet ← signPacket ndebug secret
            (htonl 0 ++ tofromBody cmd ift.toNat mem (address.take addrsize))
          .ok (.sends packet resp.code)
  | _ => .ok .ignored

/-- `tuple`, up to the answer. The type of the answer is the one behind that of the request. -/
def mcpTupleCommand (cgi : CgiLib) (ndebug : Bool) (secret mem : List UInt8)
    (cmdline : List (List UInt8)) : Exec McpCommand :=
  match cmdline with
  | _ :: word :: _ => do
      match ← mcpTuple cgi ndebug secret ((mem.drop 16).take 4) cmdline with
      | none => .ok .ignored
      | some packet => do
          let word ← cstring word
          .ok (.sends packet (ciMapInt (cgi.upString word) mTupleCmd + 1))
  | _ => .ok .ignored

/-- `process_cmdline` -/
def processCmdline (cgi : CgiLib) (ndebug : Bool) (secret mem : List UInt8)
    (cmdline : List (List UInt8)) : Exec McpCommand :=
  match cmdline with
  | [] => do
      cassert ndebug False
      .ok .ignored
  | word :: _ => do
      let word ← cstring word
      if strcmp word (ascii "show") = .eq then mcpShow ndebug secret mem cmdline
      else if strcmp word (ascii "iplist") = .eq then mcpIplistCommand cgi ndebug secret cmdline
      else if strcmp word (ascii "to") = .eq then
        mcpTofrom cgi ndebug secret mem .mcpTo .mcpToResp false cmdline
      else if strcmp word (ascii "to-domain") = .eq then
        mcpTofrom cgi ndebug secret mem .mcpToDomain .mcpToDomainResp true cmdline
      else if strcmp word (ascii "from") = .eq then
        mcpTofrom cgi ndebug secret mem .mcpFrom .mcpFromResp false cmdline
      else if strcmp word (ascii "from-domain") = .eq then
        mcpTofrom cgi ndebug secret mem .mcpFromDomain .mcpFromDomainResp true cmdline
      else if strcmp word (ascii "tuple") = .eq then
        mcpTupleCommand cgi ndebug secret mem cmdline
      else if strcmp word (ascii "help") = .eq then .ok (.shows .commands)
      else if strcmp word (ascii "?") = .eq then .ok (.shows .commands)
      else .ok .ignored

/-- The body of the loop of `iplist_file`, `iplist_file_relaydelay` or `iplist_file_bogonspace`: the
packet for a line, if there is one. -/
def IplistKind.line (cgi : CgiLib) (ndebug : Bool) (secret : List UInt8) :
    IplistKind → List UInt8 → Exec (Option (List UInt8))
  | .plain => iplistFile cgi ndebug secret
  | .relaydelay => iplistFileRelaydelay cgi ndebug secret
  | .bogonspace => iplistFileBogonspace cgi ndebug secret

/-- A line that all three go past: a blank one or a comment. -/
def IsSkipped (cgi : CgiLib) (line : List UInt8) : Prop :=
  cgi.emptyString line = true ∨ (cgi.trimSpace line).head? = some 35

instance (cgi : CgiLib) (line : List UInt8) : Decidable (IsSkipped cgi line) :=
  inferInstanceAs (Decidable (_ ∨ _))

/-- A file that the control program has opened, with the lines that are left of it. -/
structure McpReader where
  kind : IplistKind
  lines : List (List UInt8)
  deriving DecidableEq

/-- The next turn of the loop: the packet, if there is one, and what is left of the file. Behind a
line with a syntax error, which only `iplist_file` knows, nothing is read any more. -/
def McpReader.turn (cgi : CgiLib) (ndebug : Bool) (secret : List UInt8) (r : McpReader) :
    Exec (Option (List UInt8) × McpReader) :=
  match r.lines with
  | [] => .ok (none, r)
  | line :: lines => do
      let sent ← r.kind.line cgi ndebug secret line
      if sent = none ∧ ¬ IsSkipped cgi line then .ok (none, { r with lines := [] })
      else .ok (sent, { r with lines := lines })

/-- The end of `send_request`, on a datagram that is received into a buffer: whether it returns
`ERR_OKAY`, and the packet. -/
def sendRequestRecv (cfg : Config) (buf data : List UInt8) (expected : ℤ) :
    Exec (Bool × List UInt8) := do
  let (packet, rrc) := recvfrom buf data
  let crc ← crc32 cfg.ndebug initCrc32 (packet.drop 4) (sizeT (rrc - 4))
  let crc ← crc32 cfg.ndebug crc cfg.secret cfg.secret.length
  if crc.toNat ≠ ntohl packet 0 then .ok (false, packet)
  else if ntohs packet 4 > version then .ok (false, packet)
  else if ntohs packet 6 ≠ mtaMcp then .ok (false, packet)
  else if (ntohs packet 8 : ℤ) ≠ expected then .ok (false, packet)
  else .ok (true, packet)

/-! ### Packets with a header -/

/-- A packet with the right checksum and the header that the control program and the server write
to each other. -/
structure Headed (cfg : Config) (type : Cmd) (packet : List UInt8) : Prop where
  verified : Verified cfg packet
  length_ge : 10 ≤ packet.length
  length_le : packet.length ≤ 1500
  version_eq : ntohs packet 4 = version
  mta_eq : (packet.drop 6).take 2 = htons mtaMcp
  type_eq : ntohs packet 8 = type.code

section Headed

variable {cfg : Config} {type : Cmd} {packet : List UInt8}

/-- What is signed behind a header. -/
theorem headed_signed {rest : List UInt8} (h : rest.length ≤ 1490) (type : Cmd) :
    signPacket cfg.ndebug cfg.secret
        (htonl 0 ++ (htons version ++ (htons mtaMcp ++ (htons type.code ++ rest)))) =
      .ok (htonl (checksum cfg.secret
          (htons version ++ (htons mtaMcp ++ (htons type.code ++ rest)))).toNat ++
        (htons version ++ (htons mtaMcp ++ (htons type.code ++ rest)))) ∧
    Headed cfg type (htonl (checksum cfg.secret
        (htons version ++ (htons mtaMcp ++ (htons type.code ++ rest)))).toNat ++
      (htons version ++ (htons mtaMcp ++ (htons type.code ++ rest)))) := by
  have hcode : type.code < 65536 := by cases type <;> decide
  refine ⟨signPacket_eq (by simp) (by simp; omega) cfg.secret_ne, ?_⟩
  generalize hcrc : (checksum cfg.secret _).toNat = crc
  refine ⟨hcrc ▸ verified_append cfg _, by simp; omega, by simp; omega, ?_, rfl, ?_⟩
  · exact ntohs_field (htonl crc) rfl (by decide) _
  · rw [← List.append_assoc, ← List.append_assoc]
    exact ntohs_field (htonl crc ++ htons version ++ htons mtaMcp) rfl hcode rest

/-- **The server** looks at the type of such a packet. -/
theorem Headed.gldRecv {d : Datagram} (h : Headed cfg type d.data) (srv : Server)
    (buf : List UInt8) :
    XGrey.gldRecv cfg srv buf d = (do
      let (out, srv, req) ← dispatch cfg srv ((d.request buf).swapField 8) d.canReport (some type)
      .ok (out, srv, req.packet)) := by
  rw [gldRecv_type srv buf h.length_le h.length_ge h.verified h.version_eq.le, h.type_eq,
    Cmd.ofCode_code]

/-- Its replies have the `MTA` of the packet. -/
theorem Headed.mta {d : Datagram} (h : Headed cfg type d.data) (buf : List UInt8) :
    ((d.request buf).swapField 8).bytes 6 2 = htons mtaMcp := by
  have hten := h.length_ge
  have htwo : 2 ≤ (d.data.drop 6).length := by
    rw [List.length_drop]
    omega
  rw [bytes_swapField _ (le_refl 8), Request.bytes, packet_request buf h.length_le,
    List.drop_append_of_le_length (by omega), List.take_append_of_le_length htwo]
  exact h.mta_eq

/-- What lies behind the type is read as it was sent. -/
theorem Headed.field {d : Datagram} (h : Headed cfg type d.data) (buf : List UInt8) {off : ℕ}
    (hoff : 10 ≤ off) (hlen : off + 2 ≤ d.data.length) :
    ntohs ((d.request buf).swapField 8).packet off = ntohs d.data off :=
  (ntohs_swapField _ hoff).trans (ntohs_packet_request buf h.length_le hlen)

/-- **The control program** looks at the type of such a packet. -/
theorem Headed.accepted (h : Headed cfg type packet) (buf : List UInt8) (expected : ℤ) :
    sendRequestRecv cfg buf packet expected =
      .ok (decide ((type.code : ℤ) = expected), packet ++ buf.drop packet.length) := by
  have hten := h.length_ge
  let d : Datagram := ⟨packet, 0, 0, false⟩
  have hcrc : (d.request buf).crc cfg = .ok (checksum cfg.secret (packet.drop 4)) :=
    crc_request cfg buf h.length_le (show 5 ≤ packet.length by omega)
  have hpacket : (recvfrom buf packet).1 = packet ++ buf.drop packet.length :=
    packet_request buf (show d.data.length ≤ 1500 from h.length_le)
  have heq : sendRequestRecv cfg buf packet expected = (do
      let crc ← (d.request buf).crc cfg
      let packet := (recvfrom buf packet).1
      if crc.toNat ≠ ntohl packet 0 then .ok (false, packet)
      else if ntohs packet 4 > version then .ok (false, packet)
      else if ntohs packet 6 ≠ mtaMcp then .ok (false, packet)
      else if (ntohs packet 8 : ℤ) ≠ expected then .ok (false, packet)
      else .ok (true, packet)) := by
    rw [Request.crc, bind_assoc]
    rfl
  have hsum : (checksum cfg.secret (packet.drop 4)).toNat =
      ntohl (packet ++ buf.drop packet.length) 0 := by
    have hver : (checksum cfg.secret (packet.drop 4)).toNat = ntohl packet 0 := h.verified
    rw [ntohl_append_left (by omega)]
    exact hver
  have hmta : ntohs packet 6 = mtaMcp := by
    have hget : ∀ i < 2, packet.getD (6 + i) 0 = ((packet.drop 6).take 2).getD i 0 := by
      intro i hi
      rw [List.getD_eq_getElem?_getD, List.getD_eq_getElem?_getD, List.getElem?_take_of_lt hi,
        List.getElem?_drop]
    rw [ntohs, hget 0 (by decide), hget 1 (by decide), h.mta_eq]
    rfl
  rw [heq, hcrc, ok_bind, hpacket, if_neg (not_not.mpr hsum), ntohs_append_left (by omega),
    h.version_eq, if_neg (lt_irrefl _), ntohs_append_left (by omega), hmta,
    if_neg (not_not.mpr rfl), ntohs_append_left (by omega), h.type_eq]
  by_cases htype : (type.code : ℤ) = expected
  · rw [if_neg (not_not.mpr htype), decide_eq_true htype]
  · rw [if_pos htype, decide_eq_false htype]

end Headed

/-! ### What is sent -/

/-- The requests for something to be shown. -/
def showTypes : List Cmd :=
  [.mcpShowStats, .mcpShowConfig, .mcpShowIplist, .mcpShowTuple, .mcpShowTupleAll,
    .mcpShowWhitelist, .mcpShowTo, .mcpShowToDomain, .mcpShowFrom, .mcpShowFromDomain]

/-- What the control program sends, by its type. -/
inductive McpRequest (cfg : Config) (packet : List UInt8) : Cmd → Prop
  | query (c : Cmd) (hc : c ∈ showTypes) (h : Headed cfg c packet) : McpRequest cfg packet c
  | iplist (h : Headed cfg .mcpIplist packet) {mask : ℕ} (hmcp : FromMcp cfg mask packet) :
      McpRequest cfg packet .mcpIplist
  | tofrom (name : ListName) (h : Headed cfg name.cmd packet) (hend : 0 ∈ packet.drop 14) :
      McpRequest cfg packet name.cmd
  | tuple (c : Cmd) (hc : c = .greylist ∨ c = .whitelist ∨ c = .tupleRemove)
      (h : Headed cfg c packet)
      (hacc : ∀ d : Datagram, d.data = packet → ∀ buf, ((d.request buf).swapField 8).Accepts) :
      McpRequest cfg packet c

theorem McpRequest.headed {cfg : Config} {packet : List UInt8} {c : Cmd}
    (h : McpRequest cfg packet c) : Headed cfg c packet := by
  cases h <;> assumption

/-- A rule on client addresses has a command of the table. -/
theorem McpRequest.fromMcp {cfg : Config} {packet : List UInt8}
    (h : McpRequest cfg packet .mcpIplist) : ∃ mask, FromMcp cfg mask packet := by
  generalize hcmd : Cmd.mcpIplist = c at h
  cases h with
  | query c hc =>
      subst hcmd
      exact absurd hc (by decide)
  | @iplist _ mask hmcp => exact ⟨mask, hmcp⟩
  | tofrom name => cases name <;> cases hcmd
  | tuple c hc =>
      subst hcmd
      simp at hc

/-- The answer that is waited for has the type behind that of the request. -/
def SendsRequest (cfg : Config) (packet : List UInt8) (expected : ℤ) : Prop :=
  ∃ c, McpRequest cfg packet c ∧ expected = c.code + 1

section Sent

variable {cgi : CgiLib} {cfg : Config} {mem : List UInt8} {cmdline : List (List UInt8)}
  {packet : List UInt8} {expected : ℤ}

/-- The packet of a query. -/
theorem mcpQuery_headed (cfg : Config) (mem : List UInt8) (req resp : Cmd) :
    ∃ packet, mcpQuery cfg.ndebug cfg.secret mem req resp = .ok (.sends packet resp.code) ∧
      Headed cfg req packet := by
  have hrest : ((mem.drop 10).take 2).length ≤ 1490 := by
    rw [List.length_take]
    omega
  obtain ⟨hsign, hheaded⟩ := @headed_signed cfg _ hrest req
  exact ⟨_, by rw [mcpQuery, hsign, ok_bind], hheaded⟩

theorem mcpQuery_inv {req resp : Cmd} (hreq : req ∈ showTypes) (hresp : resp.code = req.code + 1)
    (h : mcpQuery cfg.ndebug cfg.secret mem req resp = .ok (.sends packet expected)) :
    ∃ c ∈ showTypes, Headed cfg c packet ∧ expected = c.code + 1 := by
  obtain ⟨packet', hsent, hheaded⟩ := mcpQuery_headed cfg mem req resp
  rw [hsent] at h
  cases h
  exact ⟨req, hreq, hheaded, by rw [hresp]; rfl⟩

/-- **What `show` sends.** -/
theorem mcpShow_inv
    (h : mcpShow cfg.ndebug cfg.secret mem cmdline = .ok (.sends packet expected)) :
    ∃ c ∈ showTypes, Headed cfg c packet ∧ expected = c.code + 1 := by
  rcases cmdline with _ | ⟨first, _ | ⟨word, rest⟩⟩
  · cases h
  · cases h
  unfold mcpShow at h
  obtain ⟨word', -, h⟩ := bind_eq_ok.mp h
  split_ifs at h
  · cases h
  · cases h
  · exact mcpQuery_inv (by decide) rfl h
  · exact mcpQuery_inv (by decide) rfl h
  · exact mcpQuery_inv (by decide) rfl h
  · rcases rest with _ | ⟨which, rest⟩
    · exact mcpQuery_inv (by decide) rfl h
    · obtain ⟨which', -, h⟩ := bind_eq_ok.mp h
      split_ifs at h
      · exact mcpQuery_inv (by decide) rfl h
      · exact mcpQuery_inv (by decide) rfl h
      · cases h
  · exact mcpQuery_inv (by decide) rfl h
  · exact mcpQuery_inv (by decide) rfl h
  · exact mcpQuery_inv (by decide) rfl h
  · exact mcpQuery_inv (by decide) rfl h
  · cases h

/-- A packet for client addresses. -/
theorem iplistSend_headed {cmd : ℤ} {mask : ℕ} {ip : List UInt8} (hip : ip.length = 16)
    (hcmd : 0 ≤ cmd ∧ cmd < Ift.none)
    (h : iplistSend cfg.ndebug cfg.secret cmd.toNat mask ip = .ok packet) :
    McpRequest cfg packet .mcpIplist := by
  have hmcp := iplistSend_fromMcp hip hcmd h
  have hrest : (htons cmd.toNat ++ (htons 4 ++ (htons mask ++ ip))).length ≤ 1490 := by
    simp [hip]
  obtain ⟨hsign, hheaded⟩ := @headed_signed cfg _ hrest .mcpIplist
  rw [iplistSend, iplistBody] at h
  simp only [List.append_assoc] at h
  rw [hsign] at h
  cases h
  exact .iplist hheaded hmcp

theorem mcpIplist_sends
    (h : mcpIplist cgi cfg.ndebug cfg.secret cmdline = .ok (some packet)) :
    McpRequest cfg packet .mcpIplist := by
  obtain ⟨_, _, _, _, _, ip, _, _, mask, _, -, -, -, hcmd, hoctets, -, hsend⟩ := mcpIplist_inv h
  exact iplistSend_headed (mcpOctets_inv hoctets).1 ((ciMapInt_cIft _).resolve_left hcmd) hsend

theorem mcpIplistCommand_inv {ndebug : Bool} {secret : List UInt8}
    (h : mcpIplistCommand cgi ndebug secret cmdline = .ok (.sends packet expected)) :
    mcpIplist cgi ndebug secret cmdline = .ok (some packet) ∧
      expected = Cmd.mcpIplistResp.code := by
  rcases cmdline with _ | ⟨first, _ | ⟨word, _ | ⟨fname, rest⟩⟩⟩
  · cases h
  · cases h
  · cases h
  unfold mcpIplistCommand at h
  obtain ⟨word', -, h⟩ := bind_eq_ok.mp h
  by_cases hfile : strcmp word' (ascii "file") = .eq
  · -- the files are read line by line
    rw [if_pos hfile] at h
    rcases rest with _ | ⟨kind, _ | ⟨more, rest⟩⟩
    · cases h
    · obtain ⟨kind', -, h⟩ := bind_eq_ok.mp h
      split_ifs at h <;> cases h
    · cases h
  · rw [if_neg hfile] at h
    obtain ⟨sent, hsent, h⟩ := bind_eq_ok.mp h
    cases sent with
    | none => cases h
    | some packet' =>
        cases h
        exact ⟨hsent, rfl⟩

/-- **What the four commands for the address lists have read**, if they send a packet. -/
theorem mcpTofrom_inv {ndebug : Bool} {secret : List UInt8} {cmd resp : Cmd} {domain : Bool}
    (h : mcpTofrom cgi ndebug secret mem cmd resp domain cmdline =
      .ok (.sends packet expected)) :
    ∃ first word address word' address' ift, cmdline = [first, word, address] ∧
      cstring word = .ok word' ∧ cstring address = .ok address' ∧
      ¬ (domain = true ∧ (strchr address' 64).isSome) ∧
      ift = ciMapInt (cgi.upString (cgi.upString word')) cIft ∧ ift ≠ -1 ∧
      signPacket ndebug secret (htonl 0 ++
        tofromBody cmd ift.toNat mem (address'.take 200)) = .ok packet ∧
      expected = resp.code := by
  rcases cmdline with _ | ⟨first, _ | ⟨word, _ | ⟨address, _ | ⟨more, rest⟩⟩⟩⟩
  · cases h
  · cases h
  · cases h
  · rw [mcpTofrom] at h
    obtain ⟨address', haddress, h⟩ := bind_eq_ok.mp h
    obtain ⟨word', hword, h⟩ := bind_eq_ok.mp h
    dsimp only at h
    split_ifs at h with hdomain hbad
    · cases h
    · cases h
    · obtain ⟨packet', hsend, h⟩ := bind_eq_ok.mp h
      cases h
      rw [take_min_length] at hsend
      exact ⟨first, word, address, word', address', _, rfl, hword, haddress, hdomain, rfl, hbad,
        hsend, rfl⟩
  · cases h

/-- A packet for an address list. -/
theorem tofromBody_headed {cmd : Cmd} {ift : ℕ} {address : List UInt8}
    (hlen : address.length ≤ 200)
    (h : signPacket cfg.ndebug cfg.secret (htonl 0 ++ tofromBody cmd ift mem address) =
      .ok packet) :
    Headed cfg cmd packet ∧ ∃ crc, packet = htonl crc ++ tofromBody cmd ift mem address := by
  have hshort : ∀ tail : List UInt8, (htons ift ++ ((mem.drop 12).take 2 ++
      (address ++ 0 :: (tail.take 1)))).length ≤ 1490 := by
    intro tail
    simp only [List.length_append, List.length_cons, List.length_take, length_htons]
    omega
  obtain ⟨hsign, hheaded⟩ := @headed_signed cfg _ (hshort _) cmd
  rw [tofromBody, hsign] at h
  cases h
  exact ⟨hheaded, _, rfl⟩

/-- The address ends inside such a packet. -/
theorem tofromBody_text (hmem : 20 ≤ mem.length) (crc : ℕ) (cmd : Cmd) (ift : ℕ)
    (address : List UInt8) : ∃ front tail, front.length = 14 ∧
      htonl crc ++ tofromBody cmd ift mem address = front ++ (address ++ 0 :: tail) := by
  refine ⟨htonl crc ++ (htons version ++ (htons mtaMcp ++ (htons cmd.code ++
    (htons ift ++ (mem.drop 12).take 2)))), (mem.drop (15 + address.length)).take 1, ?_, ?_⟩
  · simp only [List.length_append, length_htonl, length_htons, List.length_take, List.length_drop]
    omega
  · rw [tofromBody]
    simp only [List.append_assoc]

theorem mcpTofrom_request (hmem : 20 ≤ mem.length) (name : ListName) {resp : Cmd} {domain : Bool}
    (h : mcpTofrom cgi cfg.ndebug cfg.secret mem name.cmd resp domain cmdline =
      .ok (.sends packet expected)) : McpRequest cfg packet name.cmd := by
  obtain ⟨_, _, _, _, address', ift, -, -, -, -, -, -, hsend, -⟩ := mcpTofrom_inv h
  have hlen : (address'.take 200).length ≤ 200 := List.length_take_le ..
  obtain ⟨hheaded, crc, hpacket⟩ := tofromBody_headed hlen hsend
  obtain ⟨front, tail, hfront, htext⟩ :=
    tofromBody_text hmem crc name.cmd ift.toNat (address'.take 200)
  have hend : 0 ∈ packet.drop 14 := by
    rw [hpacket, htext, ← hfront, List.drop_left]
    simp
  exact .tofrom name hheaded hend

theorem mcpTofrom_sends (hmem : 20 ≤ mem.length) (name : ListName) {domain : Bool}
    (h : mcpTofrom cgi cfg.ndebug cfg.secret mem name.cmd name.resp domain cmdline =
      .ok (.sends packet expected)) : SendsRequest cfg packet expected := by
  obtain ⟨_, _, _, _, _, _, -, -, -, -, -, -, -, rfl⟩ := mcpTofrom_inv h
  exact ⟨name.cmd, mcpTofrom_request hmem name h, by cases name <;> rfl⟩

/-- `parse_ip` keeps the size of its buffer. -/
theorem parseIpLoop_length {fuel octetcount : ℕ} {ip text : List UInt8}
    {r : List UInt8 × List UInt8} (h : parseIpLoop fuel ip octetcount text = .ok (some r)) :
    r.1.length = ip.length := by
  induction fuel generalizing ip octetcount text with
  | zero =>
      cases h
      rfl
  | succ fuel ih =>
      obtain ⟨⟨n, text'⟩, -, h⟩ := bind_eq_ok.mp h
      obtain ⟨c, -, h⟩ := bind_eq_ok.mp h
      split_ifs at h
      · cases h
        exact List.length_set
      · cases h
      · rw [ih h, List.length_set]

theorem parseIp_length {ip text : List UInt8} {r : List UInt8 × ℤ}
    (h : parseIp ip text = .ok (some r)) : r.1.length = ip.length := by
  obtain ⟨parsed, hloop, h⟩ := bind_eq_ok.mp h
  cases parsed with
  | none => cases h
  | some r' =>
      obtain ⟨c, -, h⟩ := bind_eq_ok.mp h
      dsimp only at h
      split_ifs at h
      · obtain ⟨⟨n, _⟩, -, h⟩ := bind_eq_ok.mp h
        dsimp only at h
        split_ifs at h
        · cases h
        · cases h
          exact parseIpLoop_length hloop
      · cases h
        exact parseIpLoop_length hloop

/-- The commands of the table. -/
theorem ciMapInt_mTupleCmd (name : List UInt8) (h : ciMapInt name mTupleCmd ≠ -1) :
    ∃ c : Cmd, (c = .greylist ∨ c = .whitelist ∨ c = .tupleRemove) ∧
      ciMapInt name mTupleCmd = c.code := by
  rw [ciMapInt] at h ⊢
  cases hfind : mTupleCmd.find? fun e => decide (strcmp name (ascii e.1) = .eq) with
  | none =>
      rw [hfind] at h
      exact absurd rfl h
  | some e =>
      have hall : ∀ e ∈ mTupleCmd, e.2 = Cmd.greylist.code ∨ e.2 = Cmd.whitelist.code ∨
          e.2 = Cmd.tupleRemove.code := by decide
      rcases hall e (List.mem_of_find?_eq_some hfind) with he | he | he
      · exact ⟨.greylist, Or.inl rfl, he⟩
      · exact ⟨.whitelist, Or.inr (Or.inl rfl), he⟩
      · exact ⟨.tupleRemove, Or.inr (Or.inr rfl), he⟩

/-- A text of a request that is left out, or cut to 200 bytes. -/
theorem tupleText_length (text : List UInt8) {size : ℕ} {data : List UInt8}
    (h : (if strcmp text (ascii "-") ≠ .eq then
      (min text.length 200, text.take (min text.length 200)) else (0, [])) = (size, data)) :
    size = data.length ∧ data.length ≤ 200 := by
  split_ifs at h
  · cases h
    rw [List.length_take]
    omega
  · cases h
    exact ⟨rfl, Nat.zero_le _⟩

/-- A signed request from the control program. -/
theorem tupleRequest_sends {c : Cmd} (hc : c = .greylist ∨ c = .whitelist ∨ c = .tupleRemove)
    {ip sender recipient : List UInt8} (hip : ip.length = 4) (hsender : sender.length ≤ 200)
    (hrecipient : recipient.length ≤ 200)
    (h : signPacket cfg.ndebug cfg.secret (greylistRequest mtaMcp c.code 4 sender.length
      recipient.length (ip ++ sender ++ recipient)) = .ok packet) :
    McpRequest cfg packet c := by
  have hdelivers := delivers_signed cfg mtaMcp c.code hip hsender hrecipient
  have hrest : (htons 4 ++ (htons sender.length ++ (htons recipient.length ++
      (ip ++ sender ++ recipient)))).length ≤ 1490 := by
    simp only [List.length_append, length_htons]
    omega
  obtain ⟨hsign, hheaded⟩ := @headed_signed cfg _ hrest c
  rw [signPacket_request cfg.secret_ne _ _ _ _ _ (by simp; omega)] at h
  simp only [requestBody, List.append_assoc] at h hdelivers hheaded
  cases h
  refine .tuple c hc hheaded fun d hd buf => ?_
  obtain ⟨crc, r, t, -, -, hsane, -⟩ := hdelivers buf d.now d.clock d.canReport
  by_contra hacc
  rw [show (⟨_, d.now, d.clock, d.canReport⟩ : Datagram) = d by rw [← hd],
    greylistSanitizeReq_of_not_accepts cfg hacc] at hsane
  cases hsane

/-- **What `tuple` sends.** -/
theorem mcpTuple_inv (hmem : 20 ≤ mem.length)
    (h : mcpTupleCommand cgi cfg.ndebug cfg.secret mem cmdline =
      .ok (.sends packet expected)) :
    ∃ c, (c = .greylist ∨ c = .whitelist ∨ c = .tupleRemove) ∧ McpRequest cfg packet c ∧
      expected = c.code + 1 := by
  rcases cmdline with _ | ⟨first, _ | ⟨word, rest⟩⟩
  · cases h
  · cases h
  rw [mcpTupleCommand] at h
  obtain ⟨sent, hsent, h⟩ := bind_eq_ok.mp h
  cases sent with
  | none => cases h
  | some packet' =>
  obtain ⟨name, hname, h⟩ := bind_eq_ok.mp h
  cases h
  rcases rest with _ | ⟨ip, _ | ⟨sender, _ | ⟨recipient, _ | ⟨more, rest⟩⟩⟩⟩
  · cases hsent
  · cases hsent
  · cases hsent
  · rw [mcpTuple, hname, ok_bind] at hsent
    dsimp only at hsent
    by_cases hbad : ciMapInt (cgi.upString name) mTupleCmd = -1
    · rw [if_pos hbad] at hsent
      cases hsent
    rw [if_neg hbad] at hsent
    obtain ⟨c, hc, hcode⟩ := ciMapInt_mTupleCmd _ hbad
    obtain ⟨sender', -, hsent⟩ := bind_eq_ok.mp hsent
    obtain ⟨recipient', -, hsent⟩ := bind_eq_ok.mp hsent
    obtain ⟨parsed, hparsed, hsent⟩ := bind_eq_ok.mp hsent
    cases parsed with
    | none => cases hsent
    | some r =>
    obtain ⟨ip', mask⟩ := r
    dsimp only at hsent
    by_cases hmask : mask ≠ 32
    · rw [if_pos hmask] at hsent
      cases hsent
    rw [if_neg hmask, hcode, Int.toNat_natCast] at hsent
    have hip : ip'.length = 4 := by
      rw [parseIp_length hparsed, List.length_take, List.length_drop]
      omega
    generalize hfrom : (if strcmp sender' (ascii "-") ≠ .eq then
      (min sender'.length 200, sender'.take (min sender'.length 200)) else (0, [])) = f at hsent
    generalize hto : (if strcmp recipient' (ascii "-") ≠ .eq then
      (min recipient'.length 200, recipient'.take (min recipient'.length 200))
        else (0, [])) = t at hsent
    obtain ⟨fromsize, fromData⟩ := f
    obtain ⟨tosize, toData⟩ := t
    obtain ⟨hfromsize, hfromlen⟩ := tupleText_length sender' hfrom
    obtain ⟨htosize, htolen⟩ := tupleText_length recipient' hto
    obtain ⟨packet'', hsign, hsent⟩ := bind_eq_ok.mp hsent
    cases hsent
    rw [hfromsize, htosize] at hsign
    exact ⟨c, hc, tupleRequest_sends hc hip hfromlen htolen hsign, by rw [hcode]⟩
  · cases hsent

/-- **What is sent** for a command line. -/
theorem processCmdline_sends (hmem : 20 ≤ mem.length)
    (h : processCmdline cgi cfg.ndebug cfg.secret mem cmdline = .ok (.sends packet expected)) :
    SendsRequest cfg packet expected := by
  rcases cmdline with _ | ⟨first, rest⟩
  · obtain ⟨_, -, h⟩ := bind_eq_ok.mp h
    cases h
  unfold processCmdline at h
  obtain ⟨word, -, h⟩ := bind_eq_ok.mp h
  split_ifs at h
  · obtain ⟨c, hc, hheaded, hexpected⟩ := mcpShow_inv h
    exact ⟨c, .query c hc hheaded, hexpected⟩
  · obtain ⟨hsent, rfl⟩ := mcpIplistCommand_inv h
    exact ⟨.mcpIplist, mcpIplist_sends hsent, rfl⟩
  · exact mcpTofrom_sends hmem .toL h
  · exact mcpTofrom_sends hmem .todL h
  · exact mcpTofrom_sends hmem .fromL h
  · exact mcpTofrom_sends hmem .fromdL h
  · obtain ⟨c, -, hc, hexpected⟩ := mcpTuple_inv hmem h
    exact ⟨c, hc, hexpected⟩
  · cases h
  · cases h
  · cases h

/-- The lines of all kinds of files are read by one scheme. -/
theorem kindLine_eq (cgi : CgiLib) (ndebug : Bool) (secret : List UInt8) (kind : IplistKind) :
    kind.line cgi ndebug secret = mcpFileLine cgi ndebug secret (kind.rest cgi) := by
  cases kind <;> rfl

/-- **What is sent** for a line of a file. -/
theorem kindLine_sends {kind : IplistKind} {line : List UInt8}
    (h : kind.line cgi cfg.ndebug cfg.secret line = .ok (some packet)) :
    SendsRequest cfg packet Cmd.mcpIplistResp.code := by
  rw [kindLine_eq] at h
  obtain ⟨-, -, ip, octet, p, mask, cmd, hoctets, hrest, hsend⟩ := mcpFileLine_inv h
  exact ⟨.mcpIplist, iplistSend_headed (mcpOctets_inv hoctets).1 (IplistKind.rest_cmd hrest) hsend,
    rfl⟩

end Sent

end XGrey
