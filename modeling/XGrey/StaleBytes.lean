import XGrey.StaleBuffer

/-!
# What an Earlier Packet Changes

For a datagram that is not contained there are two buffers and a state of the server that
tell what stands behind it: a reply shows a byte of the field `MTA`, the type is one that
is not known, a text has no end, an address is not of four bytes, or a prefix is another
one. The prefix shows in the number of rules, after a request that has given a rule to one
of two prefixes and not to the other.

## Main results

* `not_related_mta`, `not_related_type`, `not_related_tofrom`, `not_related_ipsize`: the
  buffers in which the server does not do the same right after its start.
* `not_determined_mask`, `not_determined_octets`: those for a prefix.
* `determined_iff`: nothing but the datagram counts exactly if it is contained.
-/

open CRuntime PrefixMap StepRun

namespace XGrey

/-! ### What the buffer shows of an earlier packet -/

section Stale

variable {cfg : Config} {srv : Server} {buf buf' : List UInt8} {d : Datagram}

/-- A buffer that nothing was received into. -/
def blank : List UInt8 := List.replicate 1500 0

@[simp] theorem length_blank : blank.length = 1500 := List.length_replicate

@[simp] theorem getD_blank (i : ℕ) : blank.getD i 0 = 0 := by
  rw [blank, List.getD_eq_getElem?_getD, List.getElem?_replicate]
  split_ifs <;> rfl

theorem getD_blank_set {i j : ℕ} (hi : i < 1500) (b : UInt8) :
    (blank.set i b).getD j 0 = if i = j then b else 0 := by
  by_cases hij : i = j
  · subst hij
    rw [if_pos rfl, List.getD_eq_getElem?_getD, List.getElem?_set_self (by simpa using hi)]
    rfl
  · rw [if_neg hij, getD_set_ne _ hij, getD_blank]

/-- A byte behind the datagram. -/
theorem getD_stale (buf : List UInt8) (h : d.data.length ≤ 1500) {i : ℕ}
    (hi : d.data.length ≤ i) : (d.request buf).packet.getD i 0 = buf.getD i 0 := by
  rw [packet_request buf h, List.getD_eq_getElem?_getD, List.getElem?_append_right hi,
    List.getElem?_drop, Nat.add_sub_cancel' hi, List.getD_eq_getElem?_getD]

theorem getD_swapped_stale (buf : List UInt8) (h : d.data.length ≤ 1500) {i : ℕ}
    (hi : 10 ≤ i) (hi' : d.data.length ≤ i) :
    ((d.request buf).swapField 8).packet.getD i 0 = buf.getD i 0 := by
  change (XGrey.swapField (d.request buf).packet 8).getD i 0 = _
  rw [XGrey.swapField, getD_set_ne _ (by omega), getD_set_ne _ (by omega),
    getD_stale buf h hi']

/-- The second byte of the field `MTA` that a reply repeats. -/
theorem getD_mta (req : Request) : (req.bytes 6 2).getD 1 0 = req.packet.getD 7 0 := by
  rw [Request.bytes, List.getD_eq_getElem?_getD, List.getElem?_take_of_lt (by omega),
    List.getElem?_drop, List.getD_eq_getElem?_getD]

/-- Two replies that are the same. -/
theorem reply_inj {req req' : Request} {type type' : Cmd} {response response' : ℤ}
    {why why' : Reason}
    (h : [req.reply type response why] = [req'.reply type' response' why']) :
    req.bytes 6 2 = req'.bytes 6 2 ∧ type = type' ∧ response = response' := by
  have hreply := Output.reply.inj (List.cons.inj h).1
  exact ⟨congrArg Reply.mta hreply, congrArg Reply.type hreply, congrArg Reply.response hreply⟩

/-- Where the type is `CMD_NONE`, everything ends in a reply with an error. -/
theorem gldRecv_type_zero (srv : Server) (h : d.data.length ≤ 1500) (hlen : 5 ≤ d.data.length)
    (hver : Verified cfg d.data) (htype : ntohs (d.request buf).packet 8 = 0) :
    ∃ packet, gldRecv cfg srv buf d = .ok ([(d.request buf).reply .noneResp
      (if version < ntohs (d.request buf).packet 4 then Glerr.versionNotSupported.code
        else Glerr.okay.code) .none], srv, packet) := by
  by_cases hversion : version < ntohs (d.request buf).packet 4
  · rw [gldRecv_of_version cfg srv buf h hlen hver hversion, sendReply_eq _ _ (by decide),
      ok_bind, if_pos hversion]
    exact ⟨_, rfl⟩
  · rw [gldRecv_of_verified cfg srv buf h hlen hver (by omega), htype, if_neg hversion]
    have hnone : Cmd.ofCode 0 = some .none := rfl
    rw [hnone, dispatch, sendReply_eq _ _ (by decide), ok_bind, reply_swapField _ (le_refl 8)]
    exact ⟨_, rfl⟩

/-- Where the type is none, too. -/
theorem gldRecv_type_none (srv : Server) (h : d.data.length ≤ 1500) (hlen : 5 ≤ d.data.length)
    (hver : Verified cfg d.data) (hversion : ntohs (d.request buf).packet 4 ≤ version)
    (htype : 38 ≤ ntohs (d.request buf).packet 8) :
    ∃ packet, gldRecv cfg srv buf d = .ok ([(d.request buf).reply .noneResp
      Glerr.typeNotSupported.code .none], srv, packet) := by
  rw [gldRecv_of_verified cfg srv buf h hlen hver hversion, Cmd.ofCode_of_le htype,
    dispatch_none, reply_swapField _ (le_refl 8)]
  exact ⟨_, rfl⟩

/-- **Shorter than the field `MTA`**: the reply shows a byte of the buffer. -/
theorem not_related_mta (h : d.data.length ≤ 1500) (hlen : 5 ≤ d.data.length)
    (hver : Verified cfg d.data) (hshort : d.data.length < 8) :
    ¬ Related SameRound (gldRecv cfg srv blank d) (gldRecv cfg srv (blank.set 7 1) d) := by
  intro hrel
  have hstale : ∀ buf i, d.data.length ≤ i →
      (d.request buf).packet.getD i 0 = buf.getD i 0 := fun buf i => getD_stale buf h
  have htype : ∀ buf : List UInt8, buf.getD 8 0 = 0 → buf.getD 9 0 = 0 →
      ntohs (d.request buf).packet 8 = 0 := by
    intro buf h8 h9
    rw [ntohs, hstale buf 8 (by omega), hstale buf 9 (by omega), h8, h9]
    rfl
  obtain ⟨p, hp⟩ := gldRecv_type_zero srv h hlen hver (htype blank rfl rfl)
  obtain ⟨p', hp'⟩ := gldRecv_type_zero srv h hlen hver (htype (blank.set 7 1) rfl rfl)
  rw [hp, hp', related_ok_iff] at hrel
  have hmta : ((d.request blank).bytes 6 2).getD 1 0 =
      ((d.request (blank.set 7 1)).bytes 6 2).getD 1 0 := by
    rw [(reply_inj hrel.1).1]
  rw [getD_mta, getD_mta, hstale blank 7 (by omega), hstale (blank.set 7 1) 7 (by omega),
    getD_blank, getD_blank_set (by omega), if_pos rfl] at hmta
  exact absurd hmta (by decide)

/-- **Shorter than the type**, unless its upper byte already shows that it is none. -/
theorem not_related_type (h : d.data.length ≤ 1500) (hlen : 8 ≤ d.data.length)
    (hver : Verified cfg d.data) (hversion : ntohs d.data 4 ≤ version)
    (hshort : d.data.length < 10) (hbyte : 9 ≤ d.data.length → d.data.getD 8 0 = 0) :
    ¬ Related SameRound (gldRecv cfg srv blank d)
      (gldRecv cfg srv (List.replicate 1500 255) d) := by
  intro hrel
  have hv : ∀ buf, ntohs (d.request buf).packet 4 ≤ version := by
    intro buf
    rw [ntohs_packet_request buf h (by omega)]
    exact hversion
  have hlow : ∀ buf : List UInt8, (d.request buf).packet.getD 9 0 = buf.getD 9 0 :=
    fun buf => getD_stale buf h (by omega)
  have hblank : ntohs (d.request blank).packet 8 = 0 := by
    have hhigh : (d.request blank).packet.getD 8 0 = 0 := by
      by_cases hnine : 9 ≤ d.data.length
      · rw [packet_request blank h, getD_append_left hnine, hbyte hnine]
      · rw [getD_stale blank h (by omega), getD_blank]
    rw [ntohs, hhigh, hlow, getD_blank]
    rfl
  have hfull : 38 ≤ ntohs (d.request (List.replicate 1500 255)).packet 8 := by
    have hbyte : (List.replicate 1500 (255 : UInt8)).getD 9 0 = 255 := by
      rw [List.getD_eq_getElem?_getD, List.getElem?_replicate_of_lt (by omega)]
      rfl
    rw [ntohs, hlow, hbyte]
    exact Nat.le_add_left_of_le (by decide)
  obtain ⟨p, hp⟩ := gldRecv_type_zero srv h (by omega) hver hblank
  obtain ⟨p', hp'⟩ := gldRecv_type_none srv h (by omega) hver (hv _) hfull
  rw [hp, hp', related_ok_iff, if_neg (by have := hv blank; omega)] at hrel
  exact absurd (reply_inj hrel.1).2.2 (by decide)

/-- A datagram of a known type is handled by its branch. -/
theorem gldRecv_type (srv : Server) (buf : List UInt8) (h : d.data.length ≤ 1500)
    (hlen : 10 ≤ d.data.length) (hver : Verified cfg d.data)
    (hversion : ntohs d.data 4 ≤ version) :
    gldRecv cfg srv buf d = (do
      let (out, srv, req) ← dispatch cfg srv ((d.request buf).swapField 8) d.canReport
        (Cmd.ofCode (ntohs d.data 8))
      .ok (out, srv, req.packet)) := by
  have hv : ntohs (d.request buf).packet 4 ≤ version := by
    rw [ntohs_packet_request buf h (by omega)]
    exact hversion
  rw [gldRecv_of_verified cfg srv buf h (by omega) hver hv, ntohs_packet_request buf h hlen]

/-- A rule that is added to an empty list. -/
theorem mcpTofromList_init (ndebug : Bool) (text : List UInt8) (cmd : ℤ) :
    ∃ l, mcpTofromList ndebug AddrList.init text cmd = .ok l := by
  have hsearch : edomainSearch text AddrList.init.entries = (none, 0) := edomainSearch_nil text
  rw [mcpTofromList]
  by_cases hdefault : text = ascii "default" ∨ text = ascii "DEFAULT"
  · rw [if_pos hdefault]
    exact ⟨_, rfl⟩
  · rw [if_neg hdefault, hsearch]
    dsimp only
    by_cases hremove : cmd ≠ Ift.remove
    · have hroom : AddrList.init.entries.length ≤ AddrList.init.smax := Nat.le_refl 0
      rw [if_pos hremove, edomainAdd_eq hroom _ (Nat.zero_le _)]
      exact ⟨_, rfl⟩
    · rw [if_neg hremove]
      exact ⟨_, rfl⟩

/-- **A text without its terminator** goes on in the buffer, and there may be none in it. -/
theorem not_related_tofrom (h : d.data.length ≤ 1500) (hlen : 10 ≤ d.data.length)
    (hver : Verified cfg d.data) (hversion : ntohs d.data 4 ≤ version) (name : ListName)
    (htype : Cmd.ofCode (ntohs d.data 8) = some name.cmd)
    (hcont : ¬ TofromContained d.data) (hinit : srv.list name = AddrList.init) :
    ¬ Related SameRound (gldRecv cfg srv blank d)
      (gldRecv cfg srv (List.replicate 1500 97) d) := by
  obtain ⟨hmem, hall⟩ := not_or.mp hcont
  -- the text of a packet consists of what was received and what the buffer has behind it
  have hdrop : ∀ buf : List UInt8, ((d.request buf).swapField 8).packet.drop 14 =
      d.data.drop 14 ++ buf.drop (max d.data.length 14) := by
    intro buf
    rw [Request.swapField, drop_swapField _ (by omega), packet_request buf h,
      List.drop_append, List.drop_drop]
    congr 2
    omega
  have hok : ∃ r, gldRecv cfg srv blank d = .ok r := by
    have hzero : 0 ∈ ((d.request blank).swapField 8).packet.drop 14 := by
      rw [hdrop, blank, List.drop_replicate]
      exact List.mem_append_right _ (List.mem_replicate.mpr ⟨by omega, rfl⟩)
    obtain ⟨l, hl⟩ := mcpTofromList_init cfg.ndebug
      ((((d.request blank).swapField 8).packet.drop 14).takeWhile (· ≠ 0))
      (ntohs ((d.request blank).swapField 8).packet 10)
    rw [gldRecv_type srv blank h hlen hver hversion, htype, dispatch_listName,
      cmdMcpTofrom_eq, cstring_eq hzero, ok_bind, hinit, hl, ok_bind,
      sendReply_eq _ _ (le_refl 0)]
    exact ⟨_, rfl⟩
  have herror : gldRecv cfg srv (List.replicate 1500 97) d = .error .memory := by
    have hnone : 0 ∉ ((d.request (List.replicate 1500 97)).swapField 8).packet.drop 14 := by
      rw [hdrop, List.drop_replicate, List.mem_append, not_or]
      refine ⟨hmem, fun hzero => ?_⟩
      exact absurd (List.mem_replicate.mp hzero).2 (by decide)
    rw [gldRecv_type srv _ h hlen hver hversion, htype, dispatch_listName, cmdMcpTofrom_eq,
      cstring, if_neg hnone]
    rfl
  obtain ⟨r, hr⟩ := hok
  rw [hr, herror]
  exact not_related_ok_error

/-! ### Packets for client addresses -/

/-- What the branch for client addresses does with an address of the right size. -/
theorem gldRecv_iplist_of (srv : Server) (buf : List UInt8) (h : d.data.length ≤ 1500)
    (hlen : 10 ≤ d.data.length) (hver : Verified cfg d.data)
    (hversion : ntohs d.data 4 ≤ version)
    (htype : Cmd.ofCode (ntohs d.data 8) = some .mcpIplist)
    (hip : ntohs ((d.request buf).swapField 8).packet 12 = 4) :
    gldRecv cfg srv buf d = (do
      let iplist ← ipAddSm cfg.ndebug srv.iplist
        (((d.request buf).swapField 8).packet.drop 16)
        (ntohs ((d.request buf).swapField 8).packet 14)
        (ntohs ((d.request buf).swapField 8).packet 10)
      .ok ([(d.request buf).reply .mcpIplistResp 0 .none], { srv with iplist := iplist },
        ((d.request buf).swapField 8).packet)) := by
  rw [gldRecv_type srv buf h hlen hver hversion, htype, dispatch, cmdMcpIplist,
    if_neg (not_not.mpr hip), sendReply_eq _ _ (le_refl 0), reply_swapField _ (le_refl 8),
    bind_assoc]
  rfl

/-- And with one of another size. -/
theorem gldRecv_iplist_of_ne (srv : Server) (buf : List UInt8) (h : d.data.length ≤ 1500)
    (hlen : 10 ≤ d.data.length) (hver : Verified cfg d.data)
    (hversion : ntohs d.data 4 ≤ version)
    (htype : Cmd.ofCode (ntohs d.data 8) = some .mcpIplist)
    (hip : ntohs ((d.request buf).swapField 8).packet 12 ≠ 4) :
    ∃ packet, gldRecv cfg srv buf d = .ok ([(d.request buf).reply .noneResp
      Glerr.ipaddrNotSupported.code .none], srv, packet) := by
  rw [gldRecv_type srv buf h hlen hver hversion, htype, dispatch, cmdMcpIplist, if_pos hip,
    sendReply_eq _ _ (by decide), reply_swapField _ (le_refl 8)]
  exact ⟨_, rfl⟩

/-- **Shorter than the size of the address**: the buffer decides whether it is right. -/
theorem not_related_ipsize (h : d.data.length ≤ 1500) (hlen : 10 ≤ d.data.length)
    (hver : Verified cfg d.data) (hversion : ntohs d.data 4 ≤ version)
    (htype : Cmd.ofCode (ntohs d.data 8) = some .mcpIplist) (hshort : d.data.length < 14)
    (hbyte : 13 ≤ d.data.length → d.data.getD 12 0 = 0)
    (hnil : srv.iplist.tree.isNil = false) :
    ¬ Related SameRound (gldRecv cfg srv blank d) (gldRecv cfg srv (blank.set 13 4) d) := by
  intro hrel
  have hhigh : ∀ buf : List UInt8, buf.getD 12 0 = 0 →
      ((d.request buf).swapField 8).packet.getD 12 0 = 0 := by
    intro buf hbuf
    by_cases hthirteen : 13 ≤ d.data.length
    · rw [getD_swapped buf h (by omega) (by omega), hbyte hthirteen]
    · rw [getD_swapped_stale buf h (by omega) (by omega), hbuf]
  have hip : ∀ buf : List UInt8, buf.getD 12 0 = 0 →
      ntohs ((d.request buf).swapField 8).packet 12 = (buf.getD 13 0).toNat := by
    intro buf hbuf
    rw [ntohs, hhigh buf hbuf, getD_swapped_stale buf h (by omega) (by omega)]
    exact Nat.zero_add _
  have hmask : ntohs ((d.request (blank.set 13 4)).swapField 8).packet 14 = 0 := by
    rw [ntohs, getD_swapped_stale _ h (by omega) (by omega),
      getD_swapped_stale _ h (by omega) (by omega), getD_blank_set (by omega),
      getD_blank_set (by omega)]
    rfl
  obtain ⟨p, hp⟩ := gldRecv_iplist_of_ne srv blank h hlen hver hversion htype
    (by rw [hip blank (getD_blank 12), getD_blank]; decide)
  have hp' := gldRecv_iplist_of srv (blank.set 13 4) h hlen hver hversion htype
    (by rw [hip _ (by rw [getD_blank_set (by omega)]; rfl), getD_blank_set (by omega)]; rfl)
  obtain ⟨l', hadd⟩ : ∃ l', ipAddSm cfg.ndebug srv.iplist
      (((d.request (blank.set 13 4)).swapField 8).packet.drop 16)
      (0 : ℕ) (ntohs ((d.request (blank.set 13 4)).swapField 8).packet 10) = .ok l' := by
    rw [ipAddSm, cassert_of (by decide), ok_bind, cassert_of (by decide), ok_bind,
      if_pos Nat.cast_zero]
    cases htree : srv.iplist.tree with
    | nil =>
        rw [htree] at hnil
        cases hnil
    | node n zero one => exact ⟨_, rfl⟩
  rw [hmask, hadd, ok_bind] at hp'
  rw [hp, hp', related_ok_iff] at hrel
  exact absurd (reply_inj hrel.1).2.1 (by decide)

/-- The masks that a walk survives. -/
theorem maskLimit_spec {ndebug : Bool} {mask : ℕ} (h : mask ≤ maskLimit ndebug) :
    (ndebug = true ∨ (mask : ℤ) < 33) ∧ (mask : ℤ) ≤ 8 * (1500 - 16 : ℕ) := by
  cases ndebug with
  | false =>
      rw [maskLimit, if_neg Bool.false_ne_true] at h
      exact ⟨Or.inr (by omega), by omega⟩
  | true =>
      rw [maskLimit, if_pos rfl] at h
      exact ⟨Or.inl rfl, by omega⟩

/-- The same walk in two buffers ends at two prefixes, and one of them has a rule: the
number of rules shows which. -/
theorem not_related_prefix (h : d.data.length ≤ 1500) (hlen : 10 ≤ d.data.length)
    (hver : Verified cfg d.data) (hversion : ntohs d.data 4 ≤ version)
    (htype : Cmd.ofCode (ntohs d.data 8) = some .mcpIplist) {r r' : Request}
    (hr : r = (d.request buf).swapField 8) (hr' : r' = (d.request buf').swapField 8)
    (hbuf : buf.length = 1500) (hbuf' : buf'.length = 1500)
    (hip : ntohs r.packet 12 = 4) (hip' : ntohs r'.packet 12 = 4)
    (hcmd : ntohs r.packet 10 = ntohs r'.packet 10) (hpos : 0 < ntohs r.packet 14)
    (hpos' : 0 < ntohs r'.packet 14) (hlimit : ntohs r.packet 14 ≤ maskLimit cfg.ndebug)
    (hlimit' : ntohs r'.packet 14 ≤ maskLimit cfg.ndebug)
    (hnil : srv.iplist.tree.isNil = false)
    (hrule : (ipRules srv.iplist.tree
      (prefixBits (r.packet.drop 16) (ntohs r.packet 14))).isSome = true)
    (hnone : (ipRules srv.iplist.tree
      (prefixBits (r'.packet.drop 16) (ntohs r'.packet 14))).isSome = false) :
    ¬ Related SameRound (gldRecv cfg srv buf d) (gldRecv cfg srv buf' d) := by
  intro hrel
  subst hr
  subst hr'
  have hdrop : ∀ buf : List UInt8, buf.length = 1500 →
      (((d.request buf).swapField 8).packet.drop 16).length = 1500 - 16 := by
    intro buf hbuf
    rw [List.length_drop, ((shares_request h hbuf hbuf).swapField hlen).length]
  have hadd : ∀ buf : List UInt8, buf.length = 1500 →
      ntohs ((d.request buf).swapField 8).packet 14 ≤ maskLimit cfg.ndebug →
      ∃ l, ipAddSm cfg.ndebug srv.iplist (((d.request buf).swapField 8).packet.drop 16)
          (ntohs ((d.request buf).swapField 8).packet 14)
          (ntohs ((d.request buf).swapField 8).packet 10) = .ok l ∧
        l.ipcnt = srv.iplist.ipcnt + addedCount (ipRules srv.iplist.tree)
          (((d.request buf).swapField 8).packet.drop 16)
          (ntohs ((d.request buf).swapField 8).packet 14)
          (ntohs ((d.request buf).swapField 8).packet 10) := by
    intro buf hbuf hmask
    obtain ⟨hcheck, hle⟩ := maskLimit_spec hmask
    obtain ⟨l, hl, -, -, -, hcnt⟩ := ipAddSm_spec hnil (Int.natCast_nonneg _) hcheck
      (by rw [hdrop buf hbuf]; exact hle)
      (ntohs ((d.request buf).swapField 8).packet 10)
    exact ⟨l, hl, hcnt⟩
  obtain ⟨l, hl, hcnt⟩ := hadd buf hbuf hlimit
  obtain ⟨l', hl', hcnt'⟩ := hadd buf' hbuf' hlimit'
  rw [gldRecv_iplist_of srv buf h hlen hver hversion htype hip,
    gldRecv_iplist_of srv buf' h hlen hver hversion htype hip', hl, hl', ok_bind, ok_bind,
    related_ok_iff] at hrel
  have heq : l.ipcnt = l'.ipcnt :=
    congrArg (fun srv : Server => srv.iplist.ipcnt) hrel.2.rest
  rw [hcnt, hcnt', ← hcmd, addedCount, addedCount, if_neg (by omega), if_neg (by omega),
    Int.toNat_natCast, Int.toNat_natCast, hrule, hnone, Bool.toNat_true,
    Bool.toNat_false] at heq
  omega

end Stale

/-- A request to accept the addresses with a prefix. -/
def ruleRequest (mask : ℕ) (ip : List UInt8) : Request where
  packet := List.replicate 10 0 ++ (htons 1 ++ (htons 4 ++ (htons mask ++ ip)))
  size := (List.replicate 10 0 ++ (htons 1 ++ (htons 4 ++ (htons mask ++ ip)))).length
  now := 0
  clock := 0
  size_le := Nat.le_refl _

/-- The state after it: the server greylists all other addresses. -/
theorem run_ruleRequest (cgi : CgiLib) (cfg : Config) {mask : ℕ} {ip : List UInt8}
    (hpos : 0 < mask) (hmask : mask ≤ maskLimit cfg.ndebug) (hlen : ip.length = 1500 - 16) :
    ∃ srv outs, run (actionStep cgi cfg) (Server.init cfg 0)
        [.request (ruleRequest mask ip) true (some .mcpIplist)] = .ok (srv, outs) ∧
      srv.iplist.tree.isNil = false ∧
      ∀ q, (ipRules srv.iplist.tree q).isSome = true ↔ q = prefixBits ip mask ∨ q = [] := by
  obtain ⟨hcheck, hle⟩ := maskLimit_spec hmask
  have hlt : mask < 65536 := by omega
  have hpacket : (ruleRequest mask ip).packet =
      List.replicate 10 0 ++ (htons 1 ++ (htons 4 ++ (htons mask ++ ip))) := rfl
  have hcmd : ntohs (ruleRequest mask ip).packet 10 = 1 :=
    ntohs_field (List.replicate 10 0) rfl (by omega) _
  have hip : ntohs (ruleRequest mask ip).packet 12 = 4 := by
    rw [hpacket, ← List.append_assoc]
    exact ntohs_field (List.replicate 10 0 ++ htons 1) rfl (by omega) _
  have hfield : ntohs (ruleRequest mask ip).packet 14 = mask := by
    rw [hpacket, ← List.append_assoc, ← List.append_assoc]
    exact ntohs_field (List.replicate 10 0 ++ htons 1 ++ htons 4) rfl hlt ip
  have hdrop : (ruleRequest mask ip).packet.drop 16 = ip := rfl
  obtain ⟨l, hl, hnil, -, hrules, -⟩ := @ipAddSm_spec cfg.ndebug IpList.init rfl ip mask
    (Int.natCast_nonneg _) hcheck (by rw [hlen]; exact hle) (1 : ℕ)
  have hstep : actionStep cgi cfg (Server.init cfg 0)
      (.request (ruleRequest mask ip) true (some .mcpIplist)) =
      .ok ({ Server.init cfg 0 with iplist := l },
        [(ruleRequest mask ip).reply .mcpIplistResp 0 .none]) := by
    have hinit : (Server.init cfg 0).iplist = IpList.init := rfl
    rw [actionStep, dispatch, cmdMcpIplist, hip, if_neg (not_not.mpr rfl), hinit, hdrop,
      hfield, hcmd, hl, ok_bind, sendReply_eq _ _ (le_refl 0)]
    rfl
  have hrun : run (actionStep cgi cfg) (Server.init cfg 0)
      [.request (ruleRequest mask ip) true (some .mcpIplist)] =
      .ok ({ Server.init cfg 0 with iplist := l },
        [[(ruleRequest mask ip).reply .mcpIplistResp 0 .none]]) := by
    rw [run_cons_of_ok [] hstep]
    rfl
  refine ⟨_, _, hrun, hnil, fun q => ?_⟩
  change (ipRules l.tree q).isSome = true ↔ _
  rw [hrules (by decide), addRule, if_neg (fun h => by omega), Int.toNat_natCast,
    ipRules_init, initRules, Function.update_apply, Function.update_apply]
  by_cases hq : q = prefixBits ip mask
  · rw [if_pos hq]
    exact iff_of_true rfl (Or.inl hq)
  · rw [if_neg hq]
    by_cases hroot : q = []
    · rw [if_pos hroot]
      exact iff_of_true rfl (Or.inr hroot)
    · rw [if_neg hroot]
      exact iff_of_false Bool.false_ne_true (not_or.mpr ⟨hq, hroot⟩)

section Prefixes

variable {cgi : CgiLib} {cfg : Config} {buf buf' : List UInt8} {d : Datagram}

/-- The state in which the first of two prefixes has a rule tells them apart. -/
theorem not_determined_prefix (h : d.data.length ≤ 1500) (hlen : 14 ≤ d.data.length)
    (hver : Verified cfg d.data) (hversion : ntohs d.data 4 ≤ version)
    (htype : Cmd.ofCode (ntohs d.data 8) = some .mcpIplist)
    (hip : iplistIpsize d.data = 4) {r r' : Request}
    (hr : r = (d.request buf).swapField 8) (hr' : r' = (d.request buf').swapField 8)
    (hbuf : buf.length = 1500) (hbuf' : buf'.length = 1500) (hpos : 0 < ntohs r.packet 14)
    (hpos' : 0 < ntohs r'.packet 14) (hlimit : ntohs r.packet 14 ≤ maskLimit cfg.ndebug)
    (hlimit' : ntohs r'.packet 14 ≤ maskLimit cfg.ndebug)
    (hne : prefixBits (r'.packet.drop 16) (ntohs r'.packet 14) ≠
      prefixBits (r.packet.drop 16) (ntohs r.packet 14)) :
    ∃ srv outs actions, run (actionStep cgi cfg) (Server.init cfg 0) actions =
        .ok (srv, outs) ∧
      ¬ Related SameRound (gldRecv cfg srv buf d) (gldRecv cfg srv buf' d) := by
  have hfield : ∀ buf : List UInt8, ∀ off, 10 ≤ off → off + 2 ≤ 14 →
      ntohs ((d.request buf).swapField 8).packet off = ntohs d.data off :=
    fun buf off hoff hoff' => ntohs_swapped buf h hoff (by omega)
  have hdrop : (r.packet.drop 16).length = 1500 - 16 := by
    rw [hr, List.length_drop, ((shares_request h hbuf hbuf).swapField (by omega)).length]
  obtain ⟨srv, outs, hrun, hnil, hrules⟩ := run_ruleRequest cgi cfg hpos hlimit hdrop
  refine ⟨srv, outs, _, hrun, ?_⟩
  refine not_related_prefix h (by omega) hver hversion htype hr hr' hbuf hbuf' ?_ ?_ ?_ hpos
    hpos' hlimit hlimit' hnil ((hrules _).mpr (Or.inl rfl)) ?_
  · rw [hr, hfield buf 12 (by omega) (by omega)]
    exact hip
  · rw [hr', hfield buf' 12 (by omega) (by omega)]
    exact hip
  · rw [hr, hr', hfield buf 10 (by omega) (by omega), hfield buf' 10 (by omega) (by omega)]
  · rw [← Bool.not_eq_true, hrules]
    rintro (heq | hnil)
    · exact hne heq
    · have hzero := congrArg List.length hnil
      rw [length_prefixBits, List.length_nil] at hzero
      omega

/-- **Shorter than the mask**: the buffer decides how many bits the prefix has. -/
theorem not_determined_mask (h : d.data.length ≤ 1500) (hlen : 14 ≤ d.data.length)
    (hver : Verified cfg d.data) (hversion : ntohs d.data 4 ≤ version)
    (htype : Cmd.ofCode (ntohs d.data 8) = some .mcpIplist)
    (hip : iplistIpsize d.data = 4) (hshort : d.data.length < 16)
    (hbyte : 15 ≤ d.data.length →
      256 * (d.data.getD 14 0).toNat ≤ maskLimit cfg.ndebug) :
    ∃ srv outs actions, run (actionStep cgi cfg) (Server.init cfg 0) actions =
        .ok (srv, outs) ∧
      ¬ Related SameRound (gldRecv cfg srv (blank.set 15 1) d)
        (gldRecv cfg srv (blank.set 15 2) d) := by
  obtain ⟨high, hhigh, hle⟩ : ∃ high : ℕ, (∀ b : UInt8,
      (((d.request (blank.set 15 b)).swapField 8).packet.getD 14 0).toNat = high) ∧
      256 * high ≤ maskLimit cfg.ndebug := by
    by_cases hfifteen : 15 ≤ d.data.length
    · exact ⟨_, fun b => by rw [getD_swapped _ h (by omega) (by omega)], hbyte hfifteen⟩
    · refine ⟨0, fun b => ?_, Nat.zero_le _⟩
      rw [getD_swapped_stale _ h (by omega) (by omega), getD_blank_set (by omega)]
      rfl
  have hmask : ∀ b : UInt8, ntohs ((d.request (blank.set 15 b)).swapField 8).packet 14 =
      high * 256 + b.toNat := by
    intro b
    rw [ntohs, hhigh, getD_swapped_stale _ h (by omega) (by omega),
      getD_blank_set (by omega), if_pos rfl]
  have hlimit : high * 256 + 2 ≤ maskLimit cfg.ndebug := by
    revert hle
    rw [maskLimit]
    split_ifs <;> omega
  have hone : (1 : UInt8).toNat = 1 := rfl
  have htwo : (2 : UInt8).toNat = 2 := rfl
  refine not_determined_prefix h hlen hver hversion htype hip rfl rfl (by simp) (by simp)
    ?_ ?_ ?_ ?_ ?_
  · rw [hmask]
    omega
  · rw [hmask]
    omega
  · rw [hmask]
    omega
  · rw [hmask]
    omega
  · intro heq
    have hlength := congrArg List.length heq
    rw [length_prefixBits, length_prefixBits, hmask, hmask] at hlength
    omega

/-- The first bits of an address determine each of them. -/
theorem bitAt_of_prefixBits {ip ip' : List UInt8} {n : ℕ}
    (h : prefixBits ip n = prefixBits ip' n) {i : ℕ} (hi : i < n) :
    bitAt ip i = bitAt ip' i := by
  rw [prefixBits, bitsFrom, prefixBits, bitsFrom, List.map_inj_left] at h
  exact h i (List.mem_range'_1.mpr ⟨Nat.zero_le _, by omega⟩)

/-- **Shorter than the octets for the mask**: bits of the prefix come from the buffer. -/
theorem not_determined_octets (h : d.data.length ≤ 1500) (hlen : 16 ≤ d.data.length)
    (hver : Verified cfg d.data) (hversion : ntohs d.data 4 ≤ version)
    (htype : Cmd.ofCode (ntohs d.data 8) = some .mcpIplist)
    (hip : iplistIpsize d.data = 4) (hmask : iplistMaskField d.data ≤ maskLimit cfg.ndebug)
    (hshort : d.data.length < 16 + (iplistMaskField d.data + 7) / 8) :
    ∃ srv outs actions, run (actionStep cgi cfg) (Server.init cfg 0) actions =
        .ok (srv, outs) ∧
      ¬ Related SameRound (gldRecv cfg srv blank d)
        (gldRecv cfg srv (blank.set (16 + (iplistMaskField d.data - 1) / 8) 128) d) := by
  obtain ⟨-, hle⟩ := maskLimit_spec hmask
  generalize hq : (iplistMaskField d.data - 1) / 8 = q
  have hfield : ∀ buf : List UInt8,
      ntohs ((d.request buf).swapField 8).packet 14 = iplistMaskField d.data :=
    fun buf => ntohs_swapped buf h (by omega) (by omega)
  have hoctet : ∀ buf : List UInt8,
      (((d.request buf).swapField 8).packet.drop 16).getD q 0 = buf.getD (16 + q) 0 := by
    intro buf
    rw [List.getD_eq_getElem?_getD, List.getElem?_drop, ← List.getD_eq_getElem?_getD,
      getD_swapped_stale buf h (by omega) (by omega)]
  refine not_determined_prefix h (by omega) hver hversion htype hip rfl rfl length_blank
    (by simp) ?_ ?_ ?_ ?_ ?_
  · rw [hfield]
    omega
  · rw [hfield]
    omega
  · rw [hfield]
    exact hmask
  · rw [hfield]
    exact hmask
  · rw [hfield, hfield]
    intro heq
    have hbit := bitAt_of_prefixBits heq (show 8 * q < iplistMaskField d.data by omega)
    rw [bitAt, bitAt, Nat.mul_div_cancel_left _ (by omega), hoctet, hoctet, getD_blank,
      getD_blank_set (by omega), if_pos rfl, Nat.mul_mod_right] at hbit
    exact absurd hbit (by decide)

end Prefixes

/-! ### The exact condition -/

/-- A packet for client addresses that is determined is contained. -/
theorem iplistContained_of_determined {cgi : CgiLib} {cfg : Config} {data : List UInt8}
    (hdet : Determined cgi cfg data) (h : data.length ≤ 1500) (hlen : 10 ≤ data.length)
    (hver : Verified cfg data) (hversion : ntohs data 4 ≤ version)
    (htype : Cmd.ofCode (ntohs data 8) = some .mcpIplist) :
    IplistContained cfg.ndebug data := by
  let d : Datagram := { data := data, now := 0, clock := 0, canReport := true }
  by_contra hcont
  rw [IplistContained, not_or, not_or, not_or] at hcont
  obtain ⟨hipbyte, hip, hmaskbyte, hoctets⟩ := hcont
  by_cases hfourteen : data.length < 14
  · have hbyte : 13 ≤ data.length → data.getD 12 0 = 0 := fun hle =>
      not_not.mp fun hne => hipbyte ⟨hle, hne⟩
    have hnot := @not_related_ipsize cfg (Server.init cfg 0) d h hlen hver hversion htype
      hfourteen hbyte rfl
    exact hnot (hdet 0 [] _ [] rfl 0 0 true blank (blank.set 13 4) length_blank (by simp))
  have hip' : iplistIpsize data = 4 := not_not.mp fun hne => hip ⟨by omega, hne⟩
  by_cases hsixteen : data.length < 16
  · obtain ⟨srv, outs, actions, hrun, hnot⟩ := @not_determined_mask cgi cfg d h
      (not_lt.mp hfourteen) hver hversion htype hip' hsixteen fun hle =>
        not_lt.mp fun hlt => hmaskbyte ⟨hle, hlt⟩
    exact hnot (hdet 0 actions srv outs hrun 0 0 true _ _ (by simp) (by simp))
  have hoctets' := not_or.mp fun hor => hoctets ⟨by omega, hor⟩
  obtain ⟨srv, outs, actions, hrun, hnot⟩ := @not_determined_octets cgi cfg d h
    (not_lt.mp hsixteen) hver hversion htype hip' (not_lt.mp hoctets'.1) (not_le.mp hoctets'.2)
  exact hnot (hdet 0 actions srv outs hrun 0 0 true _ _ length_blank (by simp))

/-- So is one for an address list. -/
theorem tofromContained_of_determined {cgi : CgiLib} {cfg : Config} {data : List UInt8}
    (hdet : Determined cgi cfg data) (h : data.length ≤ 1500) (hlen : 10 ≤ data.length)
    (hver : Verified cfg data) (hversion : ntohs data 4 ≤ version) (name : ListName)
    (htype : Cmd.ofCode (ntohs data 8) = some name.cmd) : TofromContained data := by
  let d : Datagram := { data := data, now := 0, clock := 0, canReport := true }
  by_contra hcont
  have hinit : (Server.init cfg 0).list name = AddrList.init := by
    cases name <;> rfl
  have hnot := @not_related_tofrom cfg (Server.init cfg 0) d h hlen hver hversion name htype
    hcont hinit
  exact hnot (hdet 0 [] _ [] rfl 0 0 true blank (List.replicate 1500 97) length_blank
    List.length_replicate)

/-- And so is one of any type. -/
theorem typeContained_of_determined {cgi : CgiLib} {cfg : Config} {data : List UInt8}
    (hdet : Determined cgi cfg data) (h : data.length ≤ 1500) (hlen : 10 ≤ data.length)
    (hver : Verified cfg data) (hversion : ntohs data 4 ≤ version) :
    TypeContained cfg.ndebug data (Cmd.ofCode (ntohs data 8)) := by
  have htofrom := tofromContained_of_determined hdet h hlen hver hversion
  cases htype : Cmd.ofCode (ntohs data 8) with
  | none => trivial
  | some c =>
      cases c
      case mcpIplist =>
        exact iplistContained_of_determined hdet h hlen hver hversion htype
      case mcpTo => exact htofrom .toL htype
      case mcpToDomain => exact htofrom .todL htype
      case mcpFrom => exact htofrom .fromL htype
      case mcpFromDomain => exact htofrom .fromdL htype
      all_goals trivial

/-- **Nothing but the datagram** decides what a datagram does, in every state that the
server reaches, exactly if all that its branch reads of it was received. -/
theorem determined_iff (cgi : CgiLib) (cfg : Config) (data : List UInt8)
    (hlen : 5 ≤ data.length) (h : data.length ≤ 1500) (hver : Verified cfg data) :
    Determined cgi cfg data ↔ Contained cfg.ndebug data := by
  constructor
  · intro hdet
    let d : Datagram := { data := data, now := 0, clock := 0, canReport := true }
    have height : 8 ≤ data.length := by
      by_contra hshort
      have hnot := @not_related_mta cfg (Server.init cfg 0) d h hlen hver (not_le.mp hshort)
      exact hnot (hdet 0 [] _ [] rfl 0 0 true blank (blank.set 7 1) length_blank (by simp))
    refine ⟨height, ?_⟩
    by_cases hversion : version < ntohs data 4
    · exact Or.inl hversion
    refine Or.inr ?_
    by_cases hten : data.length < 10
    · refine Or.inl ?_
      by_contra hbyte
      have hnot := @not_related_type cfg (Server.init cfg 0) d h height hver
        (not_lt.mp hversion) hten fun hle => not_not.mp fun hne => hbyte ⟨hle, hne⟩
      exact hnot (hdet 0 [] _ [] rfl 0 0 true blank (List.replicate 1500 255) length_blank
        List.length_replicate)
    · exact Or.inr ⟨by omega,
        typeContained_of_determined hdet h (by omega) hver (by omega)⟩
  · intro hcont starttime actions srv outs hrun now clock canReport buf buf' hbuf hbuf'
    exact @related_gldRecv cfg srv buf buf'
      { data := data, now := now, clock := clock, canReport := canReport } h hver hcont hbuf
      hbuf'

/-- The packet of the control program for a recipient to accept, with the bytes that stand
for the text. -/
def acceptTo (cfg : Config) (text : List UInt8) : List UInt8 :=
  htonl (checksum cfg.secret (htons version ++ htons mtaMcp ++ htons Cmd.mcpTo.code ++
      htons 1 ++ htons 0 ++ text)).toNat ++
    (htons version ++ htons mtaMcp ++ htons Cmd.mcpTo.code ++ htons 1 ++ htons 0 ++ text)

/-- With its terminator the text is all that counts. -/
theorem determined_iff_terminated :
    Determined plainCgi (Config.default false)
      (acceptTo (Config.default false) [97, 0]) := by
  have hcont : Contained false (acceptTo (Config.default false) [97, 0]) := by
    refine ⟨by decide, Or.inr (Or.inr ⟨by decide, ?_⟩)⟩
    have htype : Cmd.ofCode (ntohs (acceptTo (Config.default false) [97, 0]) 8) =
        some .mcpTo := rfl
    rw [htype]
    exact Or.inl (by decide)
  exact (determined_iff plainCgi (Config.default false) _ (by decide) (by decide)
    (verified_append _ _)).mpr hcont

/-- What a packet for an address list does when its text ends somewhere. -/
theorem gldRecv_tofrom_of {cfg : Config} (srv : Server) {buf : List UInt8} {d : Datagram}
    (h : d.data.length ≤ 1500) (hlen : 10 ≤ d.data.length) (hver : Verified cfg d.data)
    (hversion : ntohs d.data 4 ≤ version) (name : ListName)
    (htype : Cmd.ofCode (ntohs d.data 8) = some name.cmd) {text rest : List UInt8}
    (hdrop : ((d.request buf).swapField 8).packet.drop 14 = text ++ 0 :: rest)
    (htext : 0 ∉ text) {l : AddrList}
    (hl : mcpTofromList cfg.ndebug (srv.list name) text
      (ntohs ((d.request buf).swapField 8).packet 10) = .ok l) :
    gldRecv cfg srv buf d = .ok ([(d.request buf).reply name.resp 0 .none],
      srv.setList l name, ((d.request buf).swapField 8).packet) := by
  rw [gldRecv_type srv buf h hlen hver hversion, htype, dispatch_listName, cmdMcpTofrom_eq,
    hdrop, cstring_append htext, ok_bind, hl, ok_bind, sendReply_eq _ _ (le_refl 0),
    reply_swapField _ (le_refl 8)]
  rfl

/-- A rule to accept a text that is added to an empty list. -/
theorem mcpTofromList_accept (ndebug : Bool) {text : List UInt8}
    (htext : text ≠ ascii "default" ∧ text ≠ ascii "DEFAULT") :
    mcpTofromList ndebug AddrList.init text 1 =
      .ok { AddrList.init with
        entries := [{ text := text, count := 0, cmd := 1 }], smax := 100 } := by
  have hsearch : edomainSearch text AddrList.init.entries = (none, 0) := edomainSearch_nil text
  have hroom : AddrList.init.entries.length ≤ AddrList.init.smax := Nat.le_refl 0
  rw [mcpTofromList, if_neg (not_or.mpr htext), hsearch]
  dsimp only
  rw [if_pos (by decide), edomainAdd_eq hroom _ (Nat.zero_le _)]
  rfl

/-- The packet that accepts the recipient `a`, without the terminator: an earlier packet has
left the letter `b` behind it in one buffer and nothing in the other, and the rule that is
installed is one for `ab` in the first case. -/
theorem not_determined_text :
    ∃ d : Datagram, d.data = acceptTo (Config.default false) [97] ∧
      Verified (Config.default false) d.data ∧
      ¬ Related SameRound
        (gldRecv (Config.default false) (Server.init (Config.default false) 0) blank d)
        (gldRecv (Config.default false) (Server.init (Config.default false) 0)
          (blank.set 15 98) d) ∧
      ¬ Determined plainCgi (Config.default false) d.data := by
  let d : Datagram :=
    { data := acceptTo (Config.default false) [97], now := 0, clock := 0, canReport := true }
  have hver : Verified (Config.default false) d.data := verified_append _ _
  have h : d.data.length ≤ 1500 := by decide
  have hlen : 10 ≤ d.data.length := by decide
  have hfifteen : d.data.length = 15 := rfl
  have htext : d.data.drop 14 = [97] := rfl
  have hten : ntohs d.data 10 = 1 := by decide
  have htype : Cmd.ofCode (ntohs d.data 8) = some ListName.toL.cmd := by decide
  have hversion : ntohs d.data 4 ≤ version := by decide
  have hcmd : ∀ buf, ntohs ((d.request buf).swapField 8).packet 10 = 1 := by
    intro buf
    rw [ntohs_swapped buf h (by omega) (by omega), hten]
  have hdrop : ∀ buf, ((d.request buf).swapField 8).packet.drop 14 = 97 :: buf.drop 15 := by
    intro buf
    rw [Request.swapField, drop_swapField _ (by omega), packet_request buf h,
      List.drop_append_of_le_length (by rw [hfifteen]; omega), hfifteen, htext]
    rfl
  have hblank : (97 : UInt8) :: blank.drop 15 = [97] ++ 0 :: List.replicate 1484 0 := by
    rw [blank, List.drop_replicate, show 1500 - 15 = 1484 + 1 from rfl, List.replicate_succ]
    rfl
  have hset : (97 : UInt8) :: (blank.set 15 98).drop 15 =
      [97, 98] ++ 0 :: List.replicate 1483 0 := by
    rw [List.drop_set, if_neg (by omega), blank, List.drop_replicate,
      show 1500 - 15 = 1483 + 1 + 1 from rfl, List.replicate_succ, List.replicate_succ,
      Nat.sub_self, List.set_cons_zero]
    rfl
  have hrun := gldRecv_tofrom_of (Server.init (Config.default false) 0) h hlen hver
    hversion .toL htype ((hdrop blank).trans hblank) (by decide)
    (by rw [hcmd]; exact mcpTofromList_accept false (by decide))
  have hrun' := gldRecv_tofrom_of (Server.init (Config.default false) 0) h hlen hver
    hversion .toL htype ((hdrop (blank.set 15 98)).trans hset) (by decide)
    (by rw [hcmd]; exact mcpTofromList_accept false (by decide))
  have hnot : ¬ Related SameRound
      (gldRecv (Config.default false) (Server.init (Config.default false) 0) blank d)
      (gldRecv (Config.default false) (Server.init (Config.default false) 0)
        (blank.set 15 98) d) := by
    rw [hrun, hrun', related_ok_iff]
    intro hsame
    have hentries := congrArg (fun srv : Server => texts srv.toL.entries) hsame.2.rest
    exact absurd hentries (by decide)
  exact ⟨d, rfl, hver, hnot, fun hdet => hnot
    (hdet 0 [] _ [] rfl 0 0 true blank (blank.set 15 98) length_blank (by simp))⟩

end XGrey
