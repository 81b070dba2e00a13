import XGrey.IplistPackets
import XGrey.Lib.TwoRuns

/-!
# What an Earlier Packet Leaves Behind

The main loop receives every datagram into the same buffer and never clears it. Behind the
bytes of a datagram stands what earlier ones have left there, and each branch decides for
itself how far it reads. Only `greylist_sanitize_req` compares the sizes in the packet with
what was received.

A datagram is `Determined` if what the buffer holds behind it has no influence on anything
that the server sends or remembers. `Contained` says how much of the fields a branch reads
must have been received for that: the field `MTA` for every reply, the type, the size of
the address and the mask as far as they decide, as many octets as the mask has bits for,
and the terminator of the text of a rule.

## Main results

* `related_dispatch`: a branch that is given the same in two buffers does the same.
* `related_gldRecv`: two runs on a contained datagram.
-/

open CRuntime PrefixMap StepRun

namespace XGrey

/-! ### The law -/

/-- The state of two servers is the same: all of it but the nodes of the tree of rules that
carry no rule. -/
structure SameState (srv srv' : Server) : Prop where
  rules : ipRules srv.iplist.tree = ipRules srv'.iplist.tree
  rest : { srv with iplist := { srv.iplist with tree := srv'.iplist.tree } } = srv'

/-- Two rounds of the main loop sent the same replies and left the same state. -/
def SameRound (r r' : List Output × Server × List UInt8) : Prop :=
  r.1 = r'.1 ∧ SameState r.2.1 r'.2.1

/-- In every state that the server reaches and at all times, the outcome of receiving a
datagram does not depend on what the buffer held. -/
def Determined (cgi : CgiLib) (cfg : Config) (data : List UInt8) : Prop :=
  ∀ (starttime : ℤ) (actions : List Action) (srv : Server) (outs : List (List Output)),
    run (actionStep cgi cfg) (Server.init cfg starttime) actions = .ok (srv, outs) →
    ∀ (now clock : ℤ) (canReport : Bool) (buf buf' : List UInt8), buf.length = 1500 →
      buf'.length = 1500 → Related SameRound
        (gldRecv cfg srv buf { data := data, now := now, clock := clock, canReport := canReport })
        (gldRecv cfg srv buf' { data := data, now := now, clock := clock, canReport := canReport })

/-- The masks up to which `ip_add_sm` may get to the end of its walk: beyond them an
assertion fails, or the walk leaves the buffer. -/
def maskLimit (ndebug : Bool) : ℕ := if ndebug then 8 * (1500 - 16) else 32

/-- Of a packet for client addresses was received what decides: enough to see that the size
of the address is wrong, or that the mask is too large, or all octets for the mask. -/
def IplistContained (ndebug : Bool) (data : List UInt8) : Prop :=
  (13 ≤ data.length ∧ data.getD 12 0 ≠ 0) ∨
    (14 ≤ data.length ∧ iplistIpsize data ≠ 4) ∨
    (15 ≤ data.length ∧ maskLimit ndebug < 256 * (data.getD 14 0).toNat) ∨
    (16 ≤ data.length ∧ (maskLimit ndebug < iplistMaskField data ∨
      16 + (iplistMaskField data + 7) / 8 ≤ data.length))

/-- Of a packet for an address list the text was received with its terminator. -/
def TofromContained (data : List UInt8) : Prop := 0 ∈ data.drop 14 ∨ data.length = 1500

/-- The same for a packet of any type. -/
def TypeContained (ndebug : Bool) (data : List UInt8) : Option Cmd → Prop
  | some .mcpIplist => IplistContained ndebug data
  | some .mcpTo => TofromContained data
  | some .mcpToDomain => TofromContained data
  | some .mcpFrom => TofromContained data
  | some .mcpFromDomain => TofromContained data
  | _ => True

/-- Of a datagram was received what decides how it is handled. -/
def Contained (ndebug : Bool) (data : List UInt8) : Prop :=
  8 ≤ data.length ∧
    (version < ntohs data 4 ∨ (9 ≤ data.length ∧ data.getD 8 0 ≠ 0) ∨
      (10 ≤ data.length ∧ TypeContained ndebug data (Cmd.ofCode (ntohs data 8))))

/-! ### Two packets with the same front -/

/-- Two requests of which the first `n` bytes, and no more, were received. -/
structure Shares (n : ℕ) (r r' : Request) : Prop where
  size : r.size = n
  size' : r'.size = n
  take : r.packet.take n = r'.packet.take n
  length : r.packet.length = 1500
  length' : r'.packet.length = 1500
  now : r.now = r'.now
  clock : r.clock = r'.clock

namespace Shares

variable {n : ℕ} {r r' : Request}

theorem le_length (h : Shares n r r') : n ≤ 1500 := h.length ▸ h.size ▸ r.size_le

theorem getD (h : Shares n r r') {i : ℕ} (hi : i < n) :
    r.packet.getD i 0 = r'.packet.getD i 0 := by
  have hget : ∀ p : List UInt8, p.getD i 0 = (p.take n).getD i 0 := fun p => by
    rw [List.getD_eq_getElem?_getD, List.getD_eq_getElem?_getD, List.getElem?_take_of_lt hi]
  rw [hget, h.take, ← hget]

theorem ntohs_eq (h : Shares n r r') {off : ℕ} (hoff : off + 2 ≤ n) :
    ntohs r.packet off = ntohs r'.packet off := by
  rw [ntohs, h.getD (by omega), h.getD (by omega), ntohs]

theorem bytes_eq (h : Shares n r r') {off k : ℕ} (hoff : off + k ≤ n) :
    r.bytes off k = r'.bytes off k := by
  have hbytes : ∀ p : List UInt8, (p.drop off).take k = ((p.take n).drop off).take k := by
    intro p
    rw [List.drop_take, List.take_take, Nat.min_eq_left (by omega)]
  rw [Request.bytes, hbytes, h.take, ← hbytes, Request.bytes]

theorem reply_eq (h : Shares n r r') (hn : 8 ≤ n) (type : Cmd) (response : ℤ)
    (why : Reason) : r.reply type response why = r'.reply type response why := by
  rw [Request.reply, h.bytes_eq (by omega), Request.reply]

theorem swapField (h : Shares n r r') {off : ℕ} (hoff : off + 2 ≤ n) :
    Shares n (r.swapField off) (r'.swapField off) where
  size := h.size
  size' := h.size'
  take := by
    simp only [Request.swapField, XGrey.swapField, List.take_set]
    rw [h.take, h.getD (by omega), h.getD (by omega)]
  length := by simpa [Request.swapField] using h.length
  length' := by simpa [Request.swapField] using h.length'
  now := h.now
  clock := h.clock

theorem sendReply_eq (h : Shares n r r') (hn : 8 ≤ n) (ndebug : Bool) (type : Cmd)
    (response : ℤ) (why : Reason) :
    sendReply ndebug r type response why = sendReply ndebug r' type response why := by
  have hmta := h.bytes_eq (show 6 + 2 ≤ n by omega)
  rw [Request.bytes, Request.bytes] at hmta
  rw [sendReply, hmta, sendReply]

end Shares

/-! ### Two runs on a contained packet -/

/-- Two branches of the main loop sent the same replies and left the same state. -/
def SameAnswer (a a' : List Output × Server × Request) : Prop :=
  a.1 = a'.1 ∧ a.2.1 = a'.2.1

section Branches

variable {n : ℕ} {r r' : Request} {cfg : Config} {srv : Server}

/-- A request that fits into what was received is the same for both. -/
theorem Shares.accepts_iff (h : Shares n r r') : r.Accepts ↔ r'.Accepts := by
  by_cases hn : 20 ≤ n
  · rw [Request.Accepts, Request.Accepts, Request.ipsize, Request.fromsize, Request.tosize,
      Request.ipsize, Request.fromsize, Request.tosize, h.ntohs_eq (by omega),
      h.ntohs_eq (by omega), h.ntohs_eq (by omega), h.size, h.size']
  · have hsize := h.size
    have hsize' := h.size'
    refine iff_of_false ?_ ?_
    · rintro ⟨hip, hfit⟩
      omega
    · rintro ⟨hip, hfit⟩
      omega

/-- And so is its tuple. -/
theorem Shares.tuple_eq (h : Shares n r r') (hacc : r.Accepts) (cfg : Config) :
    r.tuple cfg = r'.tuple cfg := by
  obtain ⟨hip, hfit⟩ := hacc
  have hsize := h.size
  have hfrom : min 107 r.fromsize ≤ r.fromsize := Nat.min_le_right ..
  have hto : min 107 r.tosize ≤ r.tosize := Nat.min_le_right ..
  have hips : r.ipsize = r'.ipsize := h.ntohs_eq (by omega)
  have hfroms : r.fromsize = r'.fromsize := h.ntohs_eq (by omega)
  have htos : r.tosize = r'.tosize := h.ntohs_eq (by omega)
  rw [Request.tuple, h.bytes_eq (by omega), h.bytes_eq (by omega), h.bytes_eq (by omega),
    hips, hfroms, htos, h.now, Request.tuple]

/-- The end of a branch. -/
theorem related_reply (h : Shares n r r') (hn : 8 ≤ n) (type : Cmd) (response : ℤ)
    (why : Reason) :
    Related SameAnswer
      (do
        let out ← sendReply cfg.ndebug r type response why
        .ok (out, srv, r))
      (do
        let out ← sendReply cfg.ndebug r' type response why
        .ok (out, srv, r')) := by
  rw [h.sendReply_eq hn]
  exact related_bind_same fun out => .ok ⟨rfl, rfl⟩

theorem related_typeGreylist (h : Shares n r r') (hn : 8 ≤ n) (cmd response : Cmd) :
    Related SameAnswer (typeGreylist cfg srv r cmd response)
      (typeGreylist cfg srv r' cmd response) := by
  by_cases hacc : r.Accepts
  · have hacc' := h.accepts_iff.mp hacc
    -- the replies of the two are those to the packets as they were received
    have hsend : ∀ rc why, sendReply cfg.ndebug r.converted response rc why =
        sendReply cfg.ndebug r'.converted response rc why := by
      intro rc why
      have hmta : r.converted.bytes 6 2 = r'.converted.bytes 6 2 := by
        rw [mta_converted, mta_converted, h.bytes_eq (by omega)]
      rw [Request.bytes, Request.bytes] at hmta
      rw [sendReply, hmta, sendReply]
    have hnow : r.converted.now = r'.converted.now := h.now
    have hclock : r.converted.clock = r'.converted.clock := h.clock
    rw [typeGreylist, typeGreylist, greylistSanitizeReq_of_accepts cfg hacc,
      greylistSanitizeReq_of_accepts cfg hacc', h.tuple_eq hacc, ok_bind, ok_bind]
    dsimp only
    refine related_bind_same fun found => related_bind_same fun ipCmdcnt => ?_
    split_ifs
    · rw [hsend]
      exact related_bind_same fun out => .ok ⟨rfl, rfl⟩
    refine related_bind_same fun sender => ?_
    rcases sender with ⟨_ | verdict, fromL, fromdL⟩
    · refine related_bind_same fun recipient => ?_
      rcases recipient with ⟨_ | verdict, toL, todL⟩
      · dsimp only
        rw [hnow, hclock]
        refine related_bind_same fun checked => ?_
        rw [hsend]
        exact related_bind_same fun out => .ok ⟨rfl, rfl⟩
      · dsimp only
        rw [hsend]
        exact related_bind_same fun out => .ok ⟨rfl, rfl⟩
    · dsimp only
      rw [hsend]
      exact related_bind_same fun out => .ok ⟨rfl, rfl⟩
  · have hacc' : ¬ r'.Accepts := fun h' => hacc (h.accepts_iff.mpr h')
    rw [typeGreylist_of_not_accepts cfg srv hacc, typeGreylist_of_not_accepts cfg srv hacc',
      h.reply_eq hn]
    exact .ok ⟨rfl, rfl⟩

theorem related_typeTupleRemove (h : Shares n r r') (hn : 8 ≤ n) :
    Related SameAnswer (typeTupleRemove cfg srv r) (typeTupleRemove cfg srv r') := by
  by_cases hacc : r.Accepts
  · rw [typeTupleRemove_of_accepts cfg srv hacc,
      typeTupleRemove_of_accepts cfg srv (h.accepts_iff.mp hacc), h.tuple_eq hacc,
      h.reply_eq hn]
    exact .ok ⟨rfl, rfl⟩
  · have hacc' : ¬ r'.Accepts := fun h' => hacc (h.accepts_iff.mpr h')
    rw [typeTupleRemove, typeTupleRemove, greylistSanitizeReq_of_not_accepts cfg hacc,
      greylistSanitizeReq_of_not_accepts cfg hacc', h.reply_eq hn]
    exact .ok ⟨rfl, rfl⟩

theorem related_cmdMcpReport (h : Shares n r r') (hn : 8 ≤ n) (canReport : Bool)
    (resp : Cmd) :
    Related SameAnswer (cmdMcpReport cfg srv r canReport resp)
      (cmdMcpReport cfg srv r' canReport resp) := by
  rw [cmdMcpReport, cmdMcpReport]
  cases canReport with
  | true => exact related_reply h hn _ _ _
  | false => exact related_reply h hn _ _ _

/-- A packet whose address has the wrong size. -/
theorem related_cmdMcpIplist_ipsize (h : Shares n r r') (hn : 8 ≤ n)
    (hip : ntohs r.packet 12 ≠ 4) (hip' : ntohs r'.packet 12 ≠ 4) :
    Related SameAnswer (cmdMcpIplist cfg srv r) (cmdMcpIplist cfg srv r') := by
  rw [cmdMcpIplist, cmdMcpIplist, if_pos hip, if_pos hip']
  exact related_reply h hn _ _ _

/-- A mask beyond the limit ends the server, with any address. -/
theorem ipAddSm_of_limit {ndebug : Bool} {l : IpList} {ip : List UInt8} {mask : ℕ}
    (hlen : ip.length = 1500 - 16) (hmask : maskLimit ndebug < mask) (cmd : ℤ) :
    ipAddSm ndebug l ip mask cmd = .error (if ndebug then .memory else .assertion) := by
  rw [ipAddSm, cassert_of (by omega), ok_bind]
  cases ndebug with
  | false =>
      have hgt : ¬ (mask : ℤ) < 33 := by
        rw [maskLimit, if_neg Bool.false_ne_true] at hmask
        omega
      rw [cassert_false_of_not hgt]
      rfl
  | true =>
      rw [maskLimit, if_pos rfl] at hmask
      rw [cassert_ndebug, ok_bind, if_neg (by omega), if_neg (by omega),
        ipAddLoop_of_length_lt cmd _ atDepth_zero (by omega) (by omega)]
      rfl

/-- The masks of the two are beyond the limit. -/
theorem related_cmdMcpIplist_limit (h : Shares n r r') (hn : 8 ≤ n)
    (hip : ntohs r.packet 12 = ntohs r'.packet 12)
    (hmask : maskLimit cfg.ndebug < ntohs r.packet 14)
    (hmask' : maskLimit cfg.ndebug < ntohs r'.packet 14) :
    Related SameAnswer (cmdMcpIplist cfg srv r) (cmdMcpIplist cfg srv r') := by
  by_cases hsize : ntohs r.packet 12 ≠ 4
  · exact related_cmdMcpIplist_ipsize h hn hsize (hip ▸ hsize)
  · have hlen : (r.packet.drop 16).length = 1500 - 16 := by
      rw [List.length_drop, h.length]
    have hlen' : (r'.packet.drop 16).length = 1500 - 16 := by
      rw [List.length_drop, h.length']
    rw [cmdMcpIplist, cmdMcpIplist, if_neg hsize, if_neg (hip ▸ hsize),
      ipAddSm_of_limit hlen hmask, ipAddSm_of_limit hlen' hmask']
    exact .error _

/-- All octets for the mask were received. -/
theorem related_cmdMcpIplist_octets (h : Shares n r r')
    (hoctets : 16 + (ntohs r.packet 14 + 7) / 8 ≤ n) :
    Related SameAnswer (cmdMcpIplist cfg srv r) (cmdMcpIplist cfg srv r') := by
  have hle := h.le_length
  have hlen : ∀ p : List UInt8, p.length = 1500 →
      (ntohs r.packet 14 + 7) / 8 ≤ (p.drop 16).length := by
    intro p hp
    rw [List.length_drop]
    omega
  have hbytes := h.bytes_eq hoctets
  rw [Request.bytes, Request.bytes] at hbytes
  rw [cmdMcpIplist, cmdMcpIplist, ← h.ntohs_eq (show 12 + 2 ≤ n by omega),
    ← h.ntohs_eq (show 14 + 2 ≤ n by omega), ← h.ntohs_eq (show 10 + 2 ≤ n by omega),
    ← ipAddSm_take cfg.ndebug srv.iplist (hlen _ h.length) (by omega), hbytes,
    ipAddSm_take cfg.ndebug srv.iplist (hlen _ h.length') (by omega)]
  split_ifs
  · exact related_reply h (by omega) _ _ _
  · refine related_bind_same fun iplist => ?_
    exact related_reply h (by omega) _ _ _

/-- Two packets have the same command and the same text for an address list. -/
def SameText (r r' : Request) : Prop :=
  ntohs r.packet 10 = ntohs r'.packet 10 ∧
    cstring (r.packet.drop 14) = cstring (r'.packet.drop 14)

theorem related_cmdMcpTofrom (h : Shares n r r') (hn : 8 ≤ n) (htext : SameText r r')
    (name : ListName) (resp : Cmd) :
    Related SameAnswer (cmdMcpTofrom cfg srv r name.cmd resp)
      (cmdMcpTofrom cfg srv r' name.cmd resp) := by
  rw [cmdMcpTofrom_eq, cmdMcpTofrom_eq, htext.1, htext.2]
  refine related_bind_same fun text => related_bind_same fun l => ?_
  exact related_reply h hn _ _ _

/-- The branches that read nothing behind the type without looking at the size, and those
for which enough was received. -/
def TypeShared (cfg : Config) (r r' : Request) : Option Cmd → Prop
  | some .mcpIplist => ∀ srv, Related SameAnswer (cmdMcpIplist cfg srv r)
      (cmdMcpIplist cfg srv r')
  | some .mcpTo => SameText r r'
  | some .mcpToDomain => SameText r r'
  | some .mcpFrom => SameText r r'
  | some .mcpFromDomain => SameText r r'
  | _ => True

/-- **The branches of the main loop.** -/
theorem related_dispatch (h : Shares n r r') (hn : 8 ≤ n) (canReport : Bool)
    (type : Option Cmd) (hshared : TypeShared cfg r r' type) :
    Related SameAnswer (dispatch cfg srv r canReport type)
      (dispatch cfg srv r' canReport type) := by
  have hshow : ∀ resp, Related SameAnswer (cmdMcpReport cfg srv r canReport resp)
      (cmdMcpReport cfg srv r' canReport resp) := related_cmdMcpReport h hn canReport
  have hheader : ∀ type, mcpHeader r type = mcpHeader r' type := by
    intro type
    have hmta := h.bytes_eq (show 6 + 2 ≤ n by omega)
    rw [Request.bytes, Request.bytes] at hmta
    rw [mcpHeader, hmta, mcpHeader]
  rw [dispatch.eq_def, dispatch.eq_def]
  split
  · exact related_reply h hn _ _ _
  · exact related_typeGreylist h hn _ _
  · exact related_typeGreylist h hn _ _
  · exact related_typeTupleRemove h hn
  · rw [statsBody, hheader, h.now, statsBody]
    exact .ok ⟨rfl, rfl⟩
  · rw [configBody, hheader, configBody]
    exact .ok ⟨rfl, rfl⟩
  · exact hshow _
  · exact hshow _
  · exact hshow _
  · exact hshow _
  · exact hshow _
  · exact hshow _
  · exact hshow _
  · exact hshow _
  · exact hshared srv
  · exact related_cmdMcpTofrom h hn hshared .toL _
  · exact related_cmdMcpTofrom h hn hshared .todL _
  · exact related_cmdMcpTofrom h hn hshared .fromL _
  · exact related_cmdMcpTofrom h hn hshared .fromdL _
  · exact related_reply h hn _ _ _

end Branches

/-! ### Contained datagrams -/

section Contained

variable {cfg : Config} {srv : Server} {buf buf' : List UInt8} {d : Datagram}

/-- What the main loop makes of two buffers. -/
theorem shares_request (h : d.data.length ≤ 1500) (hbuf : buf.length = 1500)
    (hbuf' : buf'.length = 1500) :
    Shares d.data.length (d.request buf) (d.request buf') where
  size := size_request buf h
  size' := size_request buf' h
  take := by
    rw [packet_request buf h, packet_request buf' h, List.take_left' rfl, List.take_left' rfl]
  length := by
    rw [packet_request buf h, List.length_append, List.length_drop]
    omega
  length' := by
    rw [packet_request buf' h, List.length_append, List.length_drop]
    omega
  now := rfl
  clock := rfl

/-- A number with a byte in its upper half. -/
theorem le_ntohs (p : List UInt8) (off : ℕ) : 256 * (p.getD off 0).toNat ≤ ntohs p off := by
  rw [ntohs]
  omega

theorem toNat_pos {b : UInt8} (h : b ≠ 0) : 0 < b.toNat := by
  refine Nat.pos_of_ne_zero fun hzero => h ?_
  exact UInt8.toNat_inj.mp hzero

/-- **A contained packet for client addresses.** -/
theorem typeShared_iplist (h : d.data.length ≤ 1500) (hbuf : buf.length = 1500)
    (hbuf' : buf'.length = 1500) (hlen : 10 ≤ d.data.length)
    (hcont : IplistContained cfg.ndebug d.data) :
    TypeShared cfg ((d.request buf).swapField 8) ((d.request buf').swapField 8)
      (some .mcpIplist) := by
  intro srv
  have hs := (shares_request h hbuf hbuf').swapField (show 8 + 2 ≤ d.data.length by omega)
  -- the upper byte of a field is enough where it decides
  have hhigh : ∀ buf : List UInt8, ∀ off, 10 ≤ off → off < d.data.length →
      256 * (d.data.getD off 0).toNat ≤ ntohs ((d.request buf).swapField 8).packet off := by
    intro buf off hoff hoff'
    rw [← getD_swapped buf h hoff hoff']
    exact le_ntohs _ off
  rcases hcont with ⟨hthirteen, hbyte⟩ | ⟨hfourteen, hip⟩ | ⟨hfifteen, hmask⟩ |
    ⟨hsixteen, hmask | hoctets⟩
  · have hpos := toNat_pos hbyte
    refine related_cmdMcpIplist_ipsize hs (by omega) ?_ ?_
    · have := hhigh buf 12 (by omega) (by omega)
      omega
    · have := hhigh buf' 12 (by omega) (by omega)
      omega
  · refine related_cmdMcpIplist_ipsize hs (by omega) ?_ ?_
    · rw [ntohs_swapped buf h (by omega) (by omega)]
      exact hip
    · rw [ntohs_swapped buf' h (by omega) (by omega)]
      exact hip
  · refine related_cmdMcpIplist_limit hs (by omega) (hs.ntohs_eq (by omega)) ?_ ?_
    · exact hmask.trans_le (hhigh buf 14 (by omega) (by omega))
    · exact hmask.trans_le (hhigh buf' 14 (by omega) (by omega))
  · refine related_cmdMcpIplist_limit hs (by omega) (hs.ntohs_eq (by omega)) ?_ ?_
    · rw [ntohs_swapped buf h (by omega) (by omega)]
      exact hmask
    · rw [ntohs_swapped buf' h (by omega) (by omega)]
      exact hmask
  · refine related_cmdMcpIplist_octets hs ?_
    rw [ntohs_swapped buf h (by omega) (by omega)]
    exact hoctets

/-- A string that ends inside a part of the memory. -/
theorem cstring_append_of_mem {s : List UInt8} (h : 0 ∈ s) (rest : List UInt8) :
    cstring (s ++ rest) = cstring s := by
  obtain ⟨a, b, rfl, ha⟩ := List.eq_append_cons_of_mem h
  rw [List.append_assoc, List.cons_append, cstring_append ha, cstring_append ha]

/-- **A contained packet for an address list.** -/
theorem sameText_of_contained (h : d.data.length ≤ 1500) (hbuf : buf.length = 1500)
    (hbuf' : buf'.length = 1500) (hcont : TofromContained d.data) :
    SameText ((d.request buf).swapField 8) ((d.request buf').swapField 8) := by
  have hdrop : ∀ buf : List UInt8, 14 ≤ d.data.length →
      ((d.request buf).swapField 8).packet.drop 14 =
        d.data.drop 14 ++ buf.drop d.data.length := by
    intro buf hlen
    rw [Request.swapField, drop_swapField _ (by omega), packet_request buf h,
      List.drop_append_of_le_length hlen]
  have hlen : 14 ≤ d.data.length := by
    rcases hcont with hmem | hall
    · by_contra hshort
      rw [List.drop_eq_nil_of_le (by omega)] at hmem
      exact absurd hmem List.not_mem_nil
    · omega
  have hs := (shares_request h hbuf hbuf').swapField (show 8 + 2 ≤ d.data.length by omega)
  refine ⟨hs.ntohs_eq (by omega), ?_⟩
  rw [hdrop buf hlen, hdrop buf' hlen]
  rcases hcont with hmem | hall
  · rw [cstring_append_of_mem hmem, cstring_append_of_mem hmem]
  · rw [List.drop_eq_nil_of_le (show buf.length ≤ d.data.length by omega),
      List.drop_eq_nil_of_le (show buf'.length ≤ d.data.length by omega)]

theorem typeShared_of_contained (h : d.data.length ≤ 1500) (hbuf : buf.length = 1500)
    (hbuf' : buf'.length = 1500) (hlen : 10 ≤ d.data.length) {type : Option Cmd}
    (hcont : TypeContained cfg.ndebug d.data type) :
    TypeShared cfg ((d.request buf).swapField 8) ((d.request buf').swapField 8) type := by
  cases type with
  | none => trivial
  | some c =>
      cases c
      case mcpIplist => exact typeShared_iplist h hbuf hbuf' hlen hcont
      case mcpTo => exact sameText_of_contained h hbuf hbuf' hcont
      case mcpToDomain => exact sameText_of_contained h hbuf hbuf' hcont
      case mcpFrom => exact sameText_of_contained h hbuf hbuf' hcont
      case mcpFromDomain => exact sameText_of_contained h hbuf hbuf' hcont
      all_goals trivial

/-- The same replies and the same server. -/
theorem sameState_refl (srv : Server) : SameState srv srv := ⟨rfl, rfl⟩

/-- A number that is no type is answered with an error. -/
theorem dispatch_none (cfg : Config) (srv : Server) (req : Request) (canReport : Bool) :
    dispatch cfg srv req canReport none =
      .ok ([req.reply .noneResp Glerr.typeNotSupported.code .none], srv, req) := by
  rw [dispatch.eq_def]
  dsimp only
  rw [sendReply_eq _ _ (by decide), ok_bind]

/-- A datagram that is dispatched by its type. -/
theorem related_gldRecv_verified (h : d.data.length ≤ 1500) (hlen : 8 ≤ d.data.length)
    (hver : Verified cfg d.data) (hversion : ntohs d.data 4 ≤ version)
    (hdispatch : Related SameAnswer
      (dispatch cfg srv ((d.request buf).swapField 8) d.canReport
        (Cmd.ofCode (ntohs (d.request buf).packet 8)))
      (dispatch cfg srv ((d.request buf').swapField 8) d.canReport
        (Cmd.ofCode (ntohs (d.request buf').packet 8)))) :
    Related SameRound (gldRecv cfg srv buf d) (gldRecv cfg srv buf' d) := by
  have hv : ∀ buf, ntohs (d.request buf).packet 4 ≤ version := by
    intro buf
    rw [ntohs_packet_request buf h (by omega)]
    exact hversion
  rw [gldRecv_of_verified cfg srv buf h (by omega) hver (hv buf),
    gldRecv_of_verified cfg srv buf' h (by omega) hver (hv buf')]
  refine hdispatch.bind fun r r' hr => .ok ⟨hr.1, ?_⟩
  change SameState r.2.1 r'.2.1
  rw [hr.2]
  exact sameState_refl _

/-- **A contained datagram**: the outcome does not depend on what the buffer held. -/
theorem related_gldRecv (h : d.data.length ≤ 1500) (hver : Verified cfg d.data)
    (hcont : Contained cfg.ndebug d.data) (hbuf : buf.length = 1500)
    (hbuf' : buf'.length = 1500) :
    Related SameRound (gldRecv cfg srv buf d) (gldRecv cfg srv buf' d) := by
  obtain ⟨hlen, hcont⟩ := hcont
  have hs := shares_request (d := d) h hbuf hbuf'
  by_cases hversion : version < ntohs d.data 4
  · have hv : ∀ buf, version < ntohs (d.request buf).packet 4 := by
      intro buf
      rw [ntohs_packet_request buf h (by omega)]
      exact hversion
    rw [gldRecv_of_version cfg srv buf h (by omega) hver (hv buf),
      gldRecv_of_version cfg srv buf' h (by omega) hver (hv buf'), hs.sendReply_eq hlen]
    exact related_bind_same fun out => .ok ⟨rfl, sameState_refl srv⟩
  refine related_gldRecv_verified h hlen hver (by omega) ?_
  rcases hcont with hbad | ⟨hnine, hbyte⟩ | ⟨hten, htype⟩
  · exact absurd hbad hversion
  · -- a type with a byte in its upper half is none
    have hnone : ∀ buf, Cmd.ofCode (ntohs (d.request buf).packet 8) = none := by
      intro buf
      have hpos := toNat_pos hbyte
      have hle := le_ntohs (d.request buf).packet 8
      rw [show (d.request buf).packet.getD 8 0 = d.data.getD 8 0 by
        rw [packet_request buf h, getD_append_left hnine]] at hle
      exact Cmd.ofCode_of_le (by omega)
    rw [hnone, hnone, dispatch_none, dispatch_none, reply_swapField _ (le_refl 8),
      reply_swapField _ (le_refl 8), hs.reply_eq hlen]
    exact .ok ⟨rfl, rfl⟩
  · rw [ntohs_packet_request buf h (by omega), ntohs_packet_request buf' h (by omega)]
    exact related_dispatch (hs.swapField hten) hlen d.canReport _
      (typeShared_of_contained h hbuf hbuf' hten htype)

end Contained

end XGrey
