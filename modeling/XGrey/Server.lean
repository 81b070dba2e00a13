import XGrey.Crc32
import XGrey.EmailDomain
import XGrey.IpList
import XGrey.TupleSpace

/-!
# The Server

The greylist daemon `gld` (`server/gld.c`, `server/signals.c`): its globals, the handling
of one request, and one round of its main loop. What the daemon sends is a list of
outputs, in order.

A request is seen through the packet buffer of `struct request`, 1500 bytes that one
datagram after the other is received into. The daemon converts some fields of a packet to
host order in place, so the buffer is part of the results.

The four address lists are handled by the same code, repeated in the source for each of
them; it is written here once (`consult`, `checkAddress`, `mcpTofromList`).
-/

open CRuntime

namespace XGrey

/-! ### State and output -/

/-- The settings of `conf.h`, for a build with or without assertions. -/
def Config.default (ndebug : Bool) : Config where
  ndebug := ndebug
  poolmax := 65536
  timeoutEmbargo := 60 * 25
  timeoutGrey := 3600 * 6
  timeoutWhite := 3600 * 24 * 36
  secret := ascii "decafbad"
  timeCleanup := 60 * 5
  poolmax_pos := by decide
  secret_ne := by decide

/-- The same settings with a pool of another size. -/
def Config.withPool (cfg : Config) (n : ℕ) (h : 0 < n) : Config :=
  { cfg with poolmax := n, poolmax_pos := h }

/-- The settings with a pool of three places, in a build with assertions. -/
def smallConfig : Config := (Config.default false).withPool 3 (Nat.succ_pos 2)

/-- The globals of the server. -/
structure Server where
  /-- the tuples and their counters -/
  store : TupleSpace
  /-- `g_tree` and `g_ipcnt` -/
  iplist : IpList
  /-- `g_ip_cmdcnt` -/
  ipCmdcnt : List ℕ
  /-- `g_from` and what belongs to it -/
  fromL : AddrList
  /-- `g_fromd` and what belongs to it -/
  fromdL : AddrList
  /-- `g_to` and what belongs to it -/
  toL : AddrList
  /-- `g_tod` and what belongs to it -/
  todL : AddrList
  /-- `g_requests` -/
  requests : ℕ
  /-- `g_req_cu` -/
  reqCu : ℕ
  /-- `g_req_cucurrent` -/
  reqCucurrent : ℕ
  /-- `g_req_cumax` -/
  reqCumax : ℕ
  /-- `g_cleanup_count` -/
  cleanupCount : ℕ
  /-- `g_tuples_read_cu` -/
  tuplesReadCu : ℕ
  /-- `g_tuples_read_cumax` -/
  tuplesReadCumax : ℕ
  /-- `g_tuples_write_cu` -/
  tuplesWriteCu : ℕ
  /-- `g_tuples_write_cumax` -/
  tuplesWriteCumax : ℕ
  /-- `c_starttime` -/
  starttime : ℤ
  deriving DecidableEq

/-- The globals before any state file is read, at a start time. -/
def Server.init (cfg : Config) (starttime : ℤ) : Server where
  store := TupleSpace.init cfg
  iplist := IpList.init
  ipCmdcnt := [0, 0, 0]
  fromL := AddrList.init
  fromdL := AddrList.init
  toL := AddrList.init
  todL := AddrList.init
  requests := 0
  reqCu := 0
  reqCucurrent := 0
  reqCumax := 0
  cleanupCount := 0
  tuplesReadCu := 0
  tuplesReadCumax := 0
  tuplesWriteCu := 0
  tuplesWriteCumax := 0
  starttime := starttime

/-- `struct request`: the packet buffer, how much of it was received, the time of the
request, and what `time(NULL)` returns when the pool has to be swept for it. -/
structure Request where
  packet : List UInt8
  size : ℕ
  now : ℤ
  clock : ℤ
  /-- Not more is received than the buffer holds. -/
  size_le : size ≤ packet.length
  deriving DecidableEq

/-- `x = ntohs(x)` on a field of the packet. -/
def Request.swapField (req : Request) (off : ℕ) : Request :=
  { req with
    packet := XGrey.swapField req.packet off
    size_le := by simpa using req.size_le }

/-- A request from `10.0.0.1` with one letter for the sender and one for the recipient, as
it would be handled at a time. -/
def letterRequest (sender recipient : UInt8) (now : ℤ) : Request where
  packet := [0, 0, 0, 0, 1, 1, 0, 3, 0, 2, 0, 4, 0, 1, 0, 1, 10, 0, 0, 1, sender, recipient]
  size := 22
  now := now
  clock := now
  size_le := Nat.le_refl 22

/-- `struct greylist_response`, apart from its checksum and version. -/
structure Reply where
  /-- the two bytes of the field `MTA`, as the request had them -/
  mta : List UInt8
  type : Cmd
  response : ℤ
  why : Reason
  deriving DecidableEq

/-- What the server sends. -/
inductive Output
  /-- `send_reply` -/
  | reply (r : Reply)
  /-- `send_packet`, the bytes behind the checksum -/
  | packet (body : List UInt8)
  deriving DecidableEq

/-- `send_reply` -/
def sendReply (ndebug : Bool) (req : Request) (type : Cmd) (response : ℤ) (why : Reason) :
    Exec (List Output) := do
  cassert ndebug (response ≥ 0)
  .ok [.reply { mta := (req.packet.drop 6).take 2, type := type, response := response
                why := why }]

/-- `cnt[cmd]++` -/
def bump (cnt : List ℕ) (cmd : ℤ) : Exec (List ℕ) :=
  if 0 ≤ cmd ∧ cmd < cnt.length then
    .ok (cnt.set cmd.toNat (cnt.getD cmd.toNat 0 + 1))
  else
    .error .subscript

/-- `memcpy` of `n` bytes from an offset of a packet into a field of `cap` bytes. -/
def memcpyField (packet : List UInt8) (off n cap : ℕ) : Exec (List UInt8) :=
  if off + n ≤ packet.length ∧ n ≤ cap then .ok ((packet.drop off).take n)
  else .error .memory

/-! ### Decoding a request -/

/-- The tuple that `greylist_sanitize_req` makes from the fields of a request. -/
def requestTuple (ndebug : Bool) (now : ℤ) (ip sender recipient : List UInt8)
    (ipsize fromsize tosize : ℕ) : Tuple where
  ctime := now
  atime := now
  fromsize := min 107 fromsize
  tosize := min 107 tosize
  pad := if ndebug then 0 else decafbad
  f := (if min 107 fromsize < fromsize then fTruncfrom else 0#32) |||
    (if min 107 tosize < tosize then fTruncto else 0#32) |||
    (if ipsize = 16 then fIPv6 else 0#32)
  ip := buffer 16 ip
  fromText := buffer 108 sender
  toText := buffer 108 recipient
  fromsize_le := Nat.min_le_left ..
  tosize_le := Nat.min_le_left ..

/-- `greylist_sanitize_req`: the tuple of a request, or what was sent instead. -/
def greylistSanitizeReq (cfg : Config) (req : Request) :
    Exec (Request × (List Output ⊕ Tuple)) := do
  let ipsize := ntohs req.packet 10
  let fromsize := ntohs req.packet 12
  let tosize := ntohs req.packet 14
  let req := ((req.swapField 10).swapField 12).swapField 14
  if ipsize ≠ 4 ∧ ipsize ≠ 16 then
    let out ← sendReply cfg.ndebug req .noneResp Glerr.badData.code .none
    .ok (req, .inl out)
  else
    let rsize := ipsize + fromsize + tosize + 20 - 4
    if rsize > req.size then
      let out ← sendReply cfg.ndebug req .noneResp Glerr.badData.code .none
      .ok (req, .inl out)
    else
      let ip ← memcpyField req.packet 16 ipsize 16
      let sender ← memcpyField req.packet (16 + ipsize) (min 107 fromsize) 108
      let recipient ← memcpyField req.packet (16 + ipsize + fromsize) (min 107 tosize) 108
      .ok (req, .inr (requestTuple cfg.ndebug req.now ip sender recipient ipsize fromsize
        tosize))

/-! ### The filter -/

/-- One lookup of `type_greylist` in an address list: whether there is an entry, and its
command or that of the default, which is counted. -/
def consult (l : AddrList) (text : List UInt8) : Exec ((Bool × ℤ) × AddrList) :=
  match (edomainSearch text l.entries).1 with
  | some i => do
      let value := l.entries.getD i default
      let l := { l with entries := l.entries.set i { value with count := value.count + 1 } }
      let cmdcnt ← bump l.cmdcnt value.cmd
      .ok ((true, value.cmd), { l with cmdcnt := cmdcnt })
  | none => do
      let l := { l with dfltc := l.dfltc + 1 }
      let cmdcnt ← bump l.cmdcnt l.dflt
      .ok ((false, l.dflt), { l with cmdcnt := cmdcnt })

/-- The stages for one address: the address itself and then its domain, unless the address
has an entry of its own. The result is the verdict with its reason, if there is one. -/
def checkAddress (addr dom : AddrList) (mem : List UInt8) (why whyDomain : Reason) :
    Exec (Option (ℤ × Reason) × AddrList × AddrList) := do
  let text ← cstring mem
  let ((explicit, cmd), addr) ← consult addr text
  if cmd ≠ Ift.greylist then .ok (some (cmd, why), addr, dom)
  else if explicit then .ok (none, addr, dom)
  else
    match strchr text 64 with
    | none => .ok (none, addr, dom)
    | some at' => do
        let ((_, cmd), dom) ← consult dom at'.tail
        if cmd ≠ Ift.greylist then .ok (some (cmd, whyDomain), addr, dom)
        else .ok (none, addr, dom)

/-- `type_greylist`, where `cmd` is the type of the request and `response` that of the
reply. -/
def typeGreylist (cfg : Config) (srv : Server) (req : Request) (cmd response : Cmd) :
    Exec (List Output × Server × Request) := do
  let (req, sane) ← greylistSanitizeReq cfg req
  match sane with
  | .inl out => .ok (out, srv, req)
  | .inr tuple => do
      let srv := { srv with
        requests := srv.requests + 1
        reqCucurrent := srv.reqCucurrent + 1 }
      let (rc, tree) ← ipMatch cfg.ndebug srv.iplist.tree tuple.ip.toList
      let ipCmdcnt ← bump srv.ipCmdcnt rc
      let srv := { srv with
        iplist := { srv.iplist with tree := tree }
        ipCmdcnt := ipCmdcnt }
      if rc ≠ Ift.greylist then
        let out ← sendReply cfg.ndebug req response rc .ip
        .ok (out, srv, req)
      else
        let (verdict, addr, dom) ←
          checkAddress srv.fromL srv.fromdL tuple.fromText.toList .sender .senderDomain
        let srv := { srv with fromL := addr, fromdL := dom }
        match verdict with
        | some (rc, why) => do
            let out ← sendReply cfg.ndebug req response rc why
            .ok (out, srv, req)
        | none => do
            let (verdict, addr, dom) ←
              checkAddress srv.toL srv.todL tuple.toText.toList .recipient .recipientDomain
            let srv := { srv with toL := addr, todL := dom }
            match verdict with
            | some (rc, why) => do
                let out ← sendReply cfg.ndebug req response rc why
                .ok (out, srv, req)
            | none => do
                let ((rc, why), store) ←
                  typeGreylistCheckTuple cfg srv.store tuple cmd req.now req.clock
                let out ← sendReply cfg.ndebug req response rc why
                .ok (out, { srv with store := store }, req)

/-- `type_tuple_remove` -/
def typeTupleRemove (cfg : Config) (srv : Server) (req : Request) :
    Exec (List Output × Server × Request) := do
  let (req, sane) ← greylistSanitizeReq cfg req
  match sane with
  | .inl out => .ok (out, srv, req)
  | .inr tuple => do
      let srv := { srv with store := tupleRemove srv.store tuple }
      let out ← sendReply cfg.ndebug req .tupleRemoveResp 0 .greylist
      .ok (out, srv, req)

/-! ### Commands of the control program -/

/-- What `cmd_mcp_tofrom` does to the list that the command is for. -/
def mcpTofromList (ndebug : Bool) (l : AddrList) (text : List UInt8) (cmd : ℤ) :
    Exec AddrList :=
  if text = ascii "default" ∨ text = ascii "DEFAULT" then
    .ok (if cmd ≠ Ift.remove then { l with dflt := cmd, dfltc := 0 } else l)
  else
    match edomainSearch text l.entries with
    | (none, index) =>
        if cmd ≠ Ift.remove then
          edomainAdd ndebug l { text := text, count := 0, cmd := cmd } index
        else .ok l
    | (some i, index) =>
        if cmd = Ift.remove then edomainRemove ndebug l index
        else
          let value := l.entries.getD i default
          .ok { l with entries := l.entries.set i { value with cmd := cmd, count := 0 } }

/-- `cmd_mcp_tofrom`. The text of the packet is read up to its terminator. -/
def cmdMcpTofrom (cfg : Config) (srv : Server) (req : Request) (cmd resp : Cmd) :
    Exec (List Output × Server × Request) := do
  let text ← cstring (req.packet.drop 14)
  let ift : ℤ := ntohs req.packet 10
  let srv ← match cmd with
    | .mcpTo => do
        let l ← mcpTofromList cfg.ndebug srv.toL text ift
        .ok { srv with toL := l }
    | .mcpToDomain => do
        let l ← mcpTofromList cfg.ndebug srv.todL text ift
        .ok { srv with todL := l }
    | .mcpFrom => do
        let l ← mcpTofromList cfg.ndebug srv.fromL text ift
        .ok { srv with fromL := l }
    | .mcpFromDomain => do
        let l ← mcpTofromList cfg.ndebug srv.fromdL text ift
        .ok { srv with fromdL := l }
    | _ => do
        cassert cfg.ndebug False
        .ok srv
  let out ← sendReply cfg.ndebug req resp 0 .none
  .ok (out, srv, req)

/-- The branch of the main loop for `CMD_MCP_IPLIST`. -/
def cmdMcpIplist (cfg : Config) (srv : Server) (req : Request) :
    Exec (List Output × Server × Request) := do
  let cmd : ℤ := ntohs req.packet 10
  let mask : ℤ := ntohs req.packet 14
  if ntohs req.packet 12 ≠ 4 then
    let out ← sendReply cfg.ndebug req .noneResp Glerr.ipaddrNotSupported.code .none
    .ok (out, srv, req)
  else
    let iplist ← ipAddSm cfg.ndebug srv.iplist (req.packet.drop 16) mask cmd
    let out ← sendReply cfg.ndebug req .mcpIplistResp 0 .none
    .ok (out, { srv with iplist := iplist }, req)

/-- `cmd_mcp_report`, as far as the datagram socket is concerned: the parent process goes
on, and the child announces the report unless there is no socket or process for it. -/
def cmdMcpReport (cfg : Config) (srv : Server) (req : Request) (canReport : Bool)
    (resp : Cmd) : Exec (List Output × Server × Request) := do
  let out ←
    if canReport then sendReply cfg.ndebug req resp 0 .none
    else sendReply cfg.ndebug req .noneResp Glerr.cantGenerateReport.code .none
  .ok (out, srv, req)

/-- A number of any size as a 32-bit field. -/
def htonlInt (n : ℤ) : List UInt8 := htonl (n % 4294967296).toNat

/-- The header of an answer to the control program, behind the checksum. -/
def mcpHeader (req : Request) (type : Cmd) : List UInt8 :=
  htons version ++ (req.packet.drop 6).take 2 ++ htons type.code ++ htons 0

/-- What `show stats` reports about an address list. -/
def listStats (l : AddrList) : List ℤ :=
  ((l.entries.length + 1 : ℕ) : ℤ) :: l.cmdcnt.map Int.ofNat

/-- `ave`, the number of requests in a period between two regular cleanups, rounded. -/
def Server.requestsAverage (srv : Server) : ℕ :=
  if srv.cleanupCount = 0 then 0
  else (2 * (srv.requests - srv.reqCucurrent) + srv.cleanupCount) / (2 * srv.cleanupCount)

/-- The numbers in `struct glmcp_response_show_stats`. -/
def Server.statsFields (srv : Server) (now : ℤ) : List ℤ :=
  let s := srv.store
  [srv.starttime, now, Int.ofNat s.poolnum, srv.iplist.ipcnt] ++
    srv.ipCmdcnt.map Int.ofNat ++
    [Int.ofNat s.greylisted, s.whitelisted] ++
    [s.greylistExpired, s.whitelistExpired, srv.requests, srv.reqCu, srv.reqCumax,
      srv.requestsAverage].map Int.ofNat ++
    listStats srv.fromL ++ listStats srv.fromdL ++ listStats srv.toL ++ listStats srv.todL ++
    [s.tuplesRead, srv.tuplesReadCu, srv.tuplesReadCumax, 0, s.tuplesWrite,
      srv.tuplesWriteCu, srv.tuplesWriteCumax, 0, s.tuplesLow, s.tuplesHigh].map Int.ofNat

/-- The fields of `struct glmcp_response_show_stats`. -/
def statsBody (srv : Server) (req : Request) : List UInt8 :=
  mcpHeader req .mcpShowStatsResp ++ (srv.statsFields req.now).flatMap htonlInt

/-- The fields of `struct glmcp_response_show_config`. -/
def configBody (cfg : Config) (req : Request) : List UInt8 :=
  let fields : List ℤ :=
    [Int.ofNat cfg.poolmax, Int.ofNat cfg.timeCleanup, cfg.timeoutEmbargo.floor,
      cfg.timeoutGrey.floor, cfg.timeoutWhite.floor]
  mcpHeader req .mcpShowConfigResp ++ fields.flatMap htonlInt

/-! ### The main loop -/

/-- The `switch` of the main loop, on the type of the request. -/
def dispatch (cfg : Config) (srv : Server) (req : Request) (canReport : Bool) :
    Option Cmd → Exec (List Output × Server × Request)
  | some .none => do
      let out ← sendReply cfg.ndebug req .noneResp Glerr.okay.code .none
      .ok (out, srv, req)
  | some .greylist => typeGreylist cfg srv req .greylist .greylistResp
  | some .whitelist => typeGreylist cfg srv req .whitelist .whitelistResp
  | some .tupleRemove => typeTupleRemove cfg srv req
  | some .mcpShowStats => .ok ([.packet (statsBody srv req)], srv, req)
  | some .mcpShowConfig => .ok ([.packet (configBody cfg req)], srv, req)
  | some .mcpShowIplist => cmdMcpReport cfg srv req canReport .mcpShowIplistResp
  | some .mcpShowTuple => cmdMcpReport cfg srv req canReport .mcpShowTupleResp
  | some .mcpShowTupleAll => cmdMcpReport cfg srv req canReport .mcpShowTupleAllResp
  | some .mcpShowWhitelist => cmdMcpReport cfg srv req canReport .mcpShowWhitelistResp
  | some .mcpShowTo => cmdMcpReport cfg srv req canReport .mcpShowToResp
  | some .mcpShowToDomain => cmdMcpReport cfg srv req canReport .mcpShowToDomainResp
  | some .mcpShowFrom => cmdMcpReport cfg srv req canReport .mcpShowFromResp
  | some .mcpShowFromDomain => cmdMcpReport cfg srv req canReport .mcpShowFromDomainResp
  | some .mcpIplist => cmdMcpIplist cfg srv req
  | some .mcpTo => cmdMcpTofrom cfg srv req .mcpTo .mcpToResp
  | some .mcpToDomain => cmdMcpTofrom cfg srv req .mcpToDomain .mcpToDomainResp
  | some .mcpFrom => cmdMcpTofrom cfg srv req .mcpFrom .mcpFromResp
  | some .mcpFromDomain => cmdMcpTofrom cfg srv req .mcpFromDomain .mcpFromDomainResp
  | _ => do
      let out ← sendReply cfg.ndebug req .noneResp Glerr.typeNotSupported.code .none
      .ok (out, srv, req)

/-- A datagram as the main loop receives it, with what the environment adds: the time, the
time at a sweep for it, and whether a report could be generated. -/
structure Datagram where
  data : List UInt8
  now : ℤ
  clock : ℤ
  canReport : Bool

/-- `recvfrom` into the packet buffer: the datagram is cut to 1500 bytes and overwrites
the front of what was there. -/
def recvfrom (buf data : List UInt8) : List UInt8 × ℕ :=
  (data.take 1500 ++ buf.drop (data.take 1500).length, (data.take 1500).length)

/-- The request that a datagram makes of the packet buffer. -/
def Datagram.request (buf : List UInt8) (d : Datagram) : Request where
  packet := (recvfrom buf d.data).1
  size := (recvfrom buf d.data).2
  now := d.now
  clock := d.clock
  size_le := by simp [recvfrom]

/-- The size that the main loop hands to `crc32`, a difference of type `size_t`. -/
def Request.crcSize (req : Request) : ℕ := sizeT (req.size - 4)

/-- The checksum that the main loop computes for a packet. -/
def Request.crc (cfg : Config) (req : Request) : Exec UInt32 := do
  let crc ← crc32 cfg.ndebug initCrc32 (req.packet.drop 4) req.crcSize
  crc32 cfg.ndebug crc cfg.secret cfg.secret.length

/-- One round of the main loop of `gld`, from a packet buffer to the next. -/
def gldRecv (cfg : Config) (srv : Server) (buf : List UInt8) (d : Datagram) :
    Exec (List Output × Server × List UInt8) := do
  let req := d.request buf
  let crc ← req.crc cfg
  if crc.toNat ≠ ntohl req.packet 0 then
    .ok ([], srv, req.packet)
  else if ntohs req.packet 4 > version then do
    let out ← sendReply cfg.ndebug req .noneResp Glerr.versionNotSupported.code .none
    .ok (out, srv, req.packet)
  else do
    let type := ntohs req.packet 8
    let req := req.swapField 8
    let (out, srv, req) ← dispatch cfg srv req d.canReport (Cmd.ofCode type)
    .ok (out, srv, req.packet)

/-! ### Signals -/

/-- `handle_sigalrm`, the regular cleanup. Saving the state is left to a child process. -/
def handleSigalrm (cfg : Config) (srv : Server) (now : ℤ) : Exec Server := do
  let store := { srv.store with tuplesReadCucurrent := 0, tuplesWriteCucurrent := 0 }
  let store ← tupleExpire cfg store now
  .ok { srv with
    store := store
    cleanupCount := srv.cleanupCount + 1
    reqCu := srv.reqCucurrent
    reqCucurrent := 0
    reqCumax := max srv.reqCumax srv.reqCucurrent
    tuplesReadCu := srv.store.tuplesReadCucurrent
    tuplesReadCumax := max srv.tuplesReadCumax srv.store.tuplesReadCucurrent
    tuplesWriteCu := srv.store.tuplesWriteCucurrent
    tuplesWriteCumax := max srv.tuplesWriteCumax srv.store.tuplesWriteCucurrent }

/-- `handle_sigusr2`, a cleanup on demand. -/
def handleSigusr2 (cfg : Config) (srv : Server) (now : ℤ) : Exec Server := do
  let store ← tupleExpire cfg srv.store now
  .ok { srv with store := store }

end XGrey
