import XGrey.RuleFiles
import XGrey.ServerRun

/-!
# What a Request Can Do

The main loop has a branch for each type of request. `RequestStep` lists what the branches
do to the state of the server, with what was checked on the way; whoever wants to know what
a request keeps looks there and not into `dispatch`.

## Main results

* `dispatch_inv`: a request of any type that returns did one of these things.
-/

open CRuntime PrefixMap

namespace XGrey

/-- What a request of some type can do to the server. -/
inductive RequestStep (cfg : Config) (srv : Server) (req : Request) :
    Option Cmd → Server → Prop
  /-- It is answered with an error, or asks for something to be shown. -/
  | same (type : Option Cmd) : RequestStep cfg srv req type srv
  /-- It is answered with a verdict: the client is looked up, and the tuple unless a rule
  decides. -/
  | check (whitelist : Bool) (srv' : Server) (hacc : req.Accepts) (rc : ℤ)
      (tree : BinTrie IpNode)
      (hmatch : ipMatch cfg.ndebug srv.iplist.tree (req.tuple cfg).ip.toList = .ok (rc, tree))
      (hiplist : srv'.iplist = { srv.iplist with tree := tree })
      (hstore : srv'.store = srv.store ∨ ∃ r, typeGreylistCheckTuple cfg srv.store
        (req.tuple cfg) (checkCmd whitelist) req.now req.clock = .ok (r, srv'.store)) :
      RequestStep cfg srv req (some (checkCmd whitelist)) srv'
  /-- It marks a tuple for removal. -/
  | remove (hacc : req.Accepts) :
      RequestStep cfg srv req (some .tupleRemove)
        { srv with store := tupleRemove srv.store (req.tuple cfg) }
  /-- It changes the rules on client addresses. -/
  | iplist (l : IpList) (hsize : ntohs req.packet 12 = 4)
      (hok : ipAddSm cfg.ndebug srv.iplist (req.packet.drop 16) (ntohs req.packet 14)
        (ntohs req.packet 10) = .ok l) :
      RequestStep cfg srv req (some .mcpIplist) { srv with iplist := l }
  /-- It changes the rules of an address list. -/
  | tofrom (name : ListName) (text : List UInt8) (l : AddrList)
      (htext : cstring (req.packet.drop 14) = .ok text)
      (hok : mcpTofromList cfg.ndebug (srv.list name) text (ntohs req.packet 10) = .ok l) :
      RequestStep cfg srv req (some name.cmd) (srv.setList l name)

section Inversion

variable {cfg : Config} {srv srv' : Server} {req req' : Request} {out : List Output}

/-- A reply does nothing to the server. -/
theorem reply_srv {type : Cmd} {response : ℤ} {why : Reason} {srv₀ : Server}
    (h : (do
      let out ← sendReply cfg.ndebug req type response why
      .ok (out, srv₀, req)) = (.ok (out, srv', req') : Exec _)) : srv' = srv₀ := by
  obtain ⟨out', -, h⟩ := bind_eq_ok.mp h
  cases h
  rfl

theorem typeGreylist_step (whitelist : Bool)
    (h : typeGreylist cfg srv req (checkCmd whitelist) (checkResp whitelist) =
      .ok (out, srv', req')) :
    RequestStep cfg srv req (some (checkCmd whitelist)) srv' := by
  by_cases hacc : req.Accepts
  · obtain ⟨-, ⟨rc₀, tree, hmatch, hiplist⟩, rc, why, -, hstore⟩ := typeGreylist_inv hacc h
    refine .check whitelist srv' hacc rc₀ tree hmatch hiplist ?_
    exact hstore.imp And.left fun hcheck => ⟨(rc, why), hcheck⟩
  · rw [typeGreylist_of_not_accepts cfg srv hacc] at h
    cases h
    exact .same _

theorem typeTupleRemove_step (h : typeTupleRemove cfg srv req = .ok (out, srv', req')) :
    RequestStep cfg srv req (some .tupleRemove) srv' := by
  by_cases hacc : req.Accepts
  · rw [typeTupleRemove_of_accepts cfg srv hacc] at h
    cases h
    exact .remove hacc
  · rw [typeTupleRemove, greylistSanitizeReq_of_not_accepts cfg hacc] at h
    cases h
    exact .same _

theorem cmdMcpIplist_step (h : cmdMcpIplist cfg srv req = .ok (out, srv', req')) :
    RequestStep cfg srv req (some .mcpIplist) srv' := by
  rw [cmdMcpIplist] at h
  by_cases hsize : ntohs req.packet 12 ≠ 4
  · rw [if_pos hsize] at h
    rw [reply_srv h]
    exact .same _
  · rw [if_neg hsize] at h
    obtain ⟨l, hok, h⟩ := bind_eq_ok.mp h
    rw [reply_srv h]
    exact .iplist l (not_not.mp hsize) hok

theorem cmdMcpTofrom_step (name : ListName) {resp : Cmd}
    (h : cmdMcpTofrom cfg srv req name.cmd resp = .ok (out, srv', req')) :
    RequestStep cfg srv req (some name.cmd) srv' := by
  rw [cmdMcpTofrom_eq] at h
  obtain ⟨text, htext, h⟩ := bind_eq_ok.mp h
  obtain ⟨l, hok, h⟩ := bind_eq_ok.mp h
  rw [reply_srv h]
  exact .tofrom name text l htext hok

theorem cmdMcpReport_step {canReport : Bool} {type : Option Cmd} {resp : Cmd}
    (h : cmdMcpReport cfg srv req canReport resp = .ok (out, srv', req')) :
    RequestStep cfg srv req type srv' := by
  have hsrv : srv' = srv := by
    rw [cmdMcpReport] at h
    cases canReport with
    | true => exact reply_srv h
    | false => exact reply_srv h
  rw [hsrv]
  exact .same _

/-- **A request of any type**, if it returns. -/
theorem dispatch_inv {canReport : Bool} {type : Option Cmd}
    (h : dispatch cfg srv req canReport type = .ok (out, srv', req')) :
    RequestStep cfg srv req type srv' := by
  rw [dispatch.eq_def] at h
  split at h
  · rw [reply_srv h]
    exact .same _
  · exact typeGreylist_step false h
  · exact typeGreylist_step true h
  · exact typeTupleRemove_step h
  · cases h
    exact .same _
  · cases h
    exact .same _
  · exact cmdMcpReport_step h
  · exact cmdMcpReport_step h
  · exact cmdMcpReport_step h
  · exact cmdMcpReport_step h
  · exact cmdMcpReport_step h
  · exact cmdMcpReport_step h
  · exact cmdMcpReport_step h
  · exact cmdMcpReport_step h
  · exact cmdMcpIplist_step h
  · exact cmdMcpTofrom_step .toL h
  · exact cmdMcpTofrom_step .todL h
  · exact cmdMcpTofrom_step .fromL h
  · exact cmdMcpTofrom_step .fromdL h
  · rw [reply_srv h]
    exact .same _

end Inversion

end XGrey
