import XGrey.RuleFiles
import XGrey.ServerRun
import XGrey.Verdicts

/-!
# Runs of Rule Changes

The whole server as a machine (`Action`): the state files at startup, requests of every
type, with those of the control program among them, and the signals. The rules are
changed on five paths: the two loaders, the packets for client addresses, and the packets
for the address lists and for their defaults.

Each path has a check of its own for the command that it installs, and none of them is
complete. `EXPIRE` passes all of them, and the loader of the address lists accepts a word
that is not in the table. `Action.Fine` says when a step of the server brings no such
command.

## Main results

* `actionStep_guarantees`: one step.
* `run_verdicts`: every run of fine steps stays inside the counters and answers with
  verdicts.
* `run_not_verdicts`: one packet with `EXPIRE` is enough to leave them.
-/

open CRuntime StepRun PrefixMap

namespace XGrey

/-! ### The rule files -/

/-- A line of an address file installs a verdict, if it installs anything. -/
def TofromLine.Fine (l : AddrList) : TofromLine → Prop
  | .blank => True
  | .bad => True
  | .dflt cmd => IsVerdict cmd
  | .rule text cmd => (edomainSearch text l.entries).1 = none → IsVerdict cmd

/-- Every line that is read of an address file installs a verdict, if it installs
anything. -/
def TofromFine (cgi : CgiLib) (ndebug : Bool) : AddrList → List (List UInt8) → Prop
  | _, [] => True
  | l, linebuff :: lines =>
      ∀ line, tofromLine cgi linebuff = .ok line → line.Fine l ∧
        ∀ l', tofromAdd ndebug l line = .ok l' → linebuff.getLast? = some 10 →
          line ≠ .blank → TofromFine cgi ndebug l' lines

/-- Every rule that is read of the file of client addresses has a command that may be
installed. -/
def IplistFine (cgi : CgiLib) (ndebug : Bool) :
    IpList → List UInt8 → List (List UInt8) → Prop
  | _, _, [] => True
  | l, ip, linebuff :: lines =>
      ∀ line ip', iplistLine cgi ip linebuff = .ok (line, ip') →
        match line with
        | .blank => IplistFine cgi ndebug l ip' lines
        | .bad => True
        | .rule mask cmd => (0 ≤ mask → Installs cmd) ∧
            ∀ l', ipAddSm ndebug l ip' mask cmd = .ok l' → IplistFine cgi ndebug l' ip' lines

/-- A line of an address file keeps a list of verdicts. -/
theorem tofromAdd_guarantees (ndebug : Bool) {l : AddrList} (h : l.Guarded)
    {line : TofromLine} (hline : line.Fine l) :
    Guarantees (tofromAdd ndebug l line) AddrList.Guarded InsideCounters := by
  cases line with
  | blank => exact guarantees_ok h
  | bad => exact guarantees_ok h
  | dflt cmd => exact guarantees_ok ⟨⟨h.entries, hline⟩, h.length_cmdcnt⟩
  | rule text cmd =>
      rw [tofromAdd]
      cases hsearch : edomainSearch text l.entries with
      | mk stored idx =>
          cases stored with
          | none =>
              have hcmd : IsVerdict cmd := hline (by rw [hsearch])
              exact edomainAdd_guarantees ndebug h hcmd idx
          | some i => exact guarantees_ok h

/-- Taking a line apart fails only by running out of memory. -/
theorem split_error {txt : List UInt8} {e : Fault} (h : split txt = .error e) :
    e = .memory := by
  rw [split] at h
  cases hloop : splitLoop txt with
  | nil =>
      rw [hloop] at h
      cases h
      rfl
  | cons field fields =>
      rw [hloop] at h
      cases h

theorem tofromLine_error {cgi : CgiLib} {linebuff : List UInt8} {e : Fault}
    (h : tofromLine cgi linebuff = .error e) : e = .memory := by
  rw [tofromLine] at h
  dsimp only at h
  by_cases hempty : cgi.emptyString linebuff = true
  · rw [if_pos hempty] at h
    cases h
  rw [if_neg hempty] at h
  by_cases hcomment : (cgi.trimSpace linebuff).head? = some 35
  · rw [if_pos hcomment] at h
    cases h
  rw [if_neg hcomment] at h
  refine bind_error_eq (fun e => split_error) (fun fields e h => ?_) h
  match fields with
  | [] => cases h
  | [_] => cases h
  | [_, _] => cases h
  | _ :: name :: text :: _ =>
      dsimp only at h
      split_ifs at h

/-- **An address file** keeps a list of verdicts. -/
theorem tofromReadStream_guarantees (cgi : CgiLib) (ndebug : Bool) {l : AddrList}
    (h : l.Guarded) (held : Bool) {lines : List (List UInt8)}
    (hfine : held = true → TofromFine cgi ndebug l lines) :
    Guarantees (tofromReadStream cgi ndebug l held lines) AddrList.Guarded
      InsideCounters := by
  induction lines generalizing l held with
  | nil =>
      rw [tofromReadStream]
      split_ifs
      · exact guarantees_ok h
      · exact guarantees_error fun h => by cases h
  | cons linebuff lines ih =>
      rw [tofromReadStream]
      by_cases hheld : held = true
      · rw [if_pos hheld]
        refine (guarantees_of_memory fun e => tofromLine_error).bind fun line hline => ?_
        obtain ⟨hadd, hrest⟩ := hfine hheld line hline
        have hadded := tofromAdd_guarantees ndebug h hadd
        have hsame := guarantees_self hadded.error
        refine hsame.bind fun l' hl' => ?_
        split_ifs with hnewline
        · refine ih (hadded.ok l' hl') _ fun hblank => ?_
          exact hrest l' hl' hnewline (of_decide_eq_true hblank)
        · exact guarantees_ok (hadded.ok l' hl')
      · rw [if_neg hheld]
        exact guarantees_error fun h => by cases h

theorem iplistOctets_error {n k : ℕ} {ip tline : List UInt8} {e : Fault}
    (h : iplistOctets n k ip tline = .error e) : e = .memory := by
  induction n generalizing k ip tline e with
  | zero => cases h
  | succ n ih =>
      rw [iplistOctets] at h
      refine bind_error_eq (fun e => strtoul_error) (fun r e h => ?_) h
      obtain ⟨octet, tline'⟩ := r
      dsimp only at h
      cases tline' with
      | nil =>
          cases h
          rfl
      | cons c rest =>
          dsimp only at h
          by_cases hend : c = 0 ∨ c = 47
          · rw [if_pos hend] at h
            cases h
          rw [if_neg hend] at h
          by_cases hdot : c ≠ 46
          · rw [if_pos hdot] at h
            cases h
          rw [if_neg hdot] at h
          exact ih h

theorem iplistMask_error {tline : List UInt8} {e : Fault}
    (h : iplistMask tline = .error e) : e = .memory := by
  rw [iplistMask] at h
  by_cases hslash : tline.head? = some 47
  · rw [if_pos hslash] at h
    refine bind_error_eq (fun e => strtoul_error) (fun r e h => ?_) h
    cases h
  · rw [if_neg hslash] at h
    cases h

theorem iplistLine_error {cgi : CgiLib} {ip linebuff : List UInt8} {e : Fault}
    (h : iplistLine cgi ip linebuff = .error e) : e = .memory := by
  rw [iplistLine] at h
  dsimp only at h
  by_cases hempty : cgi.emptyString (cgi.trimSpace linebuff) = true
  · rw [if_pos hempty] at h
    cases h
  rw [if_neg hempty] at h
  refine bind_error_eq (fun e => split_error) (fun tokens e h => ?_) h
  by_cases hdigit : isdigit ((tokens.headD []).headD 0) = true
  · rw [if_neg (not_not.mpr hdigit)] at h
    refine bind_error_eq (fun e => iplistOctets_error) (fun found e h => ?_) h
    cases found with
    | none => cases h
    | some r =>
        obtain ⟨ip', tline⟩ := r
        refine bind_error_eq (fun e => iplistMask_error) (fun mask e h => ?_) h
        by_cases hmask : mask > 32
        · rw [if_pos hmask] at h
          cases h
        · rw [if_neg hmask] at h
          cases hname : tokens[1]? with
          | none =>
              rw [hname] at h
              cases h
              rfl
          | some name =>
              rw [hname] at h
              dsimp only at h
              split_ifs at h
  · rw [if_pos hdigit] at h
    cases h

/-- **The file of client addresses** keeps a tree of verdicts. -/
theorem iplistRead_guarantees (cgi : CgiLib) (ndebug : Bool) {l : IpList}
    (h : IpGuarded l.tree) (ip : List UInt8) {lines : List (List UInt8)}
    (hfine : IplistFine cgi ndebug l ip lines) :
    Guarantees (iplistRead cgi ndebug l ip lines) (fun r => IpGuarded r.1.tree)
      InsideCounters := by
  induction lines generalizing l ip with
  | nil => exact guarantees_ok h
  | cons linebuff lines ih =>
      rw [iplistRead]
      refine (guarantees_of_memory fun e => iplistLine_error).bind ?_
      rintro ⟨line, ip'⟩ hline
      have hstep := hfine line ip' hline
      cases line with
      | blank => exact ih h ip' hstep
      | bad => exact guarantees_ok h
      | rule mask cmd =>
          obtain ⟨hcmd, hrest⟩ := hstep
          have hadded := ipAddSm_guarantees ndebug h ip' fun hmask _ => hcmd hmask
          have hsame := guarantees_self hadded.error
          refine hsame.bind fun l' hl' => ?_
          exact ih (hadded.ok l' hl') ip' (hrest l' hl')

/-! ### The server -/

/-- What the server does, from startup on. -/
inductive Action
  /-- `iplist_read`, with what the buffer for the address holds at its beginning -/
  | iplistRead (ip : List UInt8) (lines : List (List UInt8))
  /-- `whitelist_load` -/
  | whitelistLoad (now : ℤ) (lines : List WhiteLine)
  /-- `to_read` and its like -/
  | tofromRead (name : ListName) (lines : List (List UInt8))
  /-- the branch of the main loop for a request of any type -/
  | request (req : Request) (canReport : Bool) (type : Option Cmd)
  /-- `SIGALRM` -/
  | sigalrm (now : ℤ)
  /-- `SIGUSR2` -/
  | sigusr2 (now : ℤ)

/-- One of them. -/
def actionStep (cgi : CgiLib) (cfg : Config) (srv : Server) :
    Action → Exec (Server × List Output)
  | .iplistRead ip lines => do
      let (iplist, _) ← iplistRead cgi cfg.ndebug srv.iplist ip lines
      .ok ({ srv with iplist := iplist }, [])
  | .whitelistLoad now lines => do
      let store ← whitelistLoad cgi cfg now srv.store lines
      .ok ({ srv with store := store }, [])
  | .tofromRead name lines => do
      let srv ← tofromRead cgi cfg.ndebug srv name lines
      .ok (srv, [])
  | .request req canReport type => do
      let (out, srv, _) ← dispatch cfg srv req canReport type
      .ok (srv, out)
  | .sigalrm now => do
      let srv ← handleSigalrm cfg srv now
      .ok (srv, [])
  | .sigusr2 now => do
      let srv ← handleSigusr2 cfg srv now
      .ok (srv, [])

/-- What one of them does to the server, if it returns. The two signals sweep the same
tuples; `SIGALRM` resets counters before. -/
inductive ActionStep (cgi : CgiLib) (cfg : Config) (srv : Server) : Action → Server → Prop
  | iplistRead (ip : List UInt8) (lines : List (List UInt8)) (l : IpList) (whole : Bool)
      (hread : iplistRead cgi cfg.ndebug srv.iplist ip lines = .ok (l, whole)) :
      ActionStep cgi cfg srv (.iplistRead ip lines) { srv with iplist := l }
  | whitelistLoad (now : ℤ) (lines : List WhiteLine) (s : TupleSpace)
      (hlines : lines.foldlM (whitelistLoadLine cgi cfg now) srv.store = .ok s) :
      ActionStep cgi cfg srv (.whitelistLoad now lines) { srv with store := whitelistLoaded s }
  | tofromRead (name : ListName) (lines : List (List UInt8)) (l : AddrList)
      (hread : tofromReadStream cgi cfg.ndebug (srv.list name) true lines = .ok l) :
      ActionStep cgi cfg srv (.tofromRead name lines) (srv.setList l name)
  | request (req : Request) (canReport : Bool) (type : Option Cmd) (srv' : Server)
      (out : List Output) (req' : Request)
      (hdispatch : dispatch cfg srv req canReport type = .ok (out, srv', req')) :
      ActionStep cgi cfg srv (.request req canReport type) srv'
  | sweep (a : Action) (now : ℤ) (ha : a = .sigalrm now ∨ a = .sigusr2 now) (srv' : Server)
      (s : TupleSpace) (hspace : s.tuplespace = srv.store.tuplespace)
      (hnum : s.poolnum = srv.store.poolnum) (hpool : s.pool = srv.store.pool)
      (hexpire : tupleExpire cfg s now = .ok srv'.store) (hiplist : srv'.iplist = srv.iplist)
      (hcnt : srv'.ipCmdcnt = srv.ipCmdcnt) (hlist : srv'.list = srv.list) :
      ActionStep cgi cfg srv a srv'

theorem actionStep_inv {cgi : CgiLib} {cfg : Config} {srv srv' : Server} {a : Action}
    {out : List Output} (hok : actionStep cgi cfg srv a = .ok (srv', out)) :
    ActionStep cgi cfg srv a srv' := by
  cases a with
  | iplistRead ip lines =>
      obtain ⟨⟨l, whole⟩, hread, hok⟩ := bind_eq_ok.mp hok
      cases hok
      exact .iplistRead ip lines l whole hread
  | whitelistLoad now lines =>
      obtain ⟨store, hload, hok⟩ := bind_eq_ok.mp hok
      cases hok
      obtain ⟨s, hlines, hload⟩ := bind_eq_ok.mp hload
      cases hload
      exact .whitelistLoad now lines s hlines
  | tofromRead name lines =>
      obtain ⟨srv₁, hlist, hok⟩ := bind_eq_ok.mp hok
      cases hok
      obtain ⟨l, hread, hlist⟩ := bind_eq_ok.mp hlist
      cases hlist
      exact .tofromRead name lines l hread
  | request req canReport type =>
      obtain ⟨⟨out', srv₁, req'⟩, hdispatch, hok⟩ := bind_eq_ok.mp hok
      cases hok
      exact .request req canReport type srv' out req' hdispatch
  | sigalrm now =>
      obtain ⟨srv₁, hsweep, hok⟩ := bind_eq_ok.mp hok
      cases hok
      obtain ⟨store, hexpire, hsweep⟩ := bind_eq_ok.mp hsweep
      cases hsweep
      exact .sweep _ now (Or.inl rfl) _
        { srv.store with tuplesReadCucurrent := 0, tuplesWriteCucurrent := 0 } rfl rfl rfl hexpire
        rfl rfl rfl
  | sigusr2 now =>
      obtain ⟨srv₁, hsweep, hok⟩ := bind_eq_ok.mp hok
      cases hok
      obtain ⟨store, hexpire, hsweep⟩ := bind_eq_ok.mp hsweep
      cases hsweep
      exact .sweep _ now (Or.inr rfl) _ srv.store rfl rfl rfl hexpire rfl rfl rfl

/-- A request of the control program that brings a command that may be installed, if it
installs anything. A mask of more bits than an address has ends a build with
assertions. -/
def RequestFine (cfg : Config) (req : Request) : Option Cmd → Prop
  | some .mcpIplist => ntohs req.packet 12 = 4 →
      cfg.ndebug = true ∨ ntohs req.packet 14 ≤ 32 → Installs (ntohs req.packet 10)
  | some .mcpTo => Installs (ntohs req.packet 10)
  | some .mcpToDomain => Installs (ntohs req.packet 10)
  | some .mcpFrom => Installs (ntohs req.packet 10)
  | some .mcpFromDomain => Installs (ntohs req.packet 10)
  | _ => True

/-- A step of the server that installs verdicts only. -/
def Action.Fine (cgi : CgiLib) (cfg : Config) (srv : Server) : Action → Prop
  | .iplistRead ip lines => IplistFine cgi cfg.ndebug srv.iplist ip lines
  | .tofromRead name lines => TofromFine cgi cfg.ndebug (srv.list name) lines
  | .request req _ type => RequestFine cfg req type
  | _ => True

section Steps

variable {cfg : Config} {srv : Server}

/-- Sending a reply does not count verdicts. -/
theorem sendReply_guarantees (ndebug : Bool) (req : Request) (type : Cmd) (response : ℤ)
    (why : Reason) :
    Guarantees (sendReply ndebug req type response why) (fun _ => True) InsideCounters :=
  (assert_guarantees ndebug _).bind fun _ _ => guarantees_ok trivial

/-- A request that is answered without a change. -/
theorem reply_guarantees (h : srv.Guarded) (req : Request) (type : Cmd) (response : ℤ)
    (why : Reason) :
    Guarantees (do
        let out ← sendReply cfg.ndebug req type response why
        .ok (out, srv, req))
      (fun r => r.2.1.Guarded) InsideCounters :=
  (sendReply_guarantees cfg.ndebug req type response why).bind fun _ _ => guarantees_ok h

theorem Server.Guarded.setList (h : srv.Guarded) {l : AddrList} (hl : l.Guarded)
    (name : ListName) : (srv.setList l name).Guarded := by
  cases name with
  | fromL => exact ⟨h.ip, h.ipCmdcnt, hl, h.fromdL, h.toL, h.todL⟩
  | fromdL => exact ⟨h.ip, h.ipCmdcnt, h.fromL, hl, h.toL, h.todL⟩
  | toL => exact ⟨h.ip, h.ipCmdcnt, h.fromL, h.fromdL, hl, h.todL⟩
  | todL => exact ⟨h.ip, h.ipCmdcnt, h.fromL, h.fromdL, h.toL, hl⟩

theorem Server.Guarded.list (h : srv.Guarded) (name : ListName) :
    (srv.list name).Guarded := by
  cases name with
  | fromL => exact h.fromL
  | fromdL => exact h.fromdL
  | toL => exact h.toL
  | todL => exact h.todL

/-- **The packets for the address lists.** -/
theorem cmdMcpTofrom_guarantees (h : srv.Guarded) (req : Request) (cmd resp : Cmd)
    (hcmd : Installs (ntohs req.packet 10)) :
    Guarantees (cmdMcpTofrom cfg srv req cmd resp) (fun r => r.2.1.Guarded)
      InsideCounters := by
  have hlist : ∀ (name : ListName) (text : List UInt8),
      Guarantees (do
          let l ← mcpTofromList cfg.ndebug (srv.list name) text (ntohs req.packet 10)
          let out ← sendReply cfg.ndebug req resp 0 .none
          .ok (out, srv.setList l name, req))
        (fun r => r.2.1.Guarded) InsideCounters := by
    intro name text
    refine (mcpTofromList_guarantees cfg.ndebug (h.list name) text hcmd).bind fun l hl => ?_
    exact reply_guarantees (h.setList hl name) req resp 0 .none
  rw [cmdMcpTofrom]
  refine (guarantees_of_memory fun e => cstring_error).bind fun text _ => ?_
  split
  · exact hlist .toL text
  · exact hlist .todL text
  · exact hlist .fromL text
  · exact hlist .fromdL text
  · exact (assert_guarantees cfg.ndebug False).bind fun _ _ =>
      reply_guarantees h req resp 0 .none

/-- **The packets for client addresses.** -/
theorem cmdMcpIplist_guarantees (h : srv.Guarded) (req : Request)
    (hcmd : RequestFine cfg req (some .mcpIplist)) :
    Guarantees (cmdMcpIplist cfg srv req) (fun r => r.2.1.Guarded) InsideCounters := by
  rw [cmdMcpIplist]
  by_cases hsize : ntohs req.packet 12 ≠ 4
  · rw [if_pos hsize]
    exact reply_guarantees h req _ _ _
  · rw [if_neg hsize]
    have hinstalls : 0 ≤ (ntohs req.packet 14 : ℤ) →
        cfg.ndebug = true ∨ (ntohs req.packet 14 : ℤ) ≤ 32 → Installs (ntohs req.packet 10) :=
      fun _ hmask => hcmd (not_not.mp hsize) (hmask.imp_right fun h => by omega)
    refine (ipAddSm_guarantees cfg.ndebug h.ip _ hinstalls).bind fun iplist hip => ?_
    refine (sendReply_guarantees cfg.ndebug req _ _ _).bind fun out _ => ?_
    exact guarantees_ok ⟨hip, h.ipCmdcnt, h.fromL, h.fromdL, h.toL, h.todL⟩

/-- A request for a verdict, accepted or not. -/
theorem typeGreylist_keeps (h : srv.Guarded) (req : Request) (cmd response : Cmd) :
    Guarantees (typeGreylist cfg srv req cmd response) (fun r => r.2.1.Guarded)
      InsideCounters := by
  by_cases hacc : req.Accepts
  · exact (typeGreylist_guarantees cfg h hacc cmd response).mono fun r hr => hr.2
  · rw [typeGreylist_of_not_accepts cfg srv hacc]
    exact guarantees_ok h

/-- The removal of a tuple, accepted or not. -/
theorem typeTupleRemove_keeps (h : srv.Guarded) (req : Request) :
    Guarantees (typeTupleRemove cfg srv req) (fun r => r.2.1.Guarded) InsideCounters := by
  by_cases hacc : req.Accepts
  · rw [typeTupleRemove_of_accepts cfg srv hacc]
    exact guarantees_ok (h.withStore _)
  · rw [typeTupleRemove, greylistSanitizeReq_of_not_accepts cfg hacc]
    exact guarantees_ok h

/-- **A request of any type.** -/
theorem dispatch_guarantees (h : srv.Guarded) (req : Request) (canReport : Bool)
    {type : Option Cmd} (hfine : RequestFine cfg req type) :
    Guarantees (dispatch cfg srv req canReport type) (fun r => r.2.1.Guarded)
      InsideCounters := by
  have hreport : ∀ resp, Guarantees (cmdMcpReport cfg srv req canReport resp)
      (fun r => r.2.1.Guarded) InsideCounters := by
    intro resp
    rw [cmdMcpReport]
    cases canReport with
    | true => exact reply_guarantees h req resp 0 .none
    | false => exact reply_guarantees h req _ _ .none
  rw [dispatch.eq_def]
  split
  · exact reply_guarantees h req _ _ _
  · exact typeGreylist_keeps h req .greylist .greylistResp
  · exact typeGreylist_keeps h req .whitelist .whitelistResp
  · exact typeTupleRemove_keeps h req
  · exact guarantees_ok h
  · exact guarantees_ok h
  · exact hreport _
  · exact hreport _
  · exact hreport _
  · exact hreport _
  · exact hreport _
  · exact hreport _
  · exact hreport _
  · exact hreport _
  · exact cmdMcpIplist_guarantees h req hfine
  · exact cmdMcpTofrom_guarantees h req _ _ hfine
  · exact cmdMcpTofrom_guarantees h req _ _ hfine
  · exact cmdMcpTofrom_guarantees h req _ _ hfine
  · exact cmdMcpTofrom_guarantees h req _ _ hfine
  · exact reply_guarantees h req _ _ _

/-- **One step** of the server keeps every rule a verdict. -/
theorem actionStep_guarantees (cgi : CgiLib) (h : srv.Guarded) {a : Action}
    (hfine : a.Fine cgi cfg srv) :
    Guarantees (actionStep cgi cfg srv a) (fun r => r.1.Guarded) InsideCounters := by
  cases a with
  | iplistRead ip lines =>
      refine (iplistRead_guarantees cgi cfg.ndebug h.ip ip hfine).bind fun r hr => ?_
      exact guarantees_ok ⟨hr, h.ipCmdcnt, h.fromL, h.fromdL, h.toL, h.todL⟩
  | whitelistLoad now lines =>
      refine (whitelistLoad_guarantees cgi cfg now srv.store lines).bind fun store _ => ?_
      exact guarantees_ok (h.withStore store)
  | tofromRead name lines =>
      have hread : Guarantees (tofromRead cgi cfg.ndebug srv name lines) Server.Guarded
          InsideCounters :=
        (tofromReadStream_guarantees cgi cfg.ndebug (h.list name) true fun _ => hfine).bind
          fun l hl => guarantees_ok (h.setList hl name)
      exact hread.bind fun srv' hsrv' => guarantees_ok hsrv'
  | request req canReport type =>
      refine (dispatch_guarantees h req canReport hfine).bind fun r hr => ?_
      exact guarantees_ok hr
  | sigalrm now =>
      have hsweep : Guarantees (handleSigalrm cfg srv now) Server.Guarded InsideCounters :=
        (tupleExpire_guarantees cfg _ now).bind fun store _ =>
          guarantees_ok ⟨h.ip, h.ipCmdcnt, h.fromL, h.fromdL, h.toL, h.todL⟩
      exact hsweep.bind fun srv' hsrv' => guarantees_ok hsrv'
  | sigusr2 now =>
      have hsweep : Guarantees (handleSigusr2 cfg srv now) Server.Guarded InsideCounters :=
        (tupleExpire_guarantees cfg srv.store now).bind fun store _ =>
          guarantees_ok (h.withStore store)
      exact hsweep.bind fun srv' hsrv' => guarantees_ok hsrv'

end Steps

/-! ### Runs -/

/-- **Only verdicts.** Take any run of the server from startup on that installs verdicts
only. No step leaves a counter array, and after every step every rule and every default
is a verdict, every counter array has its three entries, and a request that is accepted
stays inside them and is answered with a verdict. -/
theorem run_verdicts (cgi : CgiLib) (cfg : Config) (starttime : ℤ) (actions : List Action)
    (hal : Along (actionStep cgi cfg) (Action.Fine cgi cfg) (Server.init cfg starttime)
      actions)
    (done rest : List Action) (hdone : done ++ rest = actions) :
    run (actionStep cgi cfg) (Server.init cfg starttime) done ≠ .error .subscript ∧
      ∀ srv outs, run (actionStep cgi cfg) (Server.init cfg starttime) done =
          .ok (srv, outs) →
        srv.Guarded ∧
        ∀ req : Request, req.Accepts → ∀ cmd response,
          typeGreylist cfg srv req cmd response ≠ .error .subscript ∧
          ∀ out srv' req', typeGreylist cfg srv req cmd response = .ok (out, srv', req') →
            VerdictReply req response out := by
  have hstep : ∀ srv a, Server.Guarded srv → a.Fine cgi cfg srv →
      Guarantees (actionStep cgi cfg srv a) (fun r => r.1.Guarded) InsideCounters :=
    fun _ _ hsrv ha => actionStep_guarantees cgi hsrv ha
  have hfine := Along.of_append (hdone ▸ hal)
  have hrun := run_guarantees hstep (serverGuarded_init cfg starttime) hfine
  refine ⟨fun herror => hrun.error _ herror rfl, fun srv outs hok => ?_⟩
  have hguarded : srv.Guarded := hrun.ok _ hok
  refine ⟨hguarded, fun req hacc cmd response => ?_⟩
  have hreply := typeGreylist_guarantees cfg hguarded hacc cmd response
  exact ⟨fun herror => hreply.error _ herror rfl, fun out srv' req' hreq => (hreply.ok _ hreq).1⟩

/-- What `gld-mcp` sends to install a command for a first octet. -/
def iplistRequest (cmd octet : UInt8) : Request where
  packet := [0, 0, 0, 0, 1, 1, 0, 0, 0, 28, 0, cmd, 0, 4, 0, 8, octet, 0, 0, 0, 0, 0, 0, 0,
    0, 0, 0, 0, 0, 0, 0, 0]
  size := 32
  now := 0
  clock := 0
  size_le := Nat.le_refl 32

/-- A file, a packet of the control program and a request. -/
theorem run_verdicts_letters :
    run (actionStep plainCgi (Config.default false)) (Server.init (Config.default false) 0)
      [.tofromRead .toL [ascii "0 ACCEPT a"],
        .request (iplistRequest 2 10) false (some .mcpIplist)] ≠ .error .subscript := by
  have hline : tofromLine plainCgi (ascii "0 ACCEPT a") = .ok (.rule (ascii "a") 1) := by
    decide +kernel
  have hal : Along (actionStep plainCgi (Config.default false))
      (Action.Fine plainCgi (Config.default false)) (Server.init (Config.default false) 0)
      [.tofromRead .toL [ascii "0 ACCEPT a"],
        .request (iplistRequest 2 10) false (some .mcpIplist)] := by
    refine ⟨fun line hline' => ?_, fun _ _ _ => ⟨fun _ _ => by decide, fun _ _ _ => trivial⟩⟩
    rw [hline] at hline'
    cases hline'
    exact ⟨fun _ => by decide, fun _ _ hnewline => absurd hnewline (by decide)⟩
  exact (run_verdicts plainCgi (Config.default false) 0 _ hal _ [] (List.append_nil _)).1

/-- `gld-mcp iplist expire 10.0.0.0/8` installs `EXPIRE`, and so does a word that is not in
the table in a file of recipients; the next request that they concern leaves the
counters. -/
theorem run_not_verdicts :
    (∃ srv outs,
      run (actionStep plainCgi (Config.default false)) (Server.init (Config.default false) 0)
        [.request (iplistRequest 4 10) false (some .mcpIplist)] = .ok (srv, outs) ∧
      ¬ RulesOk srv) ∧
    run (actionStep plainCgi (Config.default false)) (Server.init (Config.default false) 0)
      [.request (iplistRequest 4 10) false (some .mcpIplist),
        .request (letterRequest 97 98 0) false (some .greylist)] = .error .subscript ∧
    run (actionStep plainCgi (Config.default false)) (Server.init (Config.default false) 0)
      [.tofromRead .toL [ascii "0 MAYBE DEFAULT"],
        .request (letterRequest 97 98 0) false (some .greylist)] = .error .subscript := by
  refine ⟨?_, by decide +kernel, by decide +kernel⟩
  obtain ⟨⟨srv, outs⟩, hrun, htest⟩ := exists_of_okAnd
    (run (actionStep plainCgi (Config.default false)) (Server.init (Config.default false) 0)
      [.request (iplistRequest 4 10) false (some .mcpIplist)])
    (fun r => decide (ipRules r.1.iplist.tree (prefixBits [10] 8) = some Ift.expire))
    (by decide +kernel)
  refine ⟨srv, outs, hrun, fun hrules => ?_⟩
  have hverdict := hrules.ip _ _ (of_decide_eq_true htest)
  revert hverdict
  decide

end XGrey
