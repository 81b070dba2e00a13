import XGrey.Lib.LastWrite
import XGrey.LongAddresses
import XGrey.Restart

/-!
# The History of the Rules

The rules of a running server, seen as a table: under each key stands the command of one rule, for
a prefix of client addresses, for a text of one of the four address lists, or for the default of a
list. While the server is running only the commands of the control program write to it, each under
one key; requests for verdicts, which count the rules that they meet, and cleanups do not.

## Main results

* `run_rules`: after any run, under each key stands what the last command for it has written, or
  what stood there before.
* `run_delivery`: the filter does not depend on the order in which commands for different keys
  arrive, on what arrives in between, nor on commands that arrive twice.
-/

open CRuntime KeyedArray StepRun LastWrite

namespace XGrey

/-! ### The table -/

/-- What there can be a rule for. -/
inductive RuleKey
  /-- The addresses of clients that begin with some bits. -/
  | client (bits : List Bool)
  | text (name : ListName) (text : List UInt8)
  | dflt (name : ListName)
  deriving DecidableEq

/-- The command of the rule under a key. -/
def Server.rule (srv : Server) : RuleKey → Option ℤ
  | .client bits => ipRules srv.iplist.tree bits
  | .text name text => (srv.list name).rules.rule text
  | .dflt name => some (srv.list name).dflt

/-- What a packet for client addresses writes. The rule for all addresses is never removed. -/
def Request.iplistWrite (req : Request) : Option (RuleKey × Option ℤ) :=
  let cmd : ℤ := ntohs req.packet 10
  let mask := ntohs req.packet 14
  if ntohs req.packet 12 ≠ 4 then none
  else if mask = 0 ∧ cmd = Ift.remove then none
  else some (.client (prefixBits (req.packet.drop 16) mask), installed cmd)

/-- What a packet for an address list writes. A default is never removed. -/
def Request.tofromWrite (req : Request) (name : ListName) : Option (RuleKey × Option ℤ) :=
  let cmd : ℤ := ntohs req.packet 10
  match cstring (req.packet.drop 14) with
  | .error _ => none
  | .ok text =>
      if text = ascii "default" ∨ text = ascii "DEFAULT" then
        if cmd = Ift.remove then none else some (.dflt name, some cmd)
      else some (.text name text, installed cmd)

/-- What the server writes to the table when it takes an action. -/
def Action.write : Action → Option (RuleKey × Option ℤ)
  | .request req _ (some .mcpIplist) => req.iplistWrite
  | .request req _ (some .mcpTo) => req.tofromWrite .toL
  | .request req _ (some .mcpToDomain) => req.tofromWrite .todL
  | .request req _ (some .mcpFrom) => req.tofromWrite .fromL
  | .request req _ (some .mcpFromDomain) => req.tofromWrite .fromdL
  | _ => none

/-- The actions of a running server. A packet for client addresses has a mask of at most 32 bits,
and its command is not `IFT_NONE`. The control program never sends this command, but it does send
longer masks. -/
def Action.Serving : Action → Prop
  | .request req _ (some .mcpIplist) => ntohs req.packet 12 = 4 →
      20 ≤ req.packet.length ∧ ntohs req.packet 14 ≤ 32 ∧ (ntohs req.packet 10 : ℤ) ≠ Ift.none
  | .request _ _ _ => True
  | .sigalrm _ => True
  | .sigusr2 _ => True
  | _ => False

/-! ### One command -/

section Lists

variable {ndebug : Bool} {l l' : AddrList} {text : List UInt8} {cmd : ℤ}

/-- Another array that differs at one text. -/
theorem rules_update {r : Option EDomain} (hdflt : l'.dflt = l.dflt)
    (harray : findText l'.entries = Function.update (findText l.entries) text r) :
    l'.rules = { l.rules with
      rule := Function.update l.rules.rule text (r.map EDomain.cmd) } := by
  rw [AddrList.rules, AddrList.rules, hdflt, harray]
  congr 1
  funext text'
  by_cases htext : text' = text
  · rw [htext, Function.update_self, Function.update_self]
  · rw [Function.update_of_ne htext, Function.update_of_ne htext]

/-- **A packet for an address list** changes its default, or the rule for its text. -/
theorem rules_packet (h : AddrListOk l) (hok : mcpTofromList ndebug l text cmd = .ok l') :
    l'.rules =
      if text = ascii "default" ∨ text = ascii "DEFAULT" then
        if cmd = Ift.remove then l.rules else { l.rules with dflt := cmd }
      else { l.rules with rule := Function.update l.rules.rule text (installed cmd) } := by
  rw [mcpTofromList] at hok
  by_cases hword : text = ascii "default" ∨ text = ascii "DEFAULT"
  · rw [if_pos hword] at hok ⊢
    by_cases hcmd : cmd = Ift.remove
    · rw [if_neg (not_not.mpr hcmd)] at hok
      cases hok
      rw [if_pos hcmd]
    · rw [if_pos hcmd] at hok
      cases hok
      rw [if_neg hcmd]
      rfl
  rw [if_neg hword] at hok ⊢
  have hnodup := nodup_texts h.sorted
  rcases edomainSearch_spec h.sorted text with ⟨i, hi, hsearch, rfl⟩ | ⟨idx, hsearch, hsplit⟩
  · rw [hsearch] at hok
    dsimp only at hok
    by_cases hcmd : cmd = Ift.remove
    · rw [if_pos hcmd, edomainRemove_eq hi] at hok
      cases hok
      rw [installed, if_pos hcmd]
      exact rules_update (r := none) rfl (lookup_deleteAt hnodup hi)
    · have hget : l.entries.getD i default = l.entries[i] := by simp [hi]
      rw [if_neg hcmd, hget] at hok
      cases hok
      rw [installed, if_neg hcmd]
      exact rules_update (r := some { l.entries[i] with cmd := cmd, count := 0 }) rfl
        (lookup_set hnodup hi rfl)
  · rw [hsearch] at hok
    dsimp only at hok
    by_cases hcmd : cmd = Ift.remove
    · rw [if_neg (not_not.mpr hcmd)] at hok
      cases hok
      have hnone : findText l.entries text = none := lookup_eq_none_iff.mpr hsplit.notMem
      rw [installed, if_pos hcmd]
      exact rules_update (r := none) rfl (by rw [← hnone, Function.update_eq_self])
    · rw [if_pos hcmd] at hok
      obtain ⟨l₁, hadd, -, hentries, hdflt, -⟩ :=
        @AddrListOk.add l h ndebug { text := text, count := 0, cmd := cmd } idx hsplit
      rw [hadd] at hok
      cases hok
      rw [installed, if_neg hcmd]
      exact rules_update (r := some { text := text, count := 0, cmd := cmd }) hdflt
        (hentries ▸ lookup_insertAt hnodup hsplit.notMem idx)

end Lists

section Steps

variable {cgi : CgiLib} {cfg : Config} {srv srv' : Server} {req req' : Request}

/-- Two servers with the same filter as far as texts are concerned, and the same rules for
clients. -/
theorem rule_eq_of_filter (hfilter : srv'.filter = srv.filter)
    (hclient : ipRules srv'.iplist.tree = ipRules srv.iplist.tree) (key : RuleKey) :
    srv'.rule key = srv.rule key := by
  have hlist : ∀ name, (srv'.list name).rules = (srv.list name).rules := by
    intro name
    cases name with
    | fromL => exact congrArg FilterRules.sender hfilter
    | fromdL => exact congrArg FilterRules.senderDomain hfilter
    | toL => exact congrArg FilterRules.recipient hfilter
    | todL => exact congrArg FilterRules.recipientDomain hfilter
  cases key with
  | client bits => exact congrFun hclient bits
  | text name text => exact congrArg (fun r : TextRules => r.rule text) (hlist name)
  | dflt name => exact congrArg (fun r : TextRules => some r.dflt) (hlist name)

/-- **The table is the filter**: servers with the same table decide in the same way. -/
theorem filter_eq_of_rule (h : ∀ key, srv'.rule key = srv.rule key) :
    srv'.filter = srv.filter := by
  have hlist : ∀ name, (srv'.list name).rules = (srv.list name).rules := by
    intro name
    have hrule : (srv'.list name).rules.rule = (srv.list name).rules.rule :=
      funext fun text => h (.text name text)
    have hdflt : (srv'.list name).rules.dflt = (srv.list name).rules.dflt :=
      Option.some.inj (h (.dflt name))
    calc (srv'.list name).rules
        = ⟨(srv'.list name).rules.rule, (srv'.list name).rules.dflt⟩ := rfl
      _ = (srv.list name).rules := by rw [hrule, hdflt]
  have hclient : ipRules srv'.iplist.tree = ipRules srv.iplist.tree :=
    funext fun bits => h (.client bits)
  have hfrom := hlist .fromL
  have hfromd := hlist .fromdL
  have hto := hlist .toL
  have htod := hlist .todL
  simp only [Server.list] at hfrom hfromd hto htod
  rw [Server.filter, Server.filter, hclient, hfrom, hfromd, hto, htod]

theorem rule_setList_client (srv : Server) (l : AddrList) (name : ListName)
    (bits : List Bool) : (srv.setList l name).rule (.client bits) = srv.rule (.client bits) := by
  cases name <;> rfl

theorem rule_setList_text (srv : Server) (l : AddrList) (name name' : ListName)
    (text : List UInt8) : (srv.setList l name).rule (.text name' text) =
      if name' = name then l.rules.rule text else srv.rule (.text name' text) := by
  rw [Server.rule, list_setList, Function.update_apply]
  split_ifs <;> rfl

theorem rule_setList_dflt (srv : Server) (l : AddrList) (name name' : ListName) :
    (srv.setList l name).rule (.dflt name') =
      if name' = name then some l.rules.dflt else srv.rule (.dflt name') := by
  rw [Server.rule, list_setList, Function.update_apply]
  split_ifs <;> rfl

/-- A list that has the rules of the old one for all texts. -/
theorem rule_setList_text_same {l : AddrList} {name : ListName}
    (h : l.rules.rule = (srv.list name).rules.rule) (name' : ListName) (text : List UInt8) :
    (srv.setList l name).rule (.text name' text) = srv.rule (.text name' text) := by
  rw [rule_setList_text, h]
  split_ifs with hname
  · rw [hname]
    rfl
  · rfl

/-- A list that has the default of the old one. -/
theorem rule_setList_dflt_same {l : AddrList} {name : ListName}
    (h : l.rules.dflt = (srv.list name).rules.dflt) (name' : ListName) :
    (srv.setList l name).rule (.dflt name') = srv.rule (.dflt name') := by
  rw [rule_setList_dflt, h]
  split_ifs with hname
  · rw [hname]
    rfl
  · rfl

/-- **A command for an address list** writes under one key. -/
theorem rule_tofrom {name : ListName} (h : AddrListOk (srv.list name)) {text : List UInt8}
    {l : AddrList} (htext : cstring (req.packet.drop 14) = .ok text)
    (hok : mcpTofromList cfg.ndebug (srv.list name) text (ntohs req.packet 10) = .ok l)
    (canReport : Bool) (key : RuleKey) :
    (srv.setList l name).rule key =
      (written Action.write (.request req canReport (some name.cmd)) key).getD
        (srv.rule key) := by
  have hwrite : Action.write (.request req canReport (some name.cmd)) = req.tofromWrite name := by
    cases name <;> rfl
  have hrules := rules_packet h hok
  rw [written, hwrite, Request.tofromWrite, htext]
  dsimp only
  by_cases hword : text = ascii "default" ∨ text = ascii "DEFAULT"
  · rw [if_pos hword] at hrules ⊢
    by_cases hcmd : (ntohs req.packet 10 : ℤ) = Ift.remove
    · rw [if_pos hcmd] at hrules ⊢
      cases key with
      | client bits => exact rule_setList_client ..
      | text name' text' => exact rule_setList_text_same (congrArg TextRules.rule hrules) ..
      | dflt name' => exact rule_setList_dflt_same (congrArg TextRules.dflt hrules) ..
    · rw [if_neg hcmd] at hrules ⊢
      cases key with
      | client bits => exact rule_setList_client ..
      | text name' text' => exact rule_setList_text_same (by rw [hrules]) ..
      | dflt name' =>
          rw [rule_setList_dflt, hrules]
          by_cases hname : name' = name
          · simp [hname]
          · simp [hname, Ne.symm hname]
  · rw [if_neg hword] at hrules ⊢
    cases key with
    | client bits => exact rule_setList_client ..
    | text name' text' =>
        rw [rule_setList_text, hrules]
        by_cases hname : name' = name
        · by_cases htext' : text' = text
          · simp [hname, htext']
          · simp [hname, htext', Ne.symm htext', Server.rule]
        · simp [hname, Ne.symm hname]
    | dflt name' => exact rule_setList_dflt_same (by rw [hrules]) ..

/-- **A command for client addresses** writes under one key. -/
theorem rule_iplist (h : FilterOk srv) (hsize : ntohs req.packet 12 = 4)
    (hlen : 20 ≤ req.packet.length) (hmask : ntohs req.packet 14 ≤ 32)
    (hcmd : (ntohs req.packet 10 : ℤ) ≠ Ift.none) {l : IpList}
    (hok : ipAddSm cfg.ndebug srv.iplist (req.packet.drop 16) (ntohs req.packet 14)
      (ntohs req.packet 10) = .ok l) (canReport : Bool) :
    IpTreeOk l.tree ∧ ∀ key, ({ srv with iplist := l } : Server).rule key =
      (written Action.write (.request req canReport (some .mcpIplist)) key).getD
        (srv.rule key) := by
  have hip : 4 ≤ (req.packet.drop 16).length := by
    rw [List.length_drop]
    omega
  obtain ⟨l', hadd, htree, hrules⟩ := ipAddSm_eq cfg.ndebug h.tree hip
    (Int.natCast_nonneg (ntohs req.packet 14)) (by exact_mod_cast hmask) hcmd
  rw [hok] at hadd
  cases hadd
  refine ⟨htree, fun key => ?_⟩
  have hwrite : Action.write (.request req canReport (some .mcpIplist)) = req.iplistWrite := rfl
  rw [written, hwrite, Request.iplistWrite, if_neg (not_not.mpr hsize)]
  rw [addRule, Int.toNat_natCast] at hrules
  have hzero : ((ntohs req.packet 14 : ℤ) = 0 ∧ (ntohs req.packet 10 : ℤ) = Ift.remove) ↔
      (ntohs req.packet 14 = 0 ∧ (ntohs req.packet 10 : ℤ) = Ift.remove) := by
    rw [Int.natCast_eq_zero]
  by_cases hnone : ntohs req.packet 14 = 0 ∧ (ntohs req.packet 10 : ℤ) = Ift.remove
  · rw [if_pos (hzero.mpr hnone)] at hrules
    rw [if_pos hnone]
    cases key with
    | client bits => exact congrFun hrules bits
    | text name text => cases name <;> rfl
    | dflt name => cases name <;> rfl
  · rw [if_neg (mt hzero.mp hnone)] at hrules
    rw [if_neg hnone]
    cases key with
    | client bits =>
        rw [Server.rule, hrules]
        by_cases hbits : bits = prefixBits (req.packet.drop 16) (ntohs req.packet 14)
        · simp [hbits]
        · simp [hbits, Ne.symm hbits, Server.rule]
    | text name text => cases name <;> rfl
    | dflt name => cases name <;> rfl

/-- Requests of other types write nothing. -/
theorem write_request {type : Option Cmd} (hiplist : type ≠ some .mcpIplist)
    (hname : ∀ name : ListName, type ≠ some name.cmd) (req : Request) (canReport : Bool) :
    Action.write (.request req canReport type) = none := by
  unfold Action.write
  split
  · rename_i heq
    cases heq
    exact absurd rfl hiplist
  · rename_i heq
    cases heq
    exact absurd rfl (hname .toL)
  · rename_i heq
    cases heq
    exact absurd rfl (hname .todL)
  · rename_i heq
    cases heq
    exact absurd rfl (hname .fromL)
  · rename_i heq
    cases heq
    exact absurd rfl (hname .fromdL)
  · rfl

/-- **A request** of any type. -/
theorem rule_dispatch (h : FilterOk srv) {canReport : Bool} {type : Option Cmd}
    (ha : Action.Serving (.request req canReport type)) {out : List Output}
    (hok : dispatch cfg srv req canReport type = .ok (out, srv', req')) :
    IpTreeOk srv'.iplist.tree ∧ ∀ key, srv'.rule key =
      (written Action.write (.request req canReport type) key).getD (srv.rule key) := by
  by_cases hiplist : type = some .mcpIplist
  · subst hiplist
    change cmdMcpIplist cfg srv req = .ok (out, srv', req') at hok
    rw [cmdMcpIplist] at hok
    by_cases hsize : ntohs req.packet 12 = 4
    · obtain ⟨hlen, hmask, hcmd⟩ := ha hsize
      rw [if_neg (not_not.mpr hsize)] at hok
      obtain ⟨l, hadd, hok⟩ := bind_eq_ok.mp hok
      rw [reply_srv hok]
      exact rule_iplist h hsize hlen hmask hcmd hadd canReport
    · rw [if_pos hsize] at hok
      have hwrite : Action.write (.request req canReport (some .mcpIplist)) = none :=
        if_pos hsize
      rw [reply_srv hok]
      exact ⟨h.tree, fun key => by rw [written, hwrite]; rfl⟩
  by_cases hname : ∃ name : ListName, type = some name.cmd
  · obtain ⟨name, rfl⟩ := hname
    rw [dispatch_listName, cmdMcpTofrom_eq] at hok
    obtain ⟨text, htext, hok⟩ := bind_eq_ok.mp hok
    obtain ⟨l, hlist, hok⟩ := bind_eq_ok.mp hok
    have htree : (srv.setList l name).iplist = srv.iplist := by cases name <;> rfl
    rw [reply_srv hok, htree]
    exact ⟨h.tree, rule_tofrom (h.lists.list name) htext hlist canReport⟩
  -- all other requests leave the rules alone
  have hwrite := write_request hiplist (fun name heq => hname ⟨name, heq⟩) req canReport
  suffices hsame : IpTreeOk srv'.iplist.tree ∧ ∀ key, srv'.rule key = srv.rule key by
    exact ⟨hsame.1, fun key => by rw [written, hwrite]; exact hsame.2 key⟩
  have hrequest := dispatch_inv hok
  cases hrequest with
  | same => exact ⟨h.tree, fun _ => rfl⟩
  | check whitelist srv' hacc rc tree hmatch hkept =>
      have hcheck : typeGreylist cfg srv req (checkCmd whitelist) (checkResp whitelist) =
          .ok (out, srv', req') := by
        cases whitelist <;> exact hok
      obtain ⟨hfilter, hsame⟩ := typeGreylist_filter h hcheck
      obtain ⟨v, path, -, heq⟩ := ipMatch_eq cfg.ndebug h.tree
        (show 5 ≤ (req.tuple cfg).ip.toList.length by simp)
      rw [hmatch] at heq
      cases heq
      refine ⟨hfilter.tree, rule_eq_of_filter hsame ?_⟩
      rw [hkept]
      exact ipRules_modify_countHit srv.iplist.tree path
  | remove => exact ⟨h.tree, fun key => by cases key <;> rfl⟩
  | iplist => exact absurd rfl hiplist
  | tofrom name => exact absurd ⟨name, rfl⟩ hname

/-- **One action** of a running server. -/
theorem rule_action (h : FilterOk srv) {a : Action} (ha : a.Serving) {out : List Output}
    (hok : actionStep cgi cfg srv a = .ok (srv', out)) :
    FilterOk srv' ∧
      ∀ key, srv'.rule key = (written Action.write a key).getD (srv.rule key) := by
  obtain ⟨hcnt, hfrom, hfromd, hto, htod⟩ := h.lists.step hok
  suffices htable : IpTreeOk srv'.iplist.tree ∧
      ∀ key, srv'.rule key = (written Action.write a key).getD (srv.rule key) by
    exact ⟨⟨htable.1, hcnt, hfrom, hfromd, hto, htod⟩, htable.2⟩
  have hstep := actionStep_inv hok
  cases hstep with
  | iplistRead => exact ha.elim
  | whitelistLoad => exact ha.elim
  | tofromRead => exact ha.elim
  | request req canReport type srv' out req' hdispatch => exact rule_dispatch h ha hdispatch
  | sweep a now ha' srv' s _ _ _ _ hiplist _ hlist =>
      have hsame : ∀ key, srv'.rule key = srv.rule key := fun key => by
        cases key <;> rw [Server.rule, Server.rule] <;> simp only [hiplist, hlist]
      rw [hiplist]
      rcases ha' with rfl | rfl
      · exact ⟨h.tree, hsame⟩
      · exact ⟨h.tree, hsame⟩

end Steps

/-! ### Runs -/

/-- **The rules of a running server.** Whatever else it is asked in between, and whenever it cleans
up: under each key of the table stands what the last command for that key has written, or what
stood there when the run began. -/
theorem run_rules (cgi : CgiLib) (cfg : Config) (srv srv' : Server) (h : FilterOk srv)
    (actions : List Action) (hactions : ∀ a ∈ actions, a.Serving) (outs : List (List Output))
    (hrun : run (actionStep cgi cfg) srv actions = .ok (srv', outs)) (key : RuleKey) :
    srv'.rule key = (lastWrite Action.write actions key).getD (srv.rule key) :=
  run_lastWrite (fun _ _ _ _ h ha hok => rule_action h ha hok) h hactions hrun key

/-- A rule that is changed between two requests for a verdict. -/
theorem run_rules_letters :
    ∃ srv outs, run (actionStep plainCgi smallConfig) (Server.init smallConfig 0)
        [.request (tofromRequest 1 (ascii "a" ++ [0])) true (some .mcpTo),
          .request (letterRequest 97 98 0) true (some .greylist),
          .request (tofromRequest 2 (ascii "a" ++ [0])) true (some .mcpTo), .sigalrm 5] =
        .ok (srv, outs) ∧
      srv.rule (.text .toL (ascii "a")) = some Ift.reject := by
  obtain ⟨⟨srv, outs⟩, hrun, -⟩ := exists_of_okAnd (run (actionStep plainCgi smallConfig)
    (Server.init smallConfig 0)
    [.request (tofromRequest 1 (ascii "a" ++ [0])) true (some .mcpTo),
      .request (letterRequest 97 98 0) true (some .greylist),
      .request (tofromRequest 2 (ascii "a" ++ [0])) true (some .mcpTo), .sigalrm 5])
    (fun _ => true) (by decide +kernel)
  refine ⟨srv, outs, hrun, ?_⟩
  rw [run_rules plainCgi smallConfig (Server.init smallConfig 0) srv (filterOk_init _ _) _
    (by simp [Action.Serving]) outs hrun]
  decide

/-- Two runs with the same last commands end with the same filter. -/
theorem filter_eq_of_lastWrite {cgi : CgiLib} {cfg : Config} {srv srv₁ srv₂ : Server}
    (h : FilterOk srv) {actions₁ actions₂ : List Action} (h₁ : ∀ a ∈ actions₁, a.Serving)
    (h₂ : ∀ a ∈ actions₂, a.Serving) {outs₁ outs₂ : List (List Output)}
    (hlast : lastWrite Action.write actions₁ = lastWrite Action.write actions₂)
    (hrun₁ : run (actionStep cgi cfg) srv actions₁ = .ok (srv₁, outs₁))
    (hrun₂ : run (actionStep cgi cfg) srv actions₂ = .ok (srv₂, outs₂)) :
    srv₁.filter = srv₂.filter := by
  have hstep : ∀ srv a srv' out, FilterOk srv → a.Serving →
      actionStep cgi cfg srv a = .ok (srv', out) →
      FilterOk srv' ∧ ∀ key, srv'.rule key = (written Action.write a key).getD (srv.rule key) :=
    fun _ _ _ _ h ha hok => rule_action h ha hok
  refine filter_eq_of_rule fun key => ?_
  rw [run_lastWrite hstep h h₁ hrun₁ key, run_lastWrite hstep h h₂ hrun₂ key, hlast]

/-- **Commands on an unreliable network.** Two runs of a server in which for every key the same
commands arrive one after the other, up to repetitions of a command, leave the same filter: in
whatever order the commands for different keys come, and whatever else comes and when. -/
theorem run_delivery (cgi : CgiLib) (cfg : Config) (srv : Server) (h : FilterOk srv)
    (actions₁ actions₂ : List Action) (h₁ : ∀ a ∈ actions₁, a.Serving)
    (h₂ : ∀ a ∈ actions₂, a.Serving)
    (hkeys : ∀ key, (writesTo Action.write actions₁ key).destutter (· ≠ ·) =
      (writesTo Action.write actions₂ key).destutter (· ≠ ·))
    (srv₁ srv₂ : Server) (outs₁ outs₂ : List (List Output))
    (hrun₁ : run (actionStep cgi cfg) srv actions₁ = .ok (srv₁, outs₁))
    (hrun₂ : run (actionStep cgi cfg) srv actions₂ = .ok (srv₂, outs₂)) :
    srv₁.filter = srv₂.filter :=
  filter_eq_of_lastWrite h h₁ h₂ (lastWrite_congr hkeys) hrun₁ hrun₂

/-- `from accept a` -/
def acceptSender : Action :=
  .request (tofromRequest 1 (ascii "a" ++ [0])) true (some .mcpFrom)

/-- `to accept a` -/
def acceptRecipient : Action :=
  .request (tofromRequest 1 (ascii "a" ++ [0])) true (some .mcpTo)

/-- `to reject a` -/
def rejectRecipient : Action :=
  .request (tofromRequest 2 (ascii "a" ++ [0])) true (some .mcpTo)

/-- A rule for a sender, and one for a recipient that is changed later. In the other run the rule
for the sender comes first, and again at the end; the clean-up comes earlier. -/
theorem run_delivery_letters :
    ∃ srv₁ outs₁ srv₂ outs₂,
      run (actionStep plainCgi smallConfig) (Server.init smallConfig 0)
        [acceptRecipient, .request (letterRequest 97 98 0) true (some .greylist), rejectRecipient,
          acceptSender, .sigalrm 5] = .ok (srv₁, outs₁) ∧
      run (actionStep plainCgi smallConfig) (Server.init smallConfig 0)
        [acceptSender, acceptRecipient, .sigalrm 5, rejectRecipient,
          .request (letterRequest 97 98 6) true (some .greylist), acceptSender] =
          .ok (srv₂, outs₂) ∧
      srv₁.filter = srv₂.filter := by
  obtain ⟨⟨srv₁, outs₁⟩, hrun₁, -⟩ := exists_of_okAnd (run (actionStep plainCgi smallConfig)
    (Server.init smallConfig 0)
    [acceptRecipient, .request (letterRequest 97 98 0) true (some .greylist), rejectRecipient,
      acceptSender, .sigalrm 5]) (fun _ => true) (by decide +kernel)
  obtain ⟨⟨srv₂, outs₂⟩, hrun₂, -⟩ := exists_of_okAnd (run (actionStep plainCgi smallConfig)
    (Server.init smallConfig 0)
    [acceptSender, acceptRecipient, .sigalrm 5, rejectRecipient,
      .request (letterRequest 97 98 6) true (some .greylist), acceptSender]) (fun _ => true)
    (by decide +kernel)
  refine ⟨srv₁, outs₁, srv₂, outs₂, hrun₁, hrun₂, ?_⟩
  refine run_delivery plainCgi smallConfig (Server.init smallConfig 0) (filterOk_init _ _) _ _
    ?_ ?_ (fun key => ?_) srv₁ srv₂ outs₁ outs₂ hrun₁ hrun₂
  · simp [Action.Serving, acceptRecipient, rejectRecipient, acceptSender]
  · simp [Action.Serving, acceptRecipient, rejectRecipient, acceptSender]
  have hsender : acceptSender.write = some (.text .fromL (ascii "a"), some Ift.accept) := by
    decide
  have haccept : acceptRecipient.write = some (.text .toL (ascii "a"), some Ift.accept) := by
    decide
  have hreject : rejectRecipient.write = some (.text .toL (ascii "a"), some Ift.reject) := by
    decide
  have hrequest : ∀ now, Action.write (.request (letterRequest 97 98 now) true (some .greylist)) =
      none := fun _ => rfl
  have halrm : Action.write (.sigalrm 5) = none := rfl
  have hne : RuleKey.text .fromL (ascii "a") ≠ RuleKey.text .toL (ascii "a") := by decide
  simp only [writesTo, List.filterMap_cons, List.filterMap_nil, written, hsender, haccept, hreject,
    hrequest, halrm, Option.bind_some, Option.bind_none]
  by_cases hto : RuleKey.text .toL (ascii "a") = key
  · subst hto
    rw [if_neg hne, if_pos rfl, if_pos rfl]
  · by_cases hfrom : RuleKey.text .fromL (ascii "a") = key
    · rw [if_pos hfrom, if_neg hto, if_neg hto]
      simp
    · rw [if_neg hfrom, if_neg hto, if_neg hto]

end XGrey
