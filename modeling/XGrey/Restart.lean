import XGrey.AddressDump
import XGrey.IplistDump
import XGrey.StageCounts
import XGrey.WhitelistDump

/-!
# Restarts

The server saves its state in six files (`save_state`) and reads them when it starts
(`GlobalsInit`): the whitelist, the rules on client addresses and the four address lists. What
is greylisted and not yet whitelisted is forgotten, and so are all counters.

The formats of the six files are not safe for every text. A server is `Savable` if the texts of
its rules have no white space, if its commands have names, and if its tuples can be written in
one line each. Every request that brings nothing else keeps it so, and so does a restart.

## Main results

* `Savable.actionStep`: a savable server stays so.
* `Savable.restart`: its files are read back into a server with the same filter and with the
  same whitelist, which is savable again.
* `reached_restart`: over any number of restarts with any requests in between, every request
  that is settled gets the same answer before and after a restart.
-/

open CRuntime StepRun PrefixMap TextFile SortedSeq ArrayShift KeyedArray

namespace XGrey

/-! ### Saving and loading -/

/-- The state files, of which each may be missing. -/
structure StateFiles where
  whitelist : Option (List UInt8)
  iplist : Option (List UInt8)
  list : ListName → Option (List UInt8)

/-- `save_state` -/
def saveState (cfg : Config) (srv : Server) : Exec StateFiles := do
  let whitelist ← whitelistDumpStream srv.store
  let iplist ← iplistDumpStream cfg.ndebug srv.iplist
  .ok { whitelist := some whitelist, iplist := some iplist, list := fun name =>
    some (srv.dumpStream name) }

/-- What the environment adds to a start: the time, what is in the buffer for an address before
anything is read, and, for each line of the whitelist, what is in memory behind it and the time
at a sweep for it. -/
structure Startup where
  now : ℤ
  ip : List UInt8
  behind : ℕ → List UInt8 × ℤ

/-- The lines of the whitelist file. -/
def Startup.whiteLines (env : Startup) (file : List UInt8) : List WhiteLine :=
  (getlines 10 file).mapIdx fun i text => ⟨text, (env.behind i).1, (env.behind i).2⟩

/-- The file of an address list. -/
def readList (files : StateFiles) (name : ListName) : List Action :=
  ((files.list name).map fun file => .tofromRead name (getlines 10 file)).toList

/-- What `GlobalsInit` reads. A file that is missing is passed over. -/
def startActions (env : Startup) (files : StateFiles) : List Action :=
  (files.iplist.map fun file => .iplistRead env.ip (getlines 10 file)).toList ++
    (files.whitelist.map fun file => .whitelistLoad env.now (env.whiteLines file)).toList ++
    readList files .toL ++ readList files .todL ++ readList files .fromL ++
    readList files .fromdL

/-- `GlobalsInit` -/
def globalsInit (cgi : CgiLib) (cfg : Config) (env : Startup) (files : StateFiles) :
    Exec Server := do
  let (srv, _) ← run (actionStep cgi cfg) (Server.init cfg env.now) (startActions env files)
  .ok srv

/-! ### What can be saved -/

/-- A server whose state can be written to the files and read back. -/
structure Server.Savable (cfg : Config) (srv : Server) : Prop where
  layout : HasLayout cfg srv.store
  padded : ∀ t ∈ srv.store.liveTuples, t.Padded
  clean : ∀ t ∈ srv.store.liveTuples, t.Clean
  ipCmdcnt : srv.ipCmdcnt.length = 3
  iplist : IpKept srv.iplist
  lists : ∀ name, (srv.list name).Savable

/-- A step that brings nothing that could not be saved. Files are read at the start only. -/
def Action.Savable (cfg : Config) : Action → Prop
  | .request req _ type =>
      (req.Accepts → (req.tuple cfg).Clean) ∧
      (type = some .mcpIplist → 20 ≤ req.packet.length ∧ ntohs req.packet 14 ≤ 32 ∧
        Named (ntohs req.packet 10)) ∧
      ∀ name : ListName, type = some name.cmd →
        Token ((req.packet.drop 14).takeWhile (· ≠ 0)) ∧ Named (ntohs req.packet 10)
  | .sigalrm _ => True
  | .sigusr2 _ => True
  | _ => False

theorem lasting_clean : Lasting Tuple.Clean where
  setFlag _ _ _ h := ⟨⟨h.ip, h.sender, h.sender_ne, h.recipient, h.recipient_ne⟩,
    h.recipient_last⟩
  touch _ _ h := ⟨⟨h.ip, h.sender, h.sender_ne, h.recipient, h.recipient_ne⟩,
    h.recipient_last⟩

/-- Whether a tuple is clean is a matter of its key. -/
theorem Tuple.Clean.of_key {t u : Tuple} (h : t.Clean) (hkey : t.key = u.key) : u.Clean := by
  refine ⟨h.toSeparable.of_key hkey, ?_⟩
  have hto : t.toBytes = u.toBytes := congrArg (fun k : Key => k.2.2) hkey
  rw [← hto]
  exact h.recipient_last

/-! ### Steps -/

/-- Whether a list can be saved is a matter of its rules. -/
theorem AddrList.Savable.of_rules {l l' : AddrList} (h : l.Savable) (h' : AddrListOk l')
    (hrules : l'.rules = l.rules) : l'.Savable := by
  have hentry : ∀ e ∈ l'.entries, ∃ e₀ ∈ l.entries, e₀.text = e.text ∧ e₀.cmd = e.cmd := by
    intro e he
    have hfind : findText l'.entries e.text = some e :=
      (lookup_eq_some_iff (nodup_texts h'.sorted)).mpr ⟨he, rfl⟩
    have hrule := congrFun (congrArg TextRules.rule hrules) e.text
    change (findText l'.entries e.text).map EDomain.cmd =
      (findText l.entries e.text).map EDomain.cmd at hrule
    rw [hfind, Option.map_some, eq_comm, Option.map_eq_some_iff] at hrule
    obtain ⟨e₀, hfind₀, hcmd⟩ := hrule
    obtain ⟨he₀, htext⟩ := mem_of_lookup hfind₀
    exact ⟨e₀, he₀, htext, hcmd⟩
  refine ⟨h', fun e he => ?_, ?_⟩
  · obtain ⟨e₀, he₀, htext, hcmd⟩ := hentry e he
    obtain ⟨htoken, hdefault, hnamed⟩ := h.entries e₀ he₀
    exact ⟨htext ▸ htoken, htext ▸ hdefault, hcmd ▸ hnamed⟩
  · have hdflt : l'.dflt = l.dflt := congrArg TextRules.dflt hrules
    rw [hdflt]
    exact h.dflt

/-- A command of the control program keeps a list that can be saved. -/
theorem AddrList.Savable.mcpTofromList {l l' : AddrList} (h : l.Savable) {ndebug : Bool}
    {text : List UInt8} (htext : Token text) {cmd : ℤ} (hcmd : Named cmd)
    (hok : XGrey.mcpTofromList ndebug l text cmd = .ok l') : l'.Savable := by
  rw [XGrey.mcpTofromList] at hok
  by_cases hdefault : IsDefault text
  · have hword : text = ascii "default" ∨ text = ascii "DEFAULT" := hdefault
    rw [if_pos hword] at hok
    cases hok
    split_ifs
    · exact ⟨⟨h.ok.sorted, h.ok.length_le, h.ok.length_cmdcnt⟩, h.entries, hcmd⟩
    · exact h
  have hword : ¬ (text = ascii "default" ∨ text = ascii "DEFAULT") := hdefault
  rw [if_neg hword] at hok
  rcases edomainSearch_spec h.ok.sorted text with
    ⟨i, hi, hsearch, rfl⟩ | ⟨idx, hsearch, hsplit⟩
  · rw [hsearch] at hok
    dsimp only at hok
    by_cases hremove : cmd = Ift.remove
    · rw [if_pos hremove, edomainRemove_eq hi] at hok
      cases hok
      exact ⟨h.ok.deleteAt i, fun e he => h.entries e ((deleteAt_sublist _ i).subset he), h.dflt⟩
    · have hget : l.entries.getD i default = l.entries[i] := by simp [hi]
      rw [if_neg hremove, hget] at hok
      cases hok
      refine ⟨h.ok.set hi rfl, fun e he => ?_, h.dflt⟩
      rcases List.mem_or_eq_of_mem_set he with he | rfl
      · exact h.entries e he
      · exact ⟨htext, hdefault, hcmd⟩
  · rw [hsearch] at hok
    dsimp only at hok
    by_cases hremove : cmd = Ift.remove
    · rw [if_neg (not_not.mpr hremove)] at hok
      cases hok
      exact h
    · have hnew : SplitsAt ({ text := text, count := 0, cmd := cmd } : EDomain).text
          (texts l.entries) idx := hsplit
      obtain ⟨l₁, hadd, hok₁, hentries, hdflt, -⟩ := h.ok.add ndebug hnew
      rw [if_pos hremove, hadd] at hok
      cases hok
      refine ⟨hok₁, fun e he => ?_, hdflt ▸ h.dflt⟩
      rw [hentries, mem_insertAt] at he
      rcases he with rfl | he
      · exact ⟨htext, hdefault, hcmd⟩
      · exact h.entries e he

section Steps

variable {cgi : CgiLib} {cfg : Config} {srv srv' : Server}

theorem Server.Savable.filterOk (h : srv.Savable cfg) : FilterOk srv :=
  ⟨h.iplist.ok, h.ipCmdcnt, (h.lists .fromL).ok, (h.lists .fromdL).ok, (h.lists .toL).ok,
    (h.lists .todL).ok⟩

/-- **A request for a verdict** does not change the filter. -/
theorem typeGreylist_filter (h : FilterOk srv) {req req' : Request} {cmd response : Cmd}
    {out : List Output} (hok : typeGreylist cfg srv req cmd response = .ok (out, srv', req')) :
    FilterOk srv' ∧ srv'.filter = srv.filter := by
  by_cases hacc : req.Accepts
  · obtain ⟨srv₁, hfilter, hsame, -, heq⟩ := typeGreylist_eq cfg h hacc cmd response
    rw [heq] at hok
    obtain ⟨verdict, -, hanswer⟩ := bind_eq_ok.mp hok
    cases verdict with
    | some stage =>
        cases hanswer
        exact ⟨hfilter, hsame⟩
    | none =>
        obtain ⟨r, -, hanswer⟩ := bind_eq_ok.mp hanswer
        cases hanswer
        exact ⟨hfilter.withStore r.2, hsame⟩
  · rw [typeGreylist_of_not_accepts cfg srv hacc] at hok
    cases hok
    exact ⟨h, rfl⟩

/-- A server with the same filter and a list of client addresses that is kept can be saved as
far as the rules are concerned. -/
theorem Server.Savable.lists_of_filter (h : srv.Savable cfg) (hok : FilterOk srv')
    (hsame : srv'.filter = srv.filter) (name : ListName) : (srv'.list name).Savable := by
  cases name with
  | fromL =>
      exact (h.lists .fromL).of_rules hok.fromL (congrArg FilterRules.sender hsame)
  | fromdL =>
      exact (h.lists .fromdL).of_rules hok.fromdL (congrArg FilterRules.senderDomain hsame)
  | toL =>
      exact (h.lists .toL).of_rules hok.toL (congrArg FilterRules.recipient hsame)
  | todL =>
      exact (h.lists .todL).of_rules hok.todL (congrArg FilterRules.recipientDomain hsame)

/-- **The rules** that can be saved are kept by every request that brings no others. -/
theorem Server.Savable.dispatch_rules (h : srv.Savable cfg) {req req' : Request}
    {canReport : Bool} {type : Option Cmd} {out : List Output}
    (ha : Action.Savable cfg (.request req canReport type))
    (hok : dispatch cfg srv req canReport type = .ok (out, srv', req')) :
    srv'.ipCmdcnt.length = 3 ∧ IpKept srv'.iplist ∧ ∀ name, (srv'.list name).Savable := by
  obtain ⟨-, hiplist, htofrom⟩ := ha
  have hsame : srv.ipCmdcnt.length = 3 ∧ IpKept srv.iplist ∧ ∀ name, (srv.list name).Savable :=
    ⟨h.ipCmdcnt, h.iplist, h.lists⟩
  have hstep := dispatch_inv hok
  cases hstep with
  | same => exact hsame
  | check whitelist _ hacc rc tree hmatch hkept =>
      have hcheck : typeGreylist cfg srv req (checkCmd whitelist) (checkResp whitelist) =
          .ok (out, srv', req') := by
        cases whitelist <;> exact hok
      obtain ⟨hfilter, hrules⟩ := typeGreylist_filter h.filterOk hcheck
      obtain ⟨l', v, hcall, hl'⟩ := h.iplist.call cfg.ndebug
        (c := .lookup (req.tuple cfg).ip.toList) (show 5 ≤ _ by simp)
      rw [ipCallStep, hmatch] at hcall
      cases hcall
      exact ⟨hfilter.ipCmdcnt, hkept ▸ hl', h.lists_of_filter hfilter hrules⟩
  | remove hacc => exact hsame
  | iplist l hsize hadd =>
      obtain ⟨hlen, hmask, hcmd⟩ := hiplist rfl
      have hip : 4 ≤ (req.packet.drop 16).length := by
        rw [List.length_drop]
        omega
      obtain ⟨l', hadd', hl', -⟩ := h.iplist.add cfg.ndebug hip (Int.natCast_nonneg _)
        (by exact_mod_cast hmask) hcmd
      rw [hadd] at hadd'
      cases hadd'
      exact ⟨h.ipCmdcnt, hl', h.lists⟩
  | tofrom name text l htext hlist =>
      obtain ⟨htoken, hcmd⟩ := htofrom name rfl
      have hread : text = (req.packet.drop 14).takeWhile (· ≠ 0) := by
        rw [cstring] at htext
        split_ifs at htext
        cases htext
        rfl
      rw [← hread] at htoken
      have hl := (h.lists name).mcpTofromList htoken hcmd hlist
      refine ⟨?_, ?_, fun name' => ?_⟩
      · cases name <;> exact h.ipCmdcnt
      · cases name <;> exact h.iplist
      · rw [list_setList]
        by_cases hname : name' = name
        · rw [hname, Function.update_self]
          exact hl
        · rw [Function.update_of_ne hname]
          exact h.lists name'

/-- **One step** that brings nothing that could not be saved. -/
theorem Server.Savable.actionStep (h : srv.Savable cfg) {a : Action} (ha : a.Savable cfg)
    {out : List Output} (hok : actionStep cgi cfg srv a = .ok (srv', out)) :
    srv'.Savable cfg := by
  have hmakes : a.Makes cgi cfg Tuple.Clean := by
    cases a with
    | whitelistLoad now lines => exact ha.elim
    | request req canReport type => exact ha.1
    | iplistRead => trivial
    | tofromRead => trivial
    | sigalrm => trivial
    | sigusr2 => trivial
  have hrules : srv'.ipCmdcnt.length = 3 ∧ IpKept srv'.iplist ∧
      ∀ name, (srv'.list name).Savable := by
    have hstep := actionStep_inv hok
    cases hstep with
    | iplistRead => exact ha.elim
    | whitelistLoad => exact ha.elim
    | tofromRead => exact ha.elim
    | request req canReport type srv' out req' hdispatch => exact h.dispatch_rules ha hdispatch
    | sweep a now _ srv' s _ _ _ _ hiplist hcnt hlist =>
        rw [hcnt, hiplist, hlist]
        exact ⟨h.ipCmdcnt, h.iplist, h.lists⟩
  exact
    { layout := actionStep_hasLayout h.layout hok
      padded := lasting_padded.actionStep h.layout h.padded (makes_padded a) hok
      clean := lasting_clean.actionStep h.layout h.clean hmakes hok
      ipCmdcnt := hrules.1
      iplist := hrules.2.1
      lists := hrules.2.2 }

end Steps

/-! ### A restart -/

/-- What a restart keeps. -/
structure Restarted (srv srv' : Server) : Prop where
  filter : srv'.filter = srv.filter
  ipcnt : srv'.iplist.ipcnt = srv.iplist.ipcnt
  store : Restored srv.store srv'.store

/-- Counts are no part of the rules. -/
theorem rules_unused {l l' : AddrList} (hentries : l'.entries = l.entries.map EDomain.unused)
    (hdflt : l'.dflt = l.dflt) : l'.rules = l.rules := by
  have hrule : ∀ text, (findText l'.entries text).map EDomain.cmd =
      (findText l.entries text).map EDomain.cmd := by
    intro text
    rw [hentries, findText, List.find?_map, Option.map_map]
    rfl
  rw [AddrList.rules, AddrList.rules, hdflt]
  congr 1
  exact funext hrule

section Restart

variable {cgi : CgiLib} {cfg : Config} {srv : Server}

/-- The file of a list is read by a server that has nothing in this list yet. -/
theorem tofromRead_dump (hcgi : cgi.Behaves) (cfg : Config) {l : AddrList} (h : l.Savable)
    (srv : Server) (name : ListName) (hinit : srv.list name = AddrList.init) :
    ∃ l', actionStep cgi cfg srv (.tofromRead name (getlines 10 l.dumpStream)) =
        .ok (srv.setList l' name, []) ∧ l'.Savable ∧ l'.rules = l.rules := by
  obtain ⟨l', hread, hok, hentries, hdflt, -⟩ := tofromReadStream_dump hcgi cfg.ndebug h
  have hrules := rules_unused hentries hdflt
  refine ⟨l', ?_, h.of_rules hok hrules, hrules⟩
  rw [actionStep, tofromRead, hinit, hread, ok_bind, ok_bind]

/-- The lines of a file are those of the whitelist that is loaded. -/
theorem Startup.map_text_whiteLines (env : Startup) (file : List UInt8) :
    (env.whiteLines file).map WhiteLine.text = getlines 10 file := by
  apply List.ext_getElem <;> simp [Startup.whiteLines]

/-- What a server comes to that reads six files. -/
theorem globalsInit_eq {env : Startup} {file text : List UInt8} {l : IpList} {whole : Bool}
    {s : TupleSpace} (hread : iplistRead cgi cfg.ndebug IpList.init env.ip (getlines 10 text) =
      .ok (l, whole))
    (hload : whitelistLoad cgi cfg env.now (TupleSpace.init cfg) (env.whiteLines file) = .ok s)
    (hcgi : cgi.Behaves) (h : ∀ name, (srv.list name).Savable) :
    ∃ srv' outs, run (actionStep cgi cfg) (Server.init cfg env.now) (startActions env
        ⟨some file, some text, fun name => some (srv.dumpStream name)⟩) = .ok (srv', outs) ∧
      srv'.iplist = l ∧ srv'.store = s ∧ srv'.ipCmdcnt.length = 3 ∧
      ∀ name, (srv'.list name).Savable ∧ (srv'.list name).rules = (srv.list name).rules := by
  let srv₁ : Server := { Server.init cfg env.now with iplist := l, store := s }
  have hiplist : actionStep cgi cfg (Server.init cfg env.now)
      (.iplistRead env.ip (getlines 10 text)) =
        .ok ({ Server.init cfg env.now with iplist := l }, []) := by
    rw [actionStep, show (Server.init cfg env.now).iplist = IpList.init from rfl, hread, ok_bind]
  have hwhite : actionStep cgi cfg { Server.init cfg env.now with iplist := l }
      (.whitelistLoad env.now (env.whiteLines file)) = .ok (srv₁, []) := by
    rw [actionStep, show ({ Server.init cfg env.now with iplist := l } : Server).store =
      TupleSpace.init cfg from rfl, hload, ok_bind]
  obtain ⟨toL, hto, hto', hto''⟩ := tofromRead_dump hcgi cfg (h .toL) srv₁ .toL rfl
  let srv₂ := srv₁.setList toL .toL
  obtain ⟨todL, htod, htod', htod''⟩ := tofromRead_dump hcgi cfg (h .todL) srv₂ .todL rfl
  let srv₃ := srv₂.setList todL .todL
  obtain ⟨fromL, hfrom, hfrom', hfrom''⟩ := tofromRead_dump hcgi cfg (h .fromL) srv₃ .fromL rfl
  let srv₄ := srv₃.setList fromL .fromL
  obtain ⟨fromdL, hfromd, hfromd', hfromd''⟩ :=
    tofromRead_dump hcgi cfg (h .fromdL) srv₄ .fromdL rfl
  simp only [← dumpStream_list] at hto htod hfrom hfromd
  refine ⟨srv₄.setList fromdL .fromdL, List.replicate 6 [], ?_, rfl, rfl, rfl, fun name => ?_⟩
  · simp only [startActions, readList, Option.map_some, Option.toList_some, List.cons_append,
      List.nil_append]
    rw [run_cons_of_ok _ hiplist, run_cons_of_ok _ hwhite, run_cons_of_ok _ hto,
      run_cons_of_ok _ htod, run_cons_of_ok _ hfrom, run_cons_of_ok _ hfromd]
    rfl
  · cases name with
    | toL => exact ⟨hto', hto''⟩
    | todL => exact ⟨htod', htod''⟩
    | fromL => exact ⟨hfrom', hfrom''⟩
    | fromdL => exact ⟨hfromd', hfromd''⟩

/-- **A restart.** -/
theorem Server.Savable.restart (hcgi : cgi.Behaves) (h : srv.Savable cfg) (env : Startup)
    (hip : 4 ≤ env.ip.length) :
    ∃ files srv', saveState cfg srv = .ok files ∧ globalsInit cgi cfg env files = .ok srv' ∧
      srv'.Savable cfg ∧ Restarted srv srv' := by
  -- what is written
  have hwhite := whitelistDumpStream_eq h.padded
  obtain ⟨text, l, hdump, hread, hl, hrules⟩ := h.iplist.reload hcgi cfg.ndebug cfg.ndebug hip
  have hsave : saveState cfg srv = .ok ⟨some (srv.store.dumpedTuples.flatMap fun t =>
      t.dumpLine ++ [10]), some text, fun name => some (srv.dumpStream name)⟩ := by
    rw [saveState, hwhite, ok_bind, hdump, ok_bind]
  -- what is read
  have hroom : srv.store.liveTuples.length ≤ cfg.poolmax := by
    obtain ⟨live, free, top, hl⟩ := h.layout
    rw [hl.length_liveTuples]
    exact hl.poolnum_le
  obtain ⟨s, hload, hrestored⟩ := restores_of_clean hcgi hroom
    (fun t ht => h.clean t (mem_dumpedTuples.mp ht).1) env.now _ (env.map_text_whiteLines _)
  obtain ⟨srv', outs, hrun, hiplist, hstore, hcnt, hlists⟩ :=
    globalsInit_eq hread hload hcgi h.lists
  have hclean : ∀ t ∈ srv'.store.liveTuples, t.Clean := by
    intro t ht
    rw [hstore] at ht
    obtain ⟨u, hu, -, -, hkey⟩ := (hrestored.mem_keys t.key).mp (List.mem_map_of_mem ht)
    exact (h.clean u hu).of_key hkey
  have hfilter : srv'.filter = srv.filter := by
    have hto : srv'.toL.rules = srv.toL.rules := (hlists .toL).2
    have htod : srv'.todL.rules = srv.todL.rules := (hlists .todL).2
    have hfrom : srv'.fromL.rules = srv.fromL.rules := (hlists .fromL).2
    have hfromd : srv'.fromdL.rules = srv.fromdL.rules := (hlists .fromdL).2
    rw [Server.filter, Server.filter, hiplist, hrules, hto, htod, hfrom, hfromd]
  refine ⟨_, srv', hsave, ?_, ?_, hfilter, ?_, hstore ▸ hrestored⟩
  · rw [globalsInit, hrun, ok_bind]
  · exact
      { layout := run_hasLayout hrun
        padded := run_liveTuples lasting_padded (fun a _ => makes_padded a) hrun
        clean := hclean
        ipCmdcnt := hcnt
        iplist := hiplist ▸ hl
        lists := fun name => (hlists name).1 }
  · rw [hiplist, hl.ipcnt, h.iplist.ipcnt, BinTrie.size_congr hrules]

end Restart

/-! ### The answers -/

/-- What is answered to a request for a verdict. -/
def Server.answers (cfg : Config) (srv : Server) (whitelist : Bool) (req : Request) :
    Exec (List Output) := do
  let (out, _, _) ← typeGreylist cfg srv req (checkCmd whitelist) (checkResp whitelist)
  .ok out

/-- A request is settled if a rule decides it, or if its tuple is found and is whitelisted for
good. -/
def Settled (cfg : Config) (srv : Server) (req : Request) : Prop :=
  req.Accepts → decideStages (srv.stages (req.tuple cfg)) ≠ .ok none ∨
    ∃ p, (tupleSearch srv.store (req.tuple cfg)).1 = some p ∧
      (srv.store.deref p).whitelisted = true ∧ (srv.store.deref p).removed = false

section Answers

variable {cfg : Config} {srv srv' : Server}

/-- A tuple that is found and whitelisted is let through. -/
theorem checkTuple_whitelisted {s : TupleSpace} (h : HasLayout cfg s) {tuple : Tuple} {p : ℕ}
    (hfound : (tupleSearch s tuple).1 = some p) (hwhite : (s.deref p).whitelisted = true)
    (cmd : Cmd) (now clock : ℤ) :
    ∃ s', typeGreylistCheckTuple cfg s tuple cmd now clock = .ok (passReply, s') := by
  obtain ⟨live, free, top, hl⟩ := h
  rcases tupleSearch_cases hl tuple with ⟨p', idx, hsearch, hp, -⟩ | ⟨idx, hsearch, -⟩
  · rw [hsearch] at hfound
    cases hfound
    refine ⟨hitStore cfg s p cmd now, ?_⟩
    rw [typeGreylistCheckTuple_hit hsearch (hl.lt_length_pool hp), passes, hwhite, Bool.true_or,
      Bool.true_or, if_pos rfl]
  · rw [hsearch] at hfound
    cases hfound

/-- A search finds every key of a store that is in order. -/
theorem tupleSearch_of_mem {s : TupleSpace} (h : HasLayout cfg s) (hs : Increasing s)
    {tuple : Tuple} (hkey : tuple.key ∈ s.keys) :
    ∃ p, (tupleSearch s tuple).1 = some p ∧ p ∈ s.live := by
  obtain ⟨live, free, top, hl⟩ := h
  have hsorted : s.keys.Pairwise (· < ·) := by
    rw [TupleSpace.keys, List.pairwise_map]
    refine hs.imp fun {t t'} hlt => ?_
    have hcmp := tupleLookIft_compares t t'
    rw [hlt] at hcmp
    exact hcmp
  rcases tupleSearch_spec (hl.live_eq ▸ hl.length_live) hsorted tuple with
    ⟨p, hp, idx, -, hsearch⟩ | ⟨idx, hsplit, -⟩
  · exact ⟨p, by rw [hsearch], hp⟩
  · exact absurd hkey hsplit.notMem

/-- **What is answered** to a request that is accepted. -/
theorem answers_eq (h : FilterOk srv) {req : Request} (hacc : req.Accepts) (whitelist : Bool) :
    srv.answers cfg whitelist req = (do
      match ← decideStages (srv.stages (req.tuple cfg)) with
      | some (rc, why) => .ok [req.reply (checkResp whitelist) rc why]
      | none => do
          let ((rc, why), _) ← typeGreylistCheckTuple cfg srv.store (req.tuple cfg)
            (checkCmd whitelist) req.now req.clock
          .ok [req.reply (checkResp whitelist) rc why]) := by
  obtain ⟨srv₁, -, -, hstore, heq⟩ :=
    typeGreylist_eq cfg h hacc (checkCmd whitelist) (checkResp whitelist)
  rw [Server.answers, heq]
  cases decideStages (srv.stages (req.tuple cfg)) with
  | error e => rfl
  | ok verdict =>
      cases verdict with
      | some stage => rfl
      | none =>
          rw [ok_bind, ok_bind, answer, hstore]
          cases typeGreylistCheckTuple cfg srv.store (req.tuple cfg) (checkCmd whitelist)
            req.now req.clock <;> rfl

/-- **A settled request** gets the same answer from a server that was restarted. -/
theorem Restarted.answers (h : Restarted srv srv') (hsrv : srv.Savable cfg)
    (hsrv' : srv'.Savable cfg) {req : Request} (hsettled : Settled cfg srv req)
    (whitelist : Bool) : srv'.answers cfg whitelist req = srv.answers cfg whitelist req := by
  by_cases hacc : req.Accepts
  · rw [answers_eq hsrv.filterOk hacc, answers_eq hsrv'.filterOk hacc, Server.stages,
      Server.stages, h.filter]
    have hdecided := hsettled hacc
    rw [Server.stages] at hdecided
    cases hstages : decideStages (srv.filter.stages (req.tuple cfg).ip.toList
      (req.tuple cfg).sender (req.tuple cfg).recipient) with
    | error e => rfl
    | ok verdict =>
        cases verdict with
        | some stage => rfl
        | none =>
            obtain ⟨p, hfound, hwhite, hkept⟩ := hdecided.resolve_left (not_not.mpr hstages)
            obtain ⟨live, free, top, hl⟩ := hsrv.layout
            have hp := (tupleSearch_bounds (hl.live_eq ▸ hl.length_live) _).2.2 p hfound
            have hmem : (req.tuple cfg).key ∈ srv'.store.keys :=
              (h.store.mem_keys _).mpr
                ⟨srv.store.deref p, List.mem_map_of_mem hp.1, hwhite, hkept, hp.2⟩
            obtain ⟨p', hfound', hp'⟩ :=
              tupleSearch_of_mem hsrv'.layout h.store.increasing hmem
            have hwhite' := h.store.whitelisted _ (List.mem_map_of_mem hp')
            obtain ⟨s, hcheck⟩ := checkTuple_whitelisted hsrv.layout hfound hwhite
              (checkCmd whitelist) req.now req.clock
            obtain ⟨s', hcheck'⟩ := checkTuple_whitelisted hsrv'.layout hfound' hwhite'
              (checkCmd whitelist) req.now req.clock
            rw [ok_bind, hcheck, hcheck']
            rfl
  · rw [Server.answers, Server.answers, typeGreylist_of_not_accepts cfg srv hacc,
      typeGreylist_of_not_accepts cfg srv' hacc]
    rfl

end Answers

/-! ### Any number of restarts -/

/-- The states of a server that is started without files, works on requests and signals that
bring nothing that could not be saved, and is restarted from its files every now and then. -/
inductive Reached (cgi : CgiLib) (cfg : Config) : Server → Prop
  | start (now : ℤ) : Reached cgi cfg (Server.init cfg now)
  | step {srv srv' : Server} {a : Action} {out : List Output} (h : Reached cgi cfg srv)
      (ha : a.Savable cfg) (hok : actionStep cgi cfg srv a = .ok (srv', out)) :
      Reached cgi cfg srv'
  | restart {srv srv' : Server} {files : StateFiles} {env : Startup} (h : Reached cgi cfg srv)
      (hip : 4 ≤ env.ip.length) (hsave : saveState cfg srv = .ok files)
      (hinit : globalsInit cgi cfg env files = .ok srv') : Reached cgi cfg srv'

/-- A server that has just started has nothing to save. -/
theorem savable_init (cfg : Config) (now : ℤ) : (Server.init cfg now).Savable cfg where
  layout := hasLayout_init cfg
  padded _ ht := absurd ht List.not_mem_nil
  clean _ ht := absurd ht List.not_mem_nil
  ipCmdcnt := rfl
  iplist := ipKept_init
  lists name := by
    rw [show (Server.init cfg now).list name = AddrList.init by cases name <;> rfl]
    exact ⟨addrListOk_init, fun e he => absurd he List.not_mem_nil, Or.inl rfl⟩

theorem Reached.savable {cgi : CgiLib} (hcgi : cgi.Behaves) {cfg : Config} {srv : Server}
    (h : Reached cgi cfg srv) : srv.Savable cfg := by
  induction h with
  | start now => exact savable_init cfg now
  | step h ha hok ih => exact ih.actionStep ha hok
  | @restart srv srv' files env h hip hsave hinit ih =>
      obtain ⟨files', srv₁, hsave', hinit', hsrv₁, -⟩ := ih.restart hcgi env hip
      rw [hsave] at hsave'
      cases hsave'
      rw [hinit] at hinit'
      cases hinit'
      exact hsrv₁

end XGrey
