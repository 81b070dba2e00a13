import XGrey.AddressLists
import XGrey.RequestSteps

/-!
# Rules for Long Addresses

The clients send up to 200 bytes of an address, and the control program installs rules for
texts of up to 200 bytes. The tuple of a request has room for 107 of them, and it is the
address in the tuple that `type_greylist` looks up.

## Main results

* `run_listsOk`: the address lists are in order in every state that the server reaches.
* `honoured_iff`: the rules for an address are honoured exactly when it has at most 107
  bytes.
-/

open CRuntime StepRun KeyedArray SortedSeq PrefixMap

namespace XGrey

/-! ### The lists stay in order -/

section Lists

variable {l l' : AddrList} {ndebug : Bool}

/-- An insertion where the search ended, if it returns. -/
theorem AddrListOk.edomainAdd (h : AddrListOk l) {rec : EDomain} {idx : ℕ}
    (hsplit : SplitsAt rec.text (texts l.entries) idx)
    (hok : XGrey.edomainAdd ndebug l rec idx = .ok l') : AddrListOk l' := by
  obtain ⟨l₁, hadd, hl₁, -⟩ := h.add ndebug hsplit
  rw [hadd] at hok
  cases hok
  exact hl₁

/-- A packet of the control program. -/
theorem AddrListOk.exists_packet (h : AddrListOk l) (ndebug : Bool) (text : List UInt8) (cmd : ℤ) :
    ∃ l', mcpTofromList ndebug l text cmd = .ok l' ∧ AddrListOk l' := by
  rw [mcpTofromList]
  by_cases hword : text = ascii "default" ∨ text = ascii "DEFAULT"
  · rw [if_pos hword]
    by_cases hcmd : cmd ≠ Ift.remove
    · rw [if_pos hcmd]
      exact ⟨_, rfl, h.sorted, h.length_le, h.length_cmdcnt⟩
    · rw [if_neg hcmd]
      exact ⟨l, rfl, h⟩
  rw [if_neg hword]
  rcases edomainSearch_spec h.sorted text with ⟨i, hi, hsearch, -⟩ | ⟨idx, hsearch, hsplit⟩
  · rw [hsearch]
    dsimp only
    by_cases hcmd : cmd = Ift.remove
    · rw [if_pos hcmd, edomainRemove_eq hi]
      exact ⟨_, rfl, h.deleteAt i⟩
    · have hget : l.entries.getD i default = l.entries[i] := by simp [hi]
      rw [if_neg hcmd, hget]
      exact ⟨_, rfl, h.set hi rfl⟩
  · rw [hsearch]
    dsimp only
    by_cases hcmd : cmd ≠ Ift.remove
    · rw [if_pos hcmd]
      obtain ⟨l₁, hadd, hl₁, -⟩ :=
        @AddrListOk.add l h ndebug { text := text, count := 0, cmd := cmd } idx hsplit
      exact ⟨l₁, hadd, hl₁⟩
    · rw [if_neg hcmd]
      exact ⟨l, rfl, h⟩

theorem AddrListOk.packet (h : AddrListOk l) {text : List UInt8} {cmd : ℤ}
    (hok : mcpTofromList ndebug l text cmd = .ok l') : AddrListOk l' := by
  obtain ⟨l₁, hok₁, hl₁⟩ := h.exists_packet ndebug text cmd
  rw [hok₁] at hok
  cases hok
  exact hl₁

/-- A line of a file, if it returns. -/
theorem AddrListOk.line (h : AddrListOk l) {line : TofromLine}
    (hok : tofromAdd ndebug l line = .ok l') : AddrListOk l' := by
  cases line with
  | blank =>
      cases hok
      exact h
  | bad =>
      cases hok
      exact h
  | dflt cmd =>
      cases hok
      exact ⟨h.sorted, h.length_le, h.length_cmdcnt⟩
  | rule text cmd =>
      rw [tofromAdd] at hok
      rcases edomainSearch_spec h.sorted text with
        ⟨i, -, hsearch, -⟩ | ⟨idx, hsearch, hsplit⟩
      · rw [hsearch] at hok
        cases hok
        exact h
      · rw [hsearch] at hok
        exact h.edomainAdd hsplit hok

/-- **A file**, if it is read. -/
theorem AddrListOk.file {cgi : CgiLib} (h : AddrListOk l) {held : Bool}
    {lines : List (List UInt8)} (hok : tofromReadStream cgi ndebug l held lines = .ok l') :
    AddrListOk l' := by
  induction lines generalizing l held with
  | nil =>
      rw [tofromReadStream] at hok
      split_ifs at hok
      cases hok
      exact h
  | cons linebuff lines ih =>
      rw [tofromReadStream] at hok
      by_cases hheld : held = true
      · rw [if_pos hheld] at hok
        obtain ⟨line, -, hok⟩ := bind_eq_ok.mp hok
        obtain ⟨l₁, hadd, hok⟩ := bind_eq_ok.mp hok
        by_cases hnewline : linebuff.getLast? = some 10
        · rw [if_pos hnewline] at hok
          exact ih (h.line hadd) hok
        · rw [if_neg hnewline] at hok
          cases hok
          exact h.line hadd
      · rw [if_neg hheld] at hok
        cases hok

end Lists

section Runs

variable {cgi : CgiLib} {cfg : Config} {srv srv' : Server}

theorem ListsOk.list (h : ListsOk srv) (name : ListName) : AddrListOk (srv.list name) := by
  cases name with
  | fromL => exact h.fromL
  | fromdL => exact h.fromdL
  | toL => exact h.toL
  | todL => exact h.todL

theorem ListsOk.setList (h : ListsOk srv) {l : AddrList} (hl : AddrListOk l)
    (name : ListName) : ListsOk (srv.setList l name) := by
  cases name with
  | fromL => exact ⟨h.ipCmdcnt, hl, h.fromdL, h.toL, h.todL⟩
  | fromdL => exact ⟨h.ipCmdcnt, h.fromL, hl, h.toL, h.todL⟩
  | toL => exact ⟨h.ipCmdcnt, h.fromL, h.fromdL, hl, h.todL⟩
  | todL => exact ⟨h.ipCmdcnt, h.fromL, h.fromdL, h.toL, hl⟩

/-- Only the lists and the counters matter. -/
theorem ListsOk.congr (h : ListsOk srv) (hcnt : srv'.ipCmdcnt = srv.ipCmdcnt)
    (hlist : srv'.list = srv.list) : ListsOk srv' := by
  have hname : ∀ name, AddrListOk (srv'.list name) := fun name => hlist ▸ h.list name
  exact ⟨hcnt ▸ h.ipCmdcnt, hname .fromL, hname .fromdL, hname .toL, hname .todL⟩

/-- A request for a verdict, if it returns. -/
theorem ListsOk.check (h : ListsOk srv) {req req' : Request} {cmd response : Cmd}
    {out : List Output} (hok : typeGreylist cfg srv req cmd response = .ok (out, srv', req')) :
    ListsOk srv' := by
  by_cases hacc : req.Accepts
  · obtain ⟨-, ⟨rc, tree, hmatch, -⟩, -⟩ := typeGreylist_inv hacc hok
    obtain ⟨srv₁, hsrv₁, -, -, -, heq⟩ :=
      typeGreylist_of_ipMatch cfg h hacc hmatch cmd response
    rw [heq] at hok
    obtain ⟨verdict, -, hok⟩ := bind_eq_ok.mp hok
    cases verdict with
    | some stage =>
        cases hok
        exact hsrv₁
    | none =>
        obtain ⟨r, -, hok⟩ := bind_eq_ok.mp hok
        cases hok
        exact hsrv₁.congr rfl rfl
  · rw [typeGreylist_of_not_accepts cfg srv hacc] at hok
    cases hok
    exact h

/-- A request of any type, if it returns. -/
theorem ListsOk.request (h : ListsOk srv) {req req' : Request} {canReport : Bool}
    {type : Option Cmd} {out : List Output}
    (hok : dispatch cfg srv req canReport type = .ok (out, srv', req')) : ListsOk srv' := by
  have hstep := dispatch_inv hok
  cases hstep with
  | same => exact h
  | check whitelist =>
      cases whitelist with
      | false => exact @ListsOk.check cfg srv srv' h _ _ _ (checkResp false) _ hok
      | true => exact @ListsOk.check cfg srv srv' h _ _ _ (checkResp true) _ hok
  | remove hacc => exact h.congr rfl rfl
  | iplist l hsize hadd => exact h.congr rfl rfl
  | tofrom name text l htext hlist => exact h.setList ((h.list name).packet hlist) name

/-- **One step** of the server, if it returns. -/
theorem ListsOk.step (h : ListsOk srv) {a : Action} {out : List Output}
    (hok : actionStep cgi cfg srv a = .ok (srv', out)) : ListsOk srv' := by
  have hstep := actionStep_inv hok
  cases hstep with
  | iplistRead => exact h.congr rfl rfl
  | whitelistLoad => exact h.congr rfl rfl
  | tofromRead name lines l hread => exact h.setList ((h.list name).file hread) name
  | request req canReport type srv' out req' hdispatch => exact h.request hdispatch
  | sweep a now ha srv' s hspace hnum hpool hexpire hiplist hcnt hlist =>
      exact h.congr hcnt hlist

/-- **Every run** from startup on. -/
theorem run_listsOk {starttime : ℤ} {actions : List Action} {outs : List (List Output)}
    (hrun : run (actionStep cgi cfg) (Server.init cfg starttime) actions = .ok (srv, outs)) :
    ListsOk srv := by
  have hstep : ∀ srv a srv' out, ListsOk srv → True →
      actionStep cgi cfg srv a = .ok (srv', out) → ListsOk srv' :=
    fun _ _ _ _ h _ hok => h.step hok
  exact run_invariant hstep (filterOk_init cfg starttime).lists
    (along_of_forall (fun _ _ => trivial) _ actions) hrun

end Runs

/-! ### The addresses of a request -/

/-- An address that a client sends, or that the control program installs a rule for. -/
structure Address where
  text : List UInt8
  length_le : text.length ≤ 200
  zero_notMem : 0 ∉ text

/-- The two addresses of a request. -/
inductive Side
  | sender
  | recipient

namespace Side

/-- The list of rules for the address. -/
def addr : Side → ListName
  | sender => .fromL
  | recipient => .toL

/-- The list of rules for its domain. -/
def dom : Side → ListName
  | sender => .fromdL
  | recipient => .todL

/-- The reason of a verdict on the address. -/
def why : Side → Reason
  | sender => .sender
  | recipient => .recipient

/-- The reason of a verdict on its domain. -/
def whyDomain : Side → Reason
  | sender => .senderDomain
  | recipient => .recipientDomain

/-- The address that a request carries. -/
def text (req : Request) : Side → List UInt8
  | sender => req.bytes (16 + req.ipsize) req.fromsize
  | recipient => req.bytes (16 + req.ipsize + req.fromsize) req.tosize

/-- The address that is looked up. -/
def tupleText (t : Tuple) : Side → List UInt8
  | sender => t.sender
  | recipient => t.recipient

/-- The stages in front of the address say `GREYLIST`: the client and, for a recipient, the
sender. -/
def Earlier (cfg : Config) (srv : Server) (req : Request) : Side → Prop
  | sender => ∃ tree, ipMatch cfg.ndebug srv.iplist.tree (req.tuple cfg).ip.toList =
      .ok (Ift.greylist, tree)
  | recipient =>
      (∃ tree, ipMatch cfg.ndebug srv.iplist.tree (req.tuple cfg).ip.toList =
        .ok (Ift.greylist, tree)) ∧
      ∃ addr dom, checkAddress srv.fromL srv.fromdL (req.tuple cfg).fromText.toList .sender
        .senderDomain = .ok (none, addr, dom)

/-- **What is looked up** is cut to 107 bytes. -/
theorem tupleText_tuple (side : Side) (cfg : Config) (req : Request) :
    side.tupleText (req.tuple cfg) = ((side.text req).take 107).takeWhile (· ≠ 0) := by
  have hcut : ∀ off n, (buffer 108 (req.bytes off (min 107 n))).toList.takeWhile (· ≠ 0) =
      ((req.bytes off n).take 107).takeWhile (· ≠ 0) := by
    intro off n
    have hlen := (length_bytes_le req off (min 107 n)).trans (Nat.min_le_left 107 n)
    rw [takeWhile_buffer (by omega), Request.bytes, Request.bytes, List.take_take]
  cases side with
  | sender => exact hcut _ _
  | recipient => exact hcut _ _

end Side

/-! ### What the rules ask for -/

/-- The command of a rule on an address or, if there is none and the default is `GREYLIST`,
of one on its domain, with the reason. -/
inductive Ruled (addr dom : AddrList) (text : List UInt8) (why whyDomain : Reason) :
    ℤ → Reason → Prop
  | address (e : EDomain) (he : e ∈ addr.entries) (htext : e.text = text)
      (hcmd : e.cmd = Ift.accept ∨ e.cmd = Ift.reject) :
      Ruled addr dom text why whyDomain e.cmd why
  | domain (d : List UInt8) (e : EDomain) (hnone : ∀ e ∈ addr.entries, e.text ≠ text)
      (hdflt : addr.dflt = Ift.greylist) (hd : domainOf text = some d)
      (he : e ∈ dom.entries) (htext : e.text = d)
      (hcmd : e.cmd = Ift.accept ∨ e.cmd = Ift.reject) :
      Ruled addr dom text why whyDomain e.cmd whyDomain

/-- The rule for a text in a list. -/
theorem AddrListOk.rule_eq {l : AddrList} (h : AddrListOk l) {e : EDomain}
    (he : e ∈ l.entries) : l.rules.rule e.text = some e.cmd := by
  have hfound : findText l.entries e.text = some e :=
    (lookup_eq_some_iff (nodup_texts h.sorted)).mpr ⟨he, rfl⟩
  rw [AddrList.rules]
  dsimp only
  rw [hfound]
  rfl

/-- **What the rules ask for** is what the stages decide. -/
theorem Ruled.decideStages {addr dom : AddrList} (ha : AddrListOk addr) (hd : AddrListOk dom)
    {text : List UInt8} {why whyDomain w : Reason} {rc : ℤ}
    (h : Ruled addr dom text why whyDomain rc w) :
    decideStages (addressStages addr.rules dom.rules text why whyDomain) =
      .ok (some (rc, w)) := by
  rw [addressStages]
  cases h with
  | address e he htext hcmd =>
      have hrule := ha.rule_eq he
      rw [htext] at hrule
      rw [TextRules.verdict, hrule]
      exact decideStages_cons_of hcmd _ _
  | domain d e hnone hdflt hdom he htext hcmd =>
      have hrule : addr.rules.rule text = none := by
        have hmiss : findText addr.entries text = none :=
          List.find?_eq_none.mpr fun e he => by simpa using hnone e he
        rw [AddrList.rules]
        dsimp only
        rw [hmiss]
        rfl
      have hdrule := hd.rule_eq he
      rw [htext] at hdrule
      rw [TextRules.verdict, hrule]
      rw [decideStages_cons_greylist hdflt, hdom]
      change XGrey.decideStages [(dom.rules.verdict d, whyDomain)] = _
      rw [TextRules.verdict, hdrule]
      exact decideStages_cons_of hcmd _ _

/-! ### Addresses that fit -/

/-- **The rules for an address are honoured**: in every state that the server reaches, a
request that carries the address and passes the stages in front of it is answered with the
command that the rules ask for, and with its reason. -/
def Honoured (cgi : CgiLib) (cfg : Config) (side : Side) (a : Address) : Prop :=
  ∀ (starttime : ℤ) (actions : List Action) (srv : Server) (outs : List (List Output)),
    run (actionStep cgi cfg) (Server.init cfg starttime) actions = .ok (srv, outs) →
    ∀ (req : Request) (whitelist : Bool), req.Accepts → side.text req = a.text →
      side.Earlier cfg srv req →
      ∀ rc why, Ruled (srv.list side.addr) (srv.list side.dom) a.text side.why
          side.whyDomain rc why →
        ∃ srv', typeGreylist cfg srv req (checkCmd whitelist) (checkResp whitelist) =
          .ok ([req.reply (checkResp whitelist) rc why], srv', req.converted)

/-- An address that fits is looked up as it is. -/
theorem Address.tupleText_eq {a : Address} (ha : a.text.length ≤ 107) {side : Side}
    {req : Request} (htext : side.text req = a.text) (cfg : Config) :
    side.tupleText (req.tuple cfg) = a.text := by
  rw [side.tupleText_tuple, htext, List.take_of_length_le ha, List.takeWhile_eq_self_iff]
  exact fun c hc => decide_eq_true fun hzero => a.zero_notMem (hzero ▸ hc)

/-- **The rules for an address that fits** are honoured. -/
theorem honoured_of_length_le (cgi : CgiLib) (cfg : Config) (side : Side) {a : Address}
    (ha : a.text.length ≤ 107) : Honoured cgi cfg side a := by
  intro starttime actions srv outs hrun req whitelist hacc htext hearlier rc why hruled
  have hlists := run_listsOk hrun
  have htuple := a.tupleText_eq ha htext cfg
  cases side with
  | sender =>
      obtain ⟨tree, hmatch⟩ := hearlier
      obtain ⟨srv', -, -, -, -, heq⟩ := typeGreylist_of_ipMatch cfg hlists hacc hmatch
        (checkCmd whitelist) (checkResp whitelist)
      have hsender : (req.tuple cfg).sender = a.text := htuple
      have hdecide : decideStages (addressStages srv.fromL.rules srv.fromdL.rules a.text
          .sender .senderDomain) = .ok (some (rc, why)) :=
        Ruled.decideStages hlists.fromL hlists.fromdL hruled
      refine ⟨srv', ?_⟩
      rw [heq, decideStages_cons_greylist rfl, decideStages_append, hsender, hdecide]
      rfl
  | recipient =>
      obtain ⟨⟨tree, hmatch⟩, addr, dom, hcheck⟩ := hearlier
      obtain ⟨srv', -, -, -, -, heq⟩ := typeGreylist_of_ipMatch cfg hlists hacc hmatch
        (checkCmd whitelist) (checkResp whitelist)
      have hrecipient : (req.tuple cfg).recipient = a.text := htuple
      have hdecide : decideStages (addressStages srv.toL.rules srv.todL.rules a.text
          .recipient .recipientDomain) = .ok (some (rc, why)) :=
        Ruled.decideStages hlists.toL hlists.todL hruled
      have hsender : decideStages (addressStages srv.fromL.rules srv.fromdL.rules
          (req.tuple cfg).sender .sender .senderDomain) = .ok none := by
        obtain ⟨addr', dom', -, -, -, -, hstages⟩ := checkAddress_eq hlists.fromL
          hlists.fromdL (zero_mem_fromText cfg req) .sender .senderDomain
        rw [hstages] at hcheck
        obtain ⟨verdict, hnone, hverdict⟩ := bind_eq_ok.mp hcheck
        cases hverdict
        exact hnone
      refine ⟨srv', ?_⟩
      rw [heq, decideStages_cons_greylist rfl, decideStages_append, hsender, ok_bind, hrecipient]
      dsimp only
      rw [hdecide]
      rfl

/-! ### Addresses that are cut off -/

/-- A request from `10.0.0.1` with a sender and a recipient of less than 256 bytes. -/
def addressRequest (sender recipient : List UInt8) : Request where
  packet := [0, 0, 0, 0, 1, 1, 0, 3, 0, 2, 0, 4, 0, UInt8.ofNat sender.length, 0,
    UInt8.ofNat recipient.length, 10, 0, 0, 1] ++ (sender ++ recipient)
  size := 20 + sender.length + recipient.length
  now := 0
  clock := 0
  size_le := by
    rw [List.length_append, List.length_append, ← Nat.add_assoc]
    exact Nat.le_refl _

theorem sizes_addressRequest {sender recipient : List UInt8} (hs : sender.length ≤ 200)
    (hr : recipient.length ≤ 200) :
    (addressRequest sender recipient).ipsize = 4 ∧
      (addressRequest sender recipient).fromsize = sender.length ∧
      (addressRequest sender recipient).tosize = recipient.length := by
  have hlen : ∀ {n : ℕ}, n ≤ 200 → (UInt8.ofNat n).toNat = n := by
    intro n hn
    rw [UInt8.toNat_ofNat', Nat.mod_eq_of_lt (by omega)]
  refine ⟨by simp [Request.ipsize, addressRequest, ntohs], ?_, ?_⟩
  · simp [Request.fromsize, addressRequest, ntohs, hlen hs]
  · simp [Request.tosize, addressRequest, ntohs, hlen hr]

/-- The addresses lie behind the address of the client. -/
theorem bytes_addressRequest (sender recipient : List UInt8) (n : ℕ) :
    (addressRequest sender recipient).bytes 20 n = (sender ++ recipient).take n := rfl

theorem accepts_addressRequest {sender recipient : List UInt8} (hs : sender.length ≤ 200)
    (hr : recipient.length ≤ 200) : (addressRequest sender recipient).Accepts := by
  obtain ⟨hip, hfrom, hto⟩ := sizes_addressRequest hs hr
  refine ⟨Or.inl hip, ?_⟩
  rw [hip, hfrom, hto]
  exact Nat.le_refl _

namespace Side

/-- A request that carries an address. -/
def request (a : Address) : Side → Request
  | sender => addressRequest a.text []
  | recipient => addressRequest [] a.text

theorem accepts_request (side : Side) (a : Address) : (side.request a).Accepts := by
  have hnil : ([] : List UInt8).length ≤ 200 := Nat.zero_le 200
  cases side with
  | sender => exact accepts_addressRequest a.length_le hnil
  | recipient => exact accepts_addressRequest hnil a.length_le

theorem text_request (side : Side) (a : Address) : side.text (side.request a) = a.text := by
  have hnil : ([] : List UInt8).length ≤ 200 := Nat.zero_le 200
  cases side with
  | sender =>
      obtain ⟨hip, hfrom, -⟩ := sizes_addressRequest a.length_le hnil
      rw [text, request, hip, hfrom, bytes_addressRequest, List.append_nil, List.take_length]
  | recipient =>
      obtain ⟨hip, hfrom, hto⟩ := sizes_addressRequest hnil a.length_le
      rw [text, request, hip, hfrom, hto]
      exact List.take_length

end Side

/-! ### A rule for a long address -/

/-- A text without a rule in lists whose defaults say `GREYLIST`. -/
theorem addressStages_greylist {addr dom : TextRules} {text : List UInt8}
    (haddr : addr.verdict text = Ift.greylist) (hdom : ∀ d, dom.verdict d = Ift.greylist)
    (why whyDomain : Reason) :
    ∀ stage ∈ addressStages addr dom text why whyDomain, stage.1 = Ift.greylist := by
  rw [addressStages]
  intro stage hstage
  rcases List.mem_cons.mp hstage with rfl | hstage
  · exact haddr
  · split_ifs at hstage
    · cases hstage
    · obtain ⟨d, -, rfl⟩ := Option.map_eq_some_iff.mp (Option.mem_toList.mp hstage)
      exact hdom d

/-- At the start every client is one to greylist. -/
theorem ipMatch_init (ndebug : Bool) {ip : List UInt8} (hlen : 5 ≤ ip.length) :
    ∃ tree, ipMatch ndebug IpList.init.tree ip = .ok (Ift.greylist, tree) := by
  obtain ⟨v, path, hlong, hmatch⟩ := ipMatch_eq ndebug ipTreeOk_init hlen
  obtain ⟨q, -, hq, -⟩ := longest_eq_some_iff.mp hlong
  rw [ipRules_init, initRules, Function.update_apply] at hq
  split_ifs at hq
  cases hq
  exact ⟨_, hmatch⟩

/-- The packet that installs a rule to accept an address. -/
def Address.install (a : Address) (name : ListName) : Action :=
  .request (tofromRequest 1 (a.text ++ [0])) true (some name.cmd)

/-- The server with such a rule and no other. -/
theorem run_install (cgi : CgiLib) (cfg : Config) (name : ListName) {a : Address}
    (ha : 107 < a.text.length) :
    ∃ l outs, run (actionStep cgi cfg) (Server.init cfg 0) [a.install name] =
        .ok ((Server.init cfg 0).setList l name, outs) ∧
      AddrListOk l ∧ (∃ e ∈ l.entries, e.text = a.text ∧ e.cmd = Ift.accept) ∧
      ∀ text, text ≠ a.text → l.rules.verdict text = Ift.greylist := by
  have hword : ¬ IsDefault a.text := by
    intro h
    rcases h with h | h <;>
      exact absurd (congrArg List.length h) (Nat.ne_of_gt (lt_trans (by decide) ha))
  have htext : (a.text ++ [0]).takeWhile (· ≠ 0) = a.text :=
    takeWhile_append_cons a.zero_notMem []
  obtain ⟨l, out, hstep, hl⟩ := actionStep_implements cgi cfg (implements_init cfg 0)
    (a := .command name (tofromRequest 1 (a.text ++ [0])) true)
    (show 0 ∈ a.text ++ [0] from List.mem_append_right _ List.mem_cons_self)
  have hl' : Implements l (AddrMap.init.put a.text hword (some (Ift.accept, 0))) := by
    have hpacket : (tofromRequest 1 (a.text ++ [0])).packet.drop 14 = a.text ++ [0] := rfl
    have hcmd : (ntohs (tofromRequest 1 (a.text ++ [0])).packet 10 : ℤ) = Ift.accept := by
      simp [ntohs, tofromRequest, Ift.accept]
    rw [AddrAction.applyTo, Function.update_self, AddrAction.edits, hpacket, htext, hcmd,
      List.foldl_cons, List.foldl_nil, AddrMap.apply, dif_neg hword, if_neg (by decide)] at hl
    exact hl
  have hentry : ∀ text, (findText l.entries text).map EDomain.value =
      Function.update (fun _ => none) a.text (some (Ift.accept, 0)) text := hl'.entry
  refine ⟨l, [out], ?_, hl'.ok, ?_, fun text hne => ?_⟩
  · have hinstall : actionStep cgi cfg (Server.init cfg 0) (a.install name) =
        .ok ((Server.init cfg 0).setList l name, out) := hstep
    rw [run_cons_of_ok [] hinstall]
    rfl
  · have hfound := hentry a.text
    rw [Function.update_self] at hfound
    obtain ⟨e, he, hvalue⟩ := Option.map_eq_some_iff.mp hfound
    obtain ⟨hmem, hetext⟩ := mem_of_lookup he
    exact ⟨e, hmem, hetext, congrArg Prod.fst hvalue⟩
  · have hmiss := hentry text
    rw [Function.update_of_ne hne] at hmiss
    have hnone : l.rules.rule text = none :=
      congrArg (Option.map EDomain.cmd) (Option.map_eq_none_iff.mp hmiss)
    rw [TextRules.verdict, hnone]
    exact hl'.dflt

/-- What is looked up for a longer address is not the address. -/
theorem Side.tupleText_ne (side : Side) (cfg : Config) {a : Address}
    (ha : 107 < a.text.length) : side.tupleText ((side.request a).tuple cfg) ≠ a.text := by
  intro heq
  have hlen := congrArg List.length heq
  rw [side.tupleText_tuple, side.text_request] at hlen
  have hle := ((List.takeWhile_sublist (p := (· ≠ 0)) (l := a.text.take 107)).length_le).trans
    (List.length_take_le 107 a.text)
  omega

/-- With a rule for one address and no other, the stages for all other addresses say
`GREYLIST`. -/
theorem Side.stages_greylist (side : Side) (cfg : Config) {l : AddrList} {text : List UInt8}
    (hl : ∀ text', text' ≠ text → l.rules.verdict text' = Ift.greylist) {t : Tuple}
    (ht : side.tupleText t ≠ text) :
    ∀ stage ∈ addressStages ((Server.init cfg 0).setList l side.addr).fromL.rules
        ((Server.init cfg 0).setList l side.addr).fromdL.rules t.sender .sender .senderDomain ++
      addressStages ((Server.init cfg 0).setList l side.addr).toL.rules
        ((Server.init cfg 0).setList l side.addr).todL.rules t.recipient .recipient
        .recipientDomain, stage.1 = Ift.greylist := by
  have hinit : ∀ text, AddrList.init.rules.verdict text = Ift.greylist := fun text => rfl
  rw [List.forall_mem_append]
  cases side with
  | sender =>
      exact ⟨addressStages_greylist (hl _ ht) hinit _ _,
        addressStages_greylist (hinit _) hinit _ _⟩
  | recipient =>
      exact ⟨addressStages_greylist (hinit _) hinit _ _,
        addressStages_greylist (hl _ ht) hinit _ _⟩

/-- **A rule for an address that is cut off** is not applied: the request that carries the
address gets its answer from the tuples. -/
theorem not_answered_of_lt (cgi : CgiLib) (cfg : Config) (side : Side) {a : Address}
    (ha : 107 < a.text.length) :
    ∃ srv outs, run (actionStep cgi cfg) (Server.init cfg 0) [a.install side.addr] =
        .ok (srv, outs) ∧
      side.Earlier cfg srv (side.request a) ∧
      Ruled (srv.list side.addr) (srv.list side.dom) a.text side.why side.whyDomain
        Ift.accept side.why ∧
      ∀ (whitelist : Bool) (rc : ℤ) (srv' : Server) (req' : Request),
        typeGreylist cfg srv (side.request a) (checkCmd whitelist) (checkResp whitelist) ≠
          .ok ([(side.request a).reply (checkResp whitelist) rc side.why], srv', req') := by
  obtain ⟨l, outs, hrun, hl, ⟨e, he, htext, hcmd⟩, hverdict⟩ :=
    run_install cgi cfg side.addr ha
  have hinit := (filterOk_init cfg 0).lists
  have hlists : ListsOk ((Server.init cfg 0).setList l side.addr) := hinit.setList hl side.addr
  have hacc := side.accepts_request a
  have hip : 5 ≤ ((side.request a).tuple cfg).ip.toList.length := by simp
  obtain ⟨tree, hmatch⟩ := ipMatch_init cfg.ndebug hip
  have hstages := side.stages_greylist cfg hverdict (side.tupleText_ne cfg ha)
  have htree : ((Server.init cfg 0).setList l side.addr).iplist = IpList.init := by
    cases side <;> rfl
  rw [← htree] at hmatch
  refine ⟨_, outs, hrun, ?_, ?_, fun whitelist rc srv' req' heq => ?_⟩
  · cases side with
    | sender => exact ⟨tree, hmatch⟩
    | recipient =>
        obtain ⟨addr, dom, -, -, -, -, hcheck⟩ := checkAddress_eq hlists.fromL hlists.fromdL
          (zero_mem_fromText cfg (Side.recipient.request a)) .sender .senderDomain
        refine ⟨⟨tree, hmatch⟩, addr, dom, ?_⟩
        rw [hcheck]
        have hsender := decideStages_greylist (List.forall_mem_append.mp hstages).1
        change decideStages (addressStages _ _ (Request.tuple cfg _).sender _ _) >>= _ = _
        rw [hsender, ok_bind]
  · have hrule : Ruled l (((Server.init cfg 0).setList l side.addr).list side.dom) a.text
        side.why side.whyDomain e.cmd side.why := .address e he htext (Or.inl hcmd)
    have hlist : ((Server.init cfg 0).setList l side.addr).list side.addr = l := by
      rw [list_setList, Function.update_self]
    rw [hcmd] at hrule
    rw [hlist]
    exact hrule
  · obtain ⟨srv₁, -, -, -, -, hwalk⟩ := typeGreylist_of_ipMatch cfg hlists hacc hmatch
      (checkCmd whitelist) (checkResp whitelist)
    rw [hwalk, decideStages_cons_greylist rfl, decideStages_greylist hstages, ok_bind,
      answer] at heq
    obtain ⟨⟨⟨rc', why⟩, store⟩, hcheck, heq⟩ := bind_eq_ok.mp heq
    have hwhy : why = side.why := by
      simp only [Except.ok.injEq, Prod.mk.injEq, List.cons.injEq, Request.reply,
        Output.reply.injEq, Reply.mk.injEq] at heq
      exact heq.1.1.2.2.2
    rcases typeGreylistCheckTuple_reply hcheck with hreply | hreply
    · cases hreply
      cases side <;> cases hwhy
    · cases hreply
      cases side <;> cases hwhy

/-! ### When rules are honoured -/

/-- **Rules are honoured for the addresses that fit.** Whatever the settings, the rules for
an address of at most 200 bytes are honoured exactly when it has at most 107. -/
theorem honoured_iff (cgi : CgiLib) (cfg : Config) (side : Side) (a : Address) :
    Honoured cgi cfg side a ↔ a.text.length ≤ 107 := by
  refine ⟨fun h => ?_, honoured_of_length_le cgi cfg side⟩
  by_contra hlong
  obtain ⟨srv, outs, hrun, hearlier, hruled, hnot⟩ :=
    not_answered_of_lt cgi cfg side (not_le.mp hlong)
  obtain ⟨srv', hanswer⟩ := h 0 _ srv outs hrun _ false (side.accepts_request a)
    (side.text_request a) hearlier _ _ hruled
  exact hnot false _ srv' _ hanswer

/-- A sender of 108 letters. -/
def letters : Address where
  text := List.replicate 108 97
  length_le := by decide
  zero_notMem := by decide

/-- The sender of 108 letters is to be accepted and the request that carries it is not
answered so. -/
theorem not_honoured_letters :
    ∃ srv outs,
      run (actionStep stdCgi (Config.default false)) (Server.init (Config.default false) 0)
        [letters.install .fromL] = .ok (srv, outs) ∧
      (Side.sender.request letters).Accepts ∧
      Side.sender.text (Side.sender.request letters) = letters.text ∧
      Side.sender.Earlier (Config.default false) srv (Side.sender.request letters) ∧
      Ruled srv.fromL srv.fromdL letters.text .sender .senderDomain Ift.accept .sender ∧
      ∀ srv' req', typeGreylist (Config.default false) srv (Side.sender.request letters)
          .greylist .greylistResp ≠
        .ok ([(Side.sender.request letters).reply .greylistResp Ift.accept .sender], srv',
          req') := by
  obtain ⟨srv, outs, hrun, hearlier, hruled, hnot⟩ :=
    not_answered_of_lt stdCgi (Config.default false) .sender (a := letters) (by decide)
  exact ⟨srv, outs, hrun, Side.sender.accepts_request letters,
    Side.sender.text_request letters, hearlier, hruled, hnot false Ift.accept⟩

end XGrey
