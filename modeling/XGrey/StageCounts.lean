import XGrey.RuleRun

/-!
# The Counts of the Stages

Every stage of the filter has a counter for each of the three verdicts, and the statistics
of the server are read as a flow: what one stage has passed on is what the next one was
asked for. `filterTuple` is `type_greylist` up to its label `type_greylist_check_tuple`;
what it does to the counters is said once for a lookup (`Bumped`), once for an address with
its domain (`AddressPath`), and then for the whole walk.

The stage for a domain is skipped when the address has an entry of its own or no `@`, so
what it has counted is a part of what it could have been asked for.

## Main results

* `filterTuple_conserved`: the walk keeps the flow.
* `actionStep_conserved`: so does everything else that the server does.
* `run_conserved`: the flow after any run.
-/

open CRuntime StepRun

namespace XGrey

/-! ### One counter array -/

/-- How often a command was counted. -/
def counted (cnt : List ℕ) (cmd : ℤ) : ℕ := cnt.getD cmd.toNat 0

/-- How often a stage has decided. -/
def decided (cnt : List ℕ) : ℕ := counted cnt Ift.accept + counted cnt Ift.reject

/-- A verdict was counted: the stage was asked once more, and it has either passed the
request on or decided it. -/
structure Bumped (cnt cnt' : List ℕ) (cmd : ℤ) : Prop where
  length : cnt'.length = 3
  sum : cnt'.sum = cnt.sum + 1
  greylist : counted cnt' Ift.greylist =
    counted cnt Ift.greylist + if cmd = Ift.greylist then 1 else 0
  decided : decided cnt' = decided cnt + if cmd = Ift.greylist then 0 else 1

/-- A command that is counted without leaving the array is a verdict. -/
theorem bump_inv {cnt cnt' : List ℕ} (hlen : cnt.length = 3) {cmd : ℤ}
    (h : bump cnt cmd = .ok cnt') : Bumped cnt cnt' cmd := by
  obtain ⟨g, a, r, rfl⟩ := List.length_eq_three.mp hlen
  rw [bump] at h
  split_ifs at h with hcmd
  cases h
  obtain ⟨hlow, hhigh⟩ := hcmd
  rw [hlen] at hhigh
  obtain rfl | rfl | rfl : cmd = 0 ∨ cmd = 1 ∨ cmd = 2 := by omega
  all_goals
    constructor <;> simp [counted, XGrey.decided, Ift.greylist, Ift.accept, Ift.reject] <;>
      omega

/-! ### One address -/

/-- A lookup counts its command, and nothing else. -/
theorem consult_bumped {l l' : AddrList} (hlen : l.cmdcnt.length = 3) {text : List UInt8}
    {explicit : Bool} {cmd : ℤ} (h : consult l text = .ok ((explicit, cmd), l')) :
    Bumped l.cmdcnt l'.cmdcnt cmd := by
  rw [consult] at h
  cases hsearch : (edomainSearch text l.entries).1 with
  | none =>
      rw [hsearch] at h
      obtain ⟨cnt, hbump, h⟩ := bind_eq_ok.mp h
      cases h
      exact bump_inv hlen hbump
  | some i =>
      rw [hsearch] at h
      obtain ⟨cnt, hbump, h⟩ := bind_eq_ok.mp h
      cases h
      exact bump_inv hlen hbump

/-- The ways through the two stages for an address, with the verdict at the end. -/
inductive AddressPath (addr dom addr' dom' : AddrList) (why whyDomain : Reason) :
    Option (ℤ × Reason) → Prop
  /-- The address decides. -/
  | address (cmd : ℤ) (hcmd : cmd ≠ Ift.greylist)
      (haddr : Bumped addr.cmdcnt addr'.cmdcnt cmd) (hdom : dom'.cmdcnt = dom.cmdcnt) :
      AddressPath addr dom addr' dom' why whyDomain (some (cmd, why))
  /-- The address has an entry of its own, or no domain. -/
  | skipped (haddr : Bumped addr.cmdcnt addr'.cmdcnt Ift.greylist)
      (hdom : dom'.cmdcnt = dom.cmdcnt) :
      AddressPath addr dom addr' dom' why whyDomain none
  /-- The domain decides. -/
  | domain (cmd : ℤ) (hcmd : cmd ≠ Ift.greylist)
      (haddr : Bumped addr.cmdcnt addr'.cmdcnt Ift.greylist)
      (hdom : Bumped dom.cmdcnt dom'.cmdcnt cmd) :
      AddressPath addr dom addr' dom' why whyDomain (some (cmd, whyDomain))
  /-- Neither decides. -/
  | passed (haddr : Bumped addr.cmdcnt addr'.cmdcnt Ift.greylist)
      (hdom : Bumped dom.cmdcnt dom'.cmdcnt Ift.greylist) :
      AddressPath addr dom addr' dom' why whyDomain none

/-- **The two lookups for an address** take one of these ways. -/
theorem checkAddress_path {addr dom addr' dom' : AddrList} (ha : addr.cmdcnt.length = 3)
    (hd : dom.cmdcnt.length = 3) {mem : List UInt8} {why whyDomain : Reason}
    {verdict : Option (ℤ × Reason)}
    (h : checkAddress addr dom mem why whyDomain = .ok (verdict, addr', dom')) :
    AddressPath addr dom addr' dom' why whyDomain verdict := by
  rw [checkAddress] at h
  obtain ⟨text, -, h⟩ := bind_eq_ok.mp h
  obtain ⟨⟨⟨explicit, cmd⟩, addr₁⟩, haddr, h⟩ := bind_eq_ok.mp h
  have hbumped := consult_bumped ha haddr
  dsimp only at h
  by_cases hcmd : cmd ≠ Ift.greylist
  · rw [if_pos hcmd] at h
    cases h
    exact .address cmd hcmd hbumped rfl
  rw [if_neg hcmd] at h
  obtain rfl := not_not.mp hcmd
  cases explicit with
  | true =>
      cases h
      exact .skipped hbumped rfl
  | false =>
      rw [if_neg Bool.false_ne_true] at h
      cases hat : strchr text 64 with
      | none =>
          rw [hat] at h
          cases h
          exact .skipped hbumped rfl
      | some at' =>
          rw [hat] at h
          obtain ⟨⟨⟨explicit', cmd'⟩, dom₁⟩, hdom, h⟩ := bind_eq_ok.mp h
          have hbumped' := consult_bumped hd hdom
          dsimp only at h
          by_cases hcmd' : cmd' ≠ Ift.greylist
          · rw [if_pos hcmd'] at h
            cases h
            exact .domain cmd' hcmd' hbumped hbumped'
          · rw [if_neg hcmd'] at h
            cases h
            obtain rfl := not_not.mp hcmd'
            exact .passed hbumped hbumped'

/-- One if the filter lets the request go on. -/
def passedOn (verdict : Option (ℤ × Reason)) : ℕ := if verdict = none then 1 else 0

/-- One if the filter decides for a reason. -/
def gave (why : Reason) (verdict : Option (ℤ × Reason)) : ℕ :=
  if verdict.map Prod.snd = some why then 1 else 0

@[simp] theorem passedOn_none : passedOn none = 1 := rfl

@[simp] theorem passedOn_some (v : ℤ × Reason) : passedOn (some v) = 0 := rfl

@[simp] theorem gave_none (why : Reason) : gave why none = 0 := rfl

@[simp] theorem gave_self (cmd : ℤ) (why : Reason) : gave why (some (cmd, why)) = 1 := if_pos rfl

theorem gave_of_ne {why why' : Reason} (h : why ≠ why') (cmd : ℤ) :
    gave why (some (cmd, why')) = 0 :=
  if_neg fun heq => h (Option.some.inj heq).symm

/-- What the two stages for an address have counted: the first one was asked, it passed on
what the domain decided or nobody did, and the second one was asked for no more than
that. -/
structure AddressFlow (addr dom addr' dom' : AddrList) (why whyDomain : Reason)
    (verdict : Option (ℤ × Reason)) : Prop where
  lengthAddr : addr'.cmdcnt.length = 3
  lengthDom : dom'.cmdcnt.length = 3
  asked : addr'.cmdcnt.sum = addr.cmdcnt.sum + 1
  passed : counted addr'.cmdcnt Ift.greylist =
    counted addr.cmdcnt Ift.greylist + (passedOn verdict + gave whyDomain verdict)
  address : decided addr'.cmdcnt = decided addr.cmdcnt + gave why verdict
  domain : decided dom'.cmdcnt = decided dom.cmdcnt + gave whyDomain verdict
  skipped : dom'.cmdcnt.sum ≤ dom.cmdcnt.sum + (passedOn verdict + gave whyDomain verdict)
  others : ∀ w, w ≠ why → w ≠ whyDomain → gave w verdict = 0

theorem AddressPath.flow {addr dom addr' dom' : AddrList} (hd : dom.cmdcnt.length = 3)
    {why whyDomain : Reason} (hne : why ≠ whyDomain) {verdict : Option (ℤ × Reason)}
    (h : AddressPath addr dom addr' dom' why whyDomain verdict) :
    AddressFlow addr dom addr' dom' why whyDomain verdict := by
  cases h with
  | address cmd hcmd haddr hdom =>
      obtain ⟨hlen, hsum, hgrey, hdec⟩ := haddr
      rw [if_neg hcmd] at hgrey hdec
      refine ⟨hlen, hdom ▸ hd, hsum, ?_, ?_, ?_, ?_, fun w hw _ => gave_of_ne hw cmd⟩
      · rw [hgrey, gave_of_ne hne.symm, passedOn_some]
      · rw [hdec, gave_self]
      · rw [hdom, gave_of_ne hne.symm, Nat.add_zero]
      · rw [hdom]
        exact Nat.le_add_right ..
  | skipped haddr hdom =>
      obtain ⟨hlen, hsum, hgrey, hdec⟩ := haddr
      refine ⟨hlen, hdom ▸ hd, hsum, hgrey, hdec, ?_, ?_, fun _ _ _ => rfl⟩
      · rw [hdom, gave_none, Nat.add_zero]
      · rw [hdom]
        exact Nat.le_add_right ..
  | domain cmd hcmd haddr hdom =>
      obtain ⟨hlen, hsum, hgrey, hdec⟩ := haddr
      obtain ⟨hlen', hsum', -, hdec'⟩ := hdom
      rw [if_neg hcmd] at hdec'
      refine ⟨hlen, hlen', hsum, ?_, ?_, ?_, ?_, fun w _ hw => gave_of_ne hw cmd⟩
      · rw [hgrey, gave_self, passedOn_some, if_pos rfl]
      · rw [hdec, gave_of_ne hne, if_pos rfl]
      · rw [hdec', gave_self]
      · rw [hsum', gave_self, passedOn_some]
  | passed haddr hdom =>
      obtain ⟨hlen, hsum, hgrey, hdec⟩ := haddr
      obtain ⟨hlen', hsum', -, hdec'⟩ := hdom
      exact ⟨hlen, hlen', hsum, hgrey, hdec, hdec', hsum'.le, fun _ _ _ => rfl⟩

/-! ### The filter -/

/-- `type_greylist` up to the label `type_greylist_check_tuple`: the verdict of the filter
with its reason, if it has one, and what was counted on the way. -/
def filterTuple (cfg : Config) (srv : Server) (tuple : Tuple) :
    Exec (Option (ℤ × Reason) × Server) := do
  let srv := { srv with
    requests := srv.requests + 1
    reqCucurrent := srv.reqCucurrent + 1 }
  let (rc, tree) ← ipMatch cfg.ndebug srv.iplist.tree tuple.ip.toList
  let ipCmdcnt ← bump srv.ipCmdcnt rc
  let srv := { srv with
    iplist := { srv.iplist with tree := tree }
    ipCmdcnt := ipCmdcnt }
  if rc ≠ Ift.greylist then .ok (some (rc, .ip), srv)
  else
    let (verdict, addr, dom) ←
      checkAddress srv.fromL srv.fromdL tuple.fromText.toList .sender .senderDomain
    let srv := { srv with fromL := addr, fromdL := dom }
    match verdict with
    | some verdict => .ok (some verdict, srv)
    | none => do
        let (verdict, addr, dom) ←
          checkAddress srv.toL srv.todL tuple.toText.toList .recipient .recipientDomain
        .ok (verdict, { srv with toL := addr, todL := dom })

/-- The filter, and then the reply that is its verdict or that of the tuples. -/
theorem typeGreylist_filterTuple (cfg : Config) (srv : Server) {req : Request}
    (hacc : req.Accepts) (cmd response : Cmd) :
    typeGreylist cfg srv req cmd response = (do
      let (verdict, srv) ← filterTuple cfg srv (req.tuple cfg)
      match verdict with
      | some (rc, why) => do
          let out ← sendReply cfg.ndebug req.converted response rc why
          .ok (out, srv, req.converted)
      | none => do
          let ((rc, why), store) ←
            typeGreylistCheckTuple cfg srv.store (req.tuple cfg) cmd req.now req.clock
          let out ← sendReply cfg.ndebug req.converted response rc why
          .ok (out, { srv with store := store }, req.converted)) := by
  rw [typeGreylist, greylistSanitizeReq_of_accepts cfg hacc, ok_bind, filterTuple]
  dsimp only
  cases hmatch : ipMatch cfg.ndebug srv.iplist.tree (req.tuple cfg).ip.toList with
  | error e => rfl
  | ok r =>
      obtain ⟨rc, tree⟩ := r
      simp only [ok_bind]
      cases hbump : bump srv.ipCmdcnt rc with
      | error e => rfl
      | ok ipCmdcnt =>
          simp only [ok_bind]
          by_cases hrc : rc ≠ Ift.greylist
          · rw [if_pos hrc, if_pos hrc]
            rfl
          rw [if_neg hrc, if_neg hrc]
          cases hsender : checkAddress srv.fromL srv.fromdL (req.tuple cfg).fromText.toList
              .sender .senderDomain with
          | error e => rfl
          | ok r =>
              obtain ⟨verdict, fromL, fromdL⟩ := r
              simp only [ok_bind]
              cases verdict with
              | some verdict => rfl
              | none =>
                  dsimp only
                  cases checkAddress srv.toL srv.todL (req.tuple cfg).toText.toList
                      .recipient .recipientDomain with
                  | error e => rfl
                  | ok r =>
                      obtain ⟨verdict, toL, todL⟩ := r
                      cases verdict <;> rfl

/-! ### The flow -/

/-- How many replies give a reason. -/
def repliesWith (why : Reason) (out : List Output) : ℕ :=
  out.countP fun
    | .reply r => decide (r.why = why)
    | .packet _ => false

/-- What the counters of the server say about the requests so far, the number of requests
that have got to the tuples, and how many replies have given which reason. -/
structure Conserved (srv : Server) (reached : ℕ) (replies : Reason → ℕ) : Prop where
  requests : srv.requests = srv.ipCmdcnt.sum
  ip : counted srv.ipCmdcnt Ift.greylist = srv.fromL.cmdcnt.sum
  sender : srv.toL.cmdcnt.sum + decided srv.fromdL.cmdcnt =
    counted srv.fromL.cmdcnt Ift.greylist
  recipient : reached + decided srv.todL.cmdcnt = counted srv.toL.cmdcnt Ift.greylist
  senderDomain : srv.fromdL.cmdcnt.sum ≤ counted srv.fromL.cmdcnt Ift.greylist
  recipientDomain : srv.todL.cmdcnt.sum ≤ counted srv.toL.cmdcnt Ift.greylist
  repliesIp : replies .ip = decided srv.ipCmdcnt
  repliesSender : replies .sender = decided srv.fromL.cmdcnt
  repliesSenderDomain : replies .senderDomain = decided srv.fromdL.cmdcnt
  repliesRecipient : replies .recipient = decided srv.toL.cmdcnt
  repliesRecipientDomain : replies .recipientDomain = decided srv.todL.cmdcnt

/-- Every counter array has its three entries. -/
structure CountersOk (srv : Server) : Prop where
  ip : srv.ipCmdcnt.length = 3
  fromL : srv.fromL.cmdcnt.length = 3
  fromdL : srv.fromdL.cmdcnt.length = 3
  toL : srv.toL.cmdcnt.length = 3
  todL : srv.todL.cmdcnt.length = 3

/-- **The filter keeps the flow.** -/
theorem filterTuple_conserved {cfg : Config} {srv srv' : Server} {tuple : Tuple}
    {verdict : Option (ℤ × Reason)} {reached : ℕ} {replies : Reason → ℕ}
    (hlen : CountersOk srv) (h : Conserved srv reached replies)
    (hok : filterTuple cfg srv tuple = .ok (verdict, srv')) :
    CountersOk srv' ∧ Conserved srv' (reached + passedOn verdict)
      (fun why => replies why + gave why verdict) := by
  obtain ⟨hip, hfrom, hfromd, hto, htod⟩ := hlen
  obtain ⟨h₁, h₂, h₃, h₄, h₅, h₆, h₇, h₈, h₉, h₁₀, h₁₁⟩ := h
  rw [filterTuple] at hok
  obtain ⟨⟨rc, tree⟩, -, hok⟩ := bind_eq_ok.mp hok
  obtain ⟨ipCmdcnt, hbump, hok⟩ := bind_eq_ok.mp hok
  obtain ⟨hip', hsum, hgrey, hdec⟩ := bump_inv hip hbump
  dsimp only at hok
  by_cases hrc : rc ≠ Ift.greylist
  · rw [if_pos hrc] at hok
    cases hok
    rw [if_neg hrc] at hgrey hdec
    refine ⟨⟨hip', hfrom, hfromd, hto, htod⟩, ?_⟩
    constructor <;> simp [passedOn, gave] <;> omega
  rw [if_neg hrc] at hok
  rw [if_pos (not_not.mp hrc)] at hgrey hdec
  obtain ⟨⟨sender, fromL, fromdL⟩, hsender, hok⟩ := bind_eq_ok.mp hok
  have hflow := (checkAddress_path hfrom hfromd hsender).flow hfromd (by decide)
  obtain ⟨hfrom', hfromd', hasked, hpassed, haddress, hdomain, hskipped, hothers⟩ := hflow
  cases sender with
  | some verdict' =>
      cases hok
      refine ⟨⟨hip', hfrom', hfromd', hto, htod⟩, ?_⟩
      have hone := hothers .ip (by decide) (by decide)
      have htwo := hothers .recipient (by decide) (by decide)
      have hthree := hothers .recipientDomain (by decide) (by decide)
      simp only [passedOn_some] at hpassed hskipped
      constructor <;> simp only [passedOn_some] <;> omega
  | none =>
      dsimp only at hok
      obtain ⟨⟨recipient, toL, todL⟩, hrecipient, hok⟩ := bind_eq_ok.mp hok
      cases hok
      have hflow' := (checkAddress_path hto htod hrecipient).flow htod (by decide)
      obtain ⟨hto', htod', hasked', hpassed', haddress', hdomain', hskipped', hothers'⟩ := hflow'
      refine ⟨⟨hip', hfrom', hfromd', hto', htod'⟩, ?_⟩
      have hone := hothers' .ip (by decide) (by decide)
      have htwo := hothers' .sender (by decide) (by decide)
      have hthree := hothers' .senderDomain (by decide) (by decide)
      simp only [passedOn_none, gave_none] at hpassed haddress hdomain hskipped
      constructor <;> dsimp only <;> omega

/-! ### A request for a verdict -/

/-- Whether a request gets past the filter, to the tuples. -/
def Request.reaches (cfg : Config) (srv : Server) (req : Request) : Bool :=
  match greylistSanitizeReq cfg req with
  | .ok (_, .inr tuple) =>
      match filterTuple cfg srv tuple with
      | .ok (none, _) => true
      | _ => false
  | _ => false

/-- Counting replies, one after the other. -/
theorem repliesWith_append (why : Reason) (out out' : List Output) :
    repliesWith why (out ++ out') = repliesWith why out + repliesWith why out' :=
  List.countP_append

/-- One reply. -/
theorem repliesWith_reply (r : Reply) (why : Reason) :
    repliesWith why [.reply r] = gave why (some (r.response, r.why)) := by
  by_cases h : r.why = why
  · rw [← h, gave_self]
    exact List.countP_eq_length.mpr (by simp)
  · rw [gave_of_ne (Ne.symm h)]
    exact List.countP_eq_zero.mpr (by simp [h])

/-- The reasons that a stage of the filter gives. -/
def StageReason (why : Reason) : Prop :=
  why ≠ .none ∧ why ≠ .greylist ∧ why ≠ .whitelist

/-- No stage of the filter has replied. -/
def Quiet (out : List Output) : Prop := ∀ why, StageReason why → repliesWith why out = 0

theorem quiet_nil : Quiet [] := fun _ _ => rfl

theorem quiet_reply {r : Reply} (h : ¬ StageReason r.why) : Quiet [.reply r] := by
  intro why hwhy
  rw [repliesWith_reply, gave_of_ne]
  rintro rfl
  exact h hwhy

theorem quiet_packet (body : List UInt8) : Quiet [.packet body] := fun _ _ => rfl

/-- The counters only depend on what the statistics show. -/
theorem Conserved.congr {srv srv' : Server} {reached : ℕ} {replies replies' : Reason → ℕ}
    (h : Conserved srv reached replies) (hrequests : srv'.requests = srv.requests)
    (hip : srv'.ipCmdcnt = srv.ipCmdcnt)
    (hlist : ∀ name, (srv'.list name).cmdcnt = (srv.list name).cmdcnt)
    (hreplies : ∀ why, StageReason why → replies' why = replies why) :
    Conserved srv' reached replies' := by
  have hfrom : srv'.fromL.cmdcnt = srv.fromL.cmdcnt := hlist .fromL
  have hfromd : srv'.fromdL.cmdcnt = srv.fromdL.cmdcnt := hlist .fromdL
  have hto : srv'.toL.cmdcnt = srv.toL.cmdcnt := hlist .toL
  have htod : srv'.todL.cmdcnt = srv.todL.cmdcnt := hlist .todL
  obtain ⟨h₁, h₂, h₃, h₄, h₅, h₆, h₇, h₈, h₉, h₁₀, h₁₁⟩ := h
  have hstage : ∀ why, StageReason why → replies' why = replies why := hreplies
  constructor
  · rw [hrequests, hip, h₁]
  · rw [hip, hfrom, h₂]
  · rw [hto, hfromd, hfrom, h₃]
  · rw [htod, hto, h₄]
  · rw [hfromd, hfrom]
    exact h₅
  · rw [htod, hto]
    exact h₆
  · rw [hstage .ip ⟨nofun, nofun, nofun⟩, hip, h₇]
  · rw [hstage .sender ⟨nofun, nofun, nofun⟩, hfrom, h₈]
  · rw [hstage .senderDomain ⟨nofun, nofun, nofun⟩, hfromd, h₉]
  · rw [hstage .recipient ⟨nofun, nofun, nofun⟩, hto, h₁₀]
  · rw [hstage .recipientDomain ⟨nofun, nofun, nofun⟩, htod, h₁₁]

/-! ### Everything else -/

/-- The server has neither counted a request nor replied for a stage. -/
structure Unmoved (srv srv' : Server) (out : List Output) : Prop where
  requests : srv'.requests = srv.requests
  ipCmdcnt : srv'.ipCmdcnt = srv.ipCmdcnt
  list : ∀ name, (srv'.list name).cmdcnt = (srv.list name).cmdcnt
  quiet : Quiet out

section Unmoved

variable {cfg : Config} {srv srv' : Server} {req req' : Request} {out : List Output}

theorem unmoved_self (srv : Server) : Unmoved srv srv [] :=
  ⟨rfl, rfl, fun _ => rfl, quiet_nil⟩

/-- What has not moved may reply for a reason that is not that of a stage. -/
theorem Unmoved.reply {srv₀ : Server} (h₀ : Unmoved srv srv₀ []) {type : Cmd} {response : ℤ}
    {why : Reason} (hwhy : ¬ StageReason why)
    (h : (do
      let out ← sendReply cfg.ndebug req type response why
      .ok (out, srv₀, req)) = (.ok (out, srv', req') : Exec _)) : Unmoved srv srv' out := by
  obtain ⟨out', hsend, h⟩ := bind_eq_ok.mp h
  cases h
  obtain ⟨_, -, hsend⟩ := bind_eq_ok.mp hsend
  cases hsend
  exact ⟨h₀.requests, h₀.ipCmdcnt, h₀.list, quiet_reply hwhy⟩

theorem not_stageReason_none : ¬ StageReason .none := fun h => h.1 rfl

theorem not_stageReason_greylist : ¬ StageReason .greylist := fun h => h.2.1 rfl

/-- Neither the tuples nor the rules for the addresses hold a counter. -/
theorem unmoved_setStore (srv : Server) (store : TupleSpace) :
    Unmoved srv { srv with store := store } [] :=
  ⟨rfl, rfl, fun _ => rfl, quiet_nil⟩

theorem unmoved_setIplist (srv : Server) (l : IpList) :
    Unmoved srv { srv with iplist := l } [] :=
  ⟨rfl, rfl, fun _ => rfl, quiet_nil⟩

/-- A list that keeps its counters may be put in the place of another. -/
theorem unmoved_setList (srv : Server) {l : AddrList} (name : ListName)
    (hl : l.cmdcnt = (srv.list name).cmdcnt) : Unmoved srv (srv.setList l name) [] := by
  refine ⟨?_, ?_, fun name' => ?_, quiet_nil⟩
  · cases name <;> rfl
  · cases name <;> rfl
  · cases name <;> cases name' <;> first | rfl | exact hl

/-- An insertion into an address list counts nothing. -/
theorem edomainAdd_cmdcnt {ndebug : Bool} {l l' : AddrList} {rec : EDomain} {index : ℕ}
    (h : edomainAdd ndebug l rec index = .ok l') : l'.cmdcnt = l.cmdcnt := by
  rw [edomainAdd] at h
  obtain ⟨_, -, h⟩ := bind_eq_ok.mp h
  dsimp only at h
  by_cases hindex : l.entries.length < index
  · rw [if_pos hindex] at h
    cases h
  rw [if_neg hindex] at h
  split_ifs at h <;>
  · obtain ⟨array, -, h⟩ := bind_eq_ok.mp h
    cases h
    rfl

/-- Neither does a deletion. -/
theorem edomainRemove_cmdcnt {ndebug : Bool} {l l' : AddrList} {index : ℕ}
    (h : edomainRemove ndebug l index = .ok l') : l'.cmdcnt = l.cmdcnt := by
  rw [edomainRemove] at h
  obtain ⟨_, -, h⟩ := bind_eq_ok.mp h
  split_ifs at h <;> cases h <;> rfl

/-- **A command for an address list** counts nothing. -/
theorem mcpTofromList_cmdcnt {ndebug : Bool} {l l' : AddrList} {text : List UInt8} {cmd : ℤ}
    (h : mcpTofromList ndebug l text cmd = .ok l') : l'.cmdcnt = l.cmdcnt := by
  rw [mcpTofromList] at h
  by_cases hdefault : text = ascii "default" ∨ text = ascii "DEFAULT"
  · rw [if_pos hdefault] at h
    split_ifs at h <;> cases h <;> rfl
  · rw [if_neg hdefault] at h
    generalize edomainSearch text l.entries = found at h
    obtain ⟨_ | i, index⟩ := found
    · dsimp only at h
      split_ifs at h
      · exact edomainAdd_cmdcnt h
      · cases h
        rfl
    · dsimp only at h
      split_ifs at h
      · exact edomainRemove_cmdcnt h
      · cases h
        rfl

/-- **An address file** counts nothing. -/
theorem tofromReadStream_cmdcnt {cgi : CgiLib} {ndebug : Bool} {l l' : AddrList} {held : Bool}
    {lines : List (List UInt8)} (h : tofromReadStream cgi ndebug l held lines = .ok l') :
    l'.cmdcnt = l.cmdcnt := by
  induction lines generalizing l held with
  | nil =>
      rw [tofromReadStream] at h
      split_ifs at h
      cases h
      rfl
  | cons linebuff lines ih =>
      rw [tofromReadStream] at h
      by_cases hheld : held = true
      swap
      · rw [if_neg hheld] at h
        cases h
      rw [if_pos hheld] at h
      obtain ⟨line, -, h⟩ := bind_eq_ok.mp h
      obtain ⟨l₁, hadd, h⟩ := bind_eq_ok.mp h
      have hl₁ : l₁.cmdcnt = l.cmdcnt := by
        cases line with
        | blank => cases hadd; rfl
        | bad => cases hadd; rfl
        | dflt cmd => cases hadd; rfl
        | rule text cmd =>
            rw [tofromAdd] at hadd
            split at hadd
            · exact edomainAdd_cmdcnt hadd
            · cases hadd
              rfl
      split_ifs at h
      · exact (ih h).trans hl₁
      · cases h
        exact hl₁

/-- A report has nothing to do with the counters. -/
theorem cmdMcpReport_unmoved {canReport : Bool} {resp : Cmd}
    (h : cmdMcpReport cfg srv req canReport resp = .ok (out, srv', req')) :
    Unmoved srv srv' out := by
  rw [cmdMcpReport] at h
  cases canReport with
  | true => exact (unmoved_self srv).reply not_stageReason_none h
  | false => exact (unmoved_self srv).reply not_stageReason_none h

theorem cmdMcpTofrom_unmoved (name : ListName) {resp : Cmd}
    (h : cmdMcpTofrom cfg srv req name.cmd resp = .ok (out, srv', req')) :
    Unmoved srv srv' out := by
  rw [cmdMcpTofrom_eq] at h
  obtain ⟨text, -, h⟩ := bind_eq_ok.mp h
  obtain ⟨l, hl, h⟩ := bind_eq_ok.mp h
  exact (unmoved_setList srv name (mcpTofromList_cmdcnt hl)).reply not_stageReason_none h

theorem cmdMcpIplist_unmoved (h : cmdMcpIplist cfg srv req = .ok (out, srv', req')) :
    Unmoved srv srv' out := by
  rw [cmdMcpIplist] at h
  by_cases hsize : ntohs req.packet 12 ≠ 4
  · rw [if_pos hsize] at h
    exact (unmoved_self srv).reply not_stageReason_none h
  · rw [if_neg hsize] at h
    obtain ⟨l, -, h⟩ := bind_eq_ok.mp h
    exact (unmoved_setIplist srv l).reply not_stageReason_none h

theorem typeTupleRemove_unmoved (h : typeTupleRemove cfg srv req = .ok (out, srv', req')) :
    Unmoved srv srv' out := by
  by_cases hacc : req.Accepts
  · rw [typeTupleRemove_of_accepts cfg srv hacc] at h
    cases h
    exact ⟨rfl, rfl, fun _ => rfl, quiet_reply not_stageReason_greylist⟩
  · rw [typeTupleRemove, greylistSanitizeReq_of_not_accepts cfg hacc] at h
    cases h
    exact ⟨rfl, rfl, fun _ => rfl, quiet_reply not_stageReason_none⟩

/-- **A request of any other type.** -/
theorem dispatch_unmoved {canReport : Bool} {type : Option Cmd} (hgrey : type ≠ some .greylist)
    (hwhite : type ≠ some .whitelist)
    (h : dispatch cfg srv req canReport type = .ok (out, srv', req')) :
    Unmoved srv srv' out := by
  rw [dispatch.eq_def] at h
  split at h
  · exact (unmoved_self srv).reply not_stageReason_none h
  · exact absurd rfl hgrey
  · exact absurd rfl hwhite
  · exact typeTupleRemove_unmoved h
  · cases h
    exact ⟨rfl, rfl, fun _ => rfl, quiet_packet _⟩
  · cases h
    exact ⟨rfl, rfl, fun _ => rfl, quiet_packet _⟩
  · exact cmdMcpReport_unmoved h
  · exact cmdMcpReport_unmoved h
  · exact cmdMcpReport_unmoved h
  · exact cmdMcpReport_unmoved h
  · exact cmdMcpReport_unmoved h
  · exact cmdMcpReport_unmoved h
  · exact cmdMcpReport_unmoved h
  · exact cmdMcpReport_unmoved h
  · exact cmdMcpIplist_unmoved h
  · exact cmdMcpTofrom_unmoved .toL h
  · exact cmdMcpTofrom_unmoved .todL h
  · exact cmdMcpTofrom_unmoved .fromL h
  · exact cmdMcpTofrom_unmoved .fromdL h
  · exact (unmoved_self srv).reply not_stageReason_none h

end Unmoved

/-! ### Steps -/

section Steps

variable {cfg : Config} {srv srv' : Server} {reached : ℕ} {replies : Reason → ℕ}

theorem CountersOk.congr (h : CountersOk srv) (hip : srv'.ipCmdcnt = srv.ipCmdcnt)
    (hlist : ∀ name, (srv'.list name).cmdcnt = (srv.list name).cmdcnt) : CountersOk srv' := by
  refine ⟨hip ▸ h.ip, ?_, ?_, ?_, ?_⟩
  · exact (congrArg List.length (hlist .fromL)).trans h.fromL
  · exact (congrArg List.length (hlist .fromdL)).trans h.fromdL
  · exact (congrArg List.length (hlist .toL)).trans h.toL
  · exact (congrArg List.length (hlist .todL)).trans h.todL

/-- What has not moved keeps the flow. -/
theorem Unmoved.conserved {out : List Output} (h : Unmoved srv srv' out)
    (hlen : CountersOk srv) (hflow : Conserved srv reached replies) :
    CountersOk srv' ∧
      Conserved srv' reached (fun why => replies why + repliesWith why out) :=
  ⟨hlen.congr h.ipCmdcnt h.list,
    hflow.congr h.requests h.ipCmdcnt h.list fun why hwhy => by
      rw [h.quiet why hwhy, Nat.add_zero]⟩

/-- **A request for a verdict** keeps the flow. -/
theorem typeGreylist_conserved {req req' : Request} {cmd response : Cmd} {out : List Output}
    (hlen : CountersOk srv) (hflow : Conserved srv reached replies)
    (h : typeGreylist cfg srv req cmd response = .ok (out, srv', req')) :
    CountersOk srv' ∧ Conserved srv' (reached + (req.reaches cfg srv).toNat)
      (fun why => replies why + repliesWith why out) := by
  by_cases hacc : req.Accepts
  swap
  · rw [typeGreylist_of_not_accepts cfg srv hacc] at h
    cases h
    have hnot : req.reaches cfg srv = false := by
      rw [Request.reaches, greylistSanitizeReq_of_not_accepts cfg hacc]
    rw [hnot]
    exact Unmoved.conserved ⟨rfl, rfl, fun _ => rfl, quiet_reply not_stageReason_none⟩ hlen hflow
  rw [typeGreylist_filterTuple cfg srv hacc] at h
  obtain ⟨⟨verdict, srv₁⟩, hfilter, h⟩ := bind_eq_ok.mp h
  obtain ⟨hlen₁, hflow₁⟩ := filterTuple_conserved hlen hflow hfilter
  have hreaches : (req.reaches cfg srv).toNat = passedOn verdict := by
    rw [Request.reaches, greylistSanitizeReq_of_accepts cfg hacc]
    dsimp only
    rw [hfilter]
    cases verdict <;> rfl
  rw [hreaches]
  cases verdict with
  | some verdict =>
      obtain ⟨hout, rfl, -⟩ := sendReply_converted_inv h
      refine ⟨hlen₁, hflow₁.congr rfl rfl (fun _ => rfl) fun why _ => ?_⟩
      rw [hout, Request.reply, repliesWith_reply]
  | none =>
      obtain ⟨⟨⟨rc, why⟩, store⟩, hcheck, h⟩ := bind_eq_ok.mp h
      obtain ⟨hout, rfl, -⟩ := sendReply_converted_inv h
      have hwhy : ¬ StageReason why := by
        rcases typeGreylistCheckTuple_reply hcheck with heq | heq
        · cases heq
          exact fun h => h.2.2 rfl
        · cases heq
          exact not_stageReason_greylist
      refine ⟨hlen₁.congr rfl fun _ => rfl, hflow₁.congr rfl rfl (fun _ => rfl) ?_⟩
      intro why' hwhy'
      rw [hout, Request.reply, quiet_reply hwhy why' hwhy', gave_none]

/-- Whether a step of the server is a request that gets to the tuples. -/
def Action.reaches (cfg : Config) (srv : Server) : Action → Bool
  | .request req _ (some .greylist) => req.reaches cfg srv
  | .request req _ (some .whitelist) => req.reaches cfg srv
  | _ => false

/-- **One step** of the server keeps the flow. -/
theorem actionStep_conserved {cgi : CgiLib} {a : Action} {out : List Output}
    (hlen : CountersOk srv) (hflow : Conserved srv reached replies)
    (h : actionStep cgi cfg srv a = .ok (srv', out)) :
    CountersOk srv' ∧ Conserved srv' (reached + (a.reaches cfg srv).toNat)
      (fun why => replies why + repliesWith why out) := by
  cases a with
  | iplistRead ip lines =>
      obtain ⟨⟨l, whole⟩, -, h⟩ := bind_eq_ok.mp h
      cases h
      exact (unmoved_setIplist srv l).conserved hlen hflow
  | whitelistLoad now lines =>
      obtain ⟨store, -, h⟩ := bind_eq_ok.mp h
      cases h
      exact (unmoved_setStore srv store).conserved hlen hflow
  | tofromRead name lines =>
      obtain ⟨srv₁, hread, h⟩ := bind_eq_ok.mp h
      cases h
      obtain ⟨l, hl, hread⟩ := bind_eq_ok.mp hread
      cases hread
      exact (unmoved_setList srv name (tofromReadStream_cmdcnt hl)).conserved hlen hflow
  | sigalrm now =>
      obtain ⟨srv₁, hsweep, h⟩ := bind_eq_ok.mp h
      cases h
      obtain ⟨store, -, hsweep⟩ := bind_eq_ok.mp hsweep
      cases hsweep
      refine Unmoved.conserved (?_ : Unmoved srv _ []) hlen hflow
      exact ⟨rfl, rfl, fun _ => rfl, quiet_nil⟩
  | sigusr2 now =>
      obtain ⟨srv₁, hsweep, h⟩ := bind_eq_ok.mp h
      cases h
      obtain ⟨store, -, hsweep⟩ := bind_eq_ok.mp hsweep
      cases hsweep
      exact (unmoved_setStore srv store).conserved hlen hflow
  | request req canReport type =>
      obtain ⟨⟨out₁, srv₁, req'⟩, hdispatch, h⟩ := bind_eq_ok.mp h
      cases h
      by_cases hgrey : type = some .greylist
      · subst hgrey
        exact typeGreylist_conserved hlen hflow hdispatch
      by_cases hwhite : type = some .whitelist
      · subst hwhite
        exact typeGreylist_conserved hlen hflow hdispatch
      have hnot : (Action.request req canReport type).reaches cfg srv = false := by
        rw [Action.reaches.eq_def]
        split <;> simp_all
      rw [hnot]
      exact (dispatch_unmoved hgrey hwhite hdispatch).conserved hlen hflow

end Steps

/-! ### Runs -/

/-- How many of a run's requests have got to the tuples. -/
def reached (cgi : CgiLib) (cfg : Config) : Server → List Action → ℕ
  | _, [] => 0
  | srv, a :: actions => (a.reaches cfg srv).toNat +
      match actionStep cgi cfg srv a with
      | .ok (srv, _) => reached cgi cfg srv actions
      | .error _ => 0

/-- The flow from any point of a run on. -/
theorem run_conserved_from (cgi : CgiLib) (cfg : Config) {actions : List Action}
    {srv srv' : Server} {n : ℕ} {replies : Reason → ℕ} {outs : List (List Output)}
    (hlen : CountersOk srv) (hflow : Conserved srv n replies)
    (hrun : run (actionStep cgi cfg) srv actions = .ok (srv', outs)) :
    Conserved srv' (n + reached cgi cfg srv actions)
      (fun why => replies why + repliesWith why outs.flatten) := by
  induction actions generalizing srv n replies outs with
  | nil =>
      cases hrun
      exact hflow
  | cons a actions ih =>
      obtain ⟨srv₁, out, outs₁, hok, hrest, rfl⟩ := run_cons_inv hrun
      obtain ⟨hlen₁, hflow₁⟩ := actionStep_conserved hlen hflow hok
      have h := ih hlen₁ hflow₁ hrest
      rw [reached, hok]
      simpa only [List.flatten_cons, repliesWith_append, Nat.add_assoc] using h

/-- At the start nothing was counted. -/
theorem conserved_init (cfg : Config) (starttime : ℤ) :
    CountersOk (Server.init cfg starttime) ∧
      Conserved (Server.init cfg starttime) 0 fun _ => 0 :=
  ⟨⟨rfl, rfl, rfl, rfl, rfl⟩, ⟨rfl, rfl, rfl, rfl, Nat.le_refl 0, Nat.le_refl 0, rfl, rfl, rfl,
    rfl, rfl⟩⟩

/-- **The statistics are a flow.** After any run the requests are those that were looked up
by client, each stage was asked for what the one before it has passed on, the tuples for
what is left, and as many replies give the reason of a stage as that stage has decided. A
command that is not a verdict would be counted outside the arrays and ends the run; a run
that installs verdicts only never comes upon one. -/
theorem run_conserved (cgi : CgiLib) (cfg : Config) (starttime : ℤ) (actions : List Action) :
    (Along (actionStep cgi cfg) (Action.Fine cgi cfg) (Server.init cfg starttime) actions →
        run (actionStep cgi cfg) (Server.init cfg starttime) actions ≠ .error .subscript) ∧
      ∀ srv outs, run (actionStep cgi cfg) (Server.init cfg starttime) actions =
          .ok (srv, outs) →
        Conserved srv (reached cgi cfg (Server.init cfg starttime) actions)
          fun why => repliesWith why outs.flatten := by
  refine ⟨fun hal herror => ?_, fun srv outs hok => ?_⟩
  · have hstep : ∀ srv a, Server.Guarded srv → a.Fine cgi cfg srv →
        Guarantees (actionStep cgi cfg srv a) (fun r => r.1.Guarded) InsideCounters :=
      fun _ _ hsrv ha => actionStep_guarantees cgi hsrv ha
    exact (run_guarantees hstep (serverGuarded_init cfg starttime) hal).error _ herror rfl
  · obtain ⟨hlen, hflow⟩ := conserved_init cfg starttime
    simpa only [Nat.zero_add] using run_conserved_from cgi cfg hlen hflow hok

/-- A request that a rule lets through, and one that gets to the tuples. -/
theorem run_conserved_letters :
    ∃ srv outs, run (actionStep plainCgi (Config.default false))
        (Server.init (Config.default false) 0)
        [.tofromRead .toL [ascii "0 ACCEPT a"],
          .request (letterRequest 98 97 0) false (some .greylist),
          .request (letterRequest 97 98 0) false (some .greylist)] = .ok (srv, outs) ∧
      Conserved srv 1 fun why => repliesWith why outs.flatten := by
  obtain ⟨⟨srv, outs⟩, hrun, -⟩ := exists_of_okAnd
    (run (actionStep plainCgi (Config.default false)) (Server.init (Config.default false) 0)
      [.tofromRead .toL [ascii "0 ACCEPT a"],
        .request (letterRequest 98 97 0) false (some .greylist),
        .request (letterRequest 97 98 0) false (some .greylist)])
    (fun _ => true) (by decide +kernel)
  have hreached : reached plainCgi (Config.default false) (Server.init (Config.default false) 0)
      [.tofromRead .toL [ascii "0 ACCEPT a"],
        .request (letterRequest 98 97 0) false (some .greylist),
        .request (letterRequest 97 98 0) false (some .greylist)] = 1 := by decide +kernel
  refine ⟨srv, outs, hrun, ?_⟩
  rw [← hreached]
  exact (run_conserved plainCgi (Config.default false) 0 _).2 srv outs hrun

end XGrey
