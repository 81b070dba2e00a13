import XGrey.GreylistRun
import XGrey.Lib.TwoRuns
import XGrey.RuleHistory

/-!
# The Server is a Table of Rules and a Greylist

A server under way is asked for verdicts, told to forget tuples, given new rules and signalled to
clean up, all of it in any order. It does what a machine does that has nothing but a table with a
rule or none under each key, and a finite map from keys to entries (`RuledGreylist.step`): a verdict
is that of the table if it has one, or else that of the map; a command for a rule writes to the
table; everything else leaves both alone.

## Main result

* `run_ruledGreylist`: any run of a server under way.
-/

open CRuntime PrefixMap StepRun LastWrite

namespace XGrey

/-! ### The machine -/

/-- A rule or none under each key, and a greylist. -/
structure RuledGreylist where
  rule : RuleKey → Option ℤ
  greylist : Greylist Key

namespace RuledGreylist

/-- The rules for the texts of an address list. -/
def list (p : RuledGreylist) (name : ListName) : TextRules where
  rule text := p.rule (.text name text)
  dflt := (p.rule (.dflt name)).getD Ift.greylist

/-- The rules as the filter consults them. -/
def filter (p : RuledGreylist) : FilterRules where
  ip ip := (longest (fun bits => p.rule (.client bits)) (prefixBits ip 32)).getD Ift.greylist
  sender := p.list .fromL
  senderDomain := p.list .fromdL
  recipient := p.list .toL
  recipientDomain := p.list .todL

/-- The answer to a request whose sizes do not fit. -/
def refusal (req : Request) : List Output := [req.reply .noneResp Glerr.badData.code .none]

/-- A request for a verdict: the rules decide, or else the greylist does. -/
def check (cfg : Config) (p : RuledGreylist) (whitelist : Bool) (req : Request) :
    List Output × Greylist Key :=
  if req.Accepts then
    let t := req.tuple cfg
    match decision (p.filter.stages t.ip.toList t.sender t.recipient) with
    | some stage => ([req.reply (checkResp whitelist) stage.1 stage.2], p.greylist)
    | none =>
        let r := p.greylist.request cfg whitelist t.key req.now
        ([req.reply (checkResp whitelist) r.1.1 r.1.2], r.2)
  else (refusal req, p.greylist)

/-- A removal. -/
def forget (cfg : Config) (p : RuledGreylist) (req : Request) : List Output × Greylist Key :=
  if req.Accepts then
    ([req.reply .tupleRemoveResp 0 .greylist], p.greylist.remove (req.tuple cfg).key)
  else (refusal req, p.greylist)

/-- What becomes of the greylist, and what is answered. The answers to the other requests are not
those of the machine. -/
def respond (cfg : Config) (p : RuledGreylist) : Action → Option (List Output) × Greylist Key
  | .request req _ (some .greylist) => (p.check cfg false req).map some id
  | .request req _ (some .whitelist) => (p.check cfg true req).map some id
  | .request req _ (some .tupleRemove) => (p.forget cfg req).map some id
  | .sigalrm now => (some [], p.greylist.sweep cfg now)
  | .sigusr2 now => (some [], p.greylist.sweep cfg now)
  | _ => (none, p.greylist)

/-- What the machine does. -/
def step (cfg : Config) (p : RuledGreylist) (a : Action) :
    RuledGreylist × Option (List Output) :=
  let r := p.respond cfg a
  ({ rule := fun key => (written Action.write a key).getD (p.rule key), greylist := r.2 }, r.1)

end RuledGreylist

/-- What the server answers is what the machine answers, where it does. -/
def Answered (_ : Action) (out : List Output) (answer : Option (List Output)) : Prop :=
  ∀ expected, answer = some expected → out = expected

/-! ### One step -/

/-- The server stands for the machine: they have the same rules, the store represents the greylist,
and it has room. -/
structure Server.IsRuled (cfg : Config) (srv : Server) (p : RuledGreylist) : Prop where
  filter : FilterOk srv
  rule : ∀ key, srv.rule key = p.rule key
  represents : Represents srv.store p.greylist
  store : ∃ top < cfg.poolmax, StoreOk cfg srv.store top

/-- If the walk over the stages ends, then with their decision. -/
theorem decision_of_decideStages {stages : List (ℤ × Reason)} {found : Option (ℤ × Reason)}
    (h : decideStages stages = .ok found) : decision stages = found := by
  induction stages with
  | nil =>
      cases h
      rfl
  | cons stage rest ih =>
      rw [decideStages] at h
      rw [decision, List.find?_cons]
      split_ifs at h with hverdict hgrey
      · cases h
        rw [decide_eq_true hgrey]
      · rw [decide_eq_false hgrey]
        exact ih h

theorem answered_some {a : Action} {out expected : List Output} (h : out = expected) :
    Answered a out (some expected) := by
  rintro _ ⟨⟩
  exact h

section Steps

variable {cgi : CgiLib} {cfg : Config} {srv srv' : Server} {p : RuledGreylist}
  {req req' : Request} {out : List Output}

/-- The server consults the rules of the machine. -/
theorem Server.IsRuled.filter_eq (h : srv.IsRuled cfg p) : srv.filter = p.filter := by
  have hrule : p.rule = srv.rule := (funext h.rule).symm
  rw [RuledGreylist.filter]
  simp only [RuledGreylist.list, hrule]
  rfl

theorem Server.IsRuled.standsFor (h : srv.IsRuled cfg p) :
    StandsFor cfg srv srv p.greylist :=
  ⟨h.filter, rfl, h.represents, h.store⟩

/-- The store represents a greylist and has room. -/
def Keeps (cfg : Config) (srv : Server) (g : Greylist Key) : Prop :=
  Represents srv.store g ∧ ∃ top < cfg.poolmax, StoreOk cfg srv.store top

/-- **A request for a verdict.** -/
theorem Server.IsRuled.check (h : srv.IsRuled cfg p) (whitelist : Bool)
    (hroom : (p.check cfg whitelist req).2.size < cfg.poolmax)
    (hok : typeGreylist cfg srv req (checkCmd whitelist) (checkResp whitelist) =
      .ok (out, srv', req')) :
    out = (p.check cfg whitelist req).1 ∧ Keeps cfg srv' (p.check cfg whitelist req).2 := by
  rw [RuledGreylist.check] at hroom ⊢
  by_cases hacc : req.Accepts
  · rw [if_pos hacc] at hroom ⊢
    obtain ⟨srv₁, -, -, hsame, heq⟩ :=
      typeGreylist_eq cfg h.filter hacc (checkCmd whitelist) (checkResp whitelist)
    have hcheck := hok
    rw [heq] at hok
    obtain ⟨found, hdecide, hanswer⟩ := bind_eq_ok.mp hok
    have hdecision := decision_of_decideStages hdecide
    have hstages : srv.stages (req.tuple cfg) = p.filter.stages (req.tuple cfg).ip.toList
        (req.tuple cfg).sender (req.tuple cfg).recipient := by
      rw [Server.stages, h.filter_eq]
    dsimp only at hroom ⊢
    rw [← hstages, hdecision] at hroom ⊢
    cases found with
    | some stage =>
        cases hanswer
        exact ⟨rfl, hsame ▸ h.represents, hsame ▸ h.store⟩
    | none =>
        have hleft : LeftToTuples cfg srv (.check whitelist req) := by
          refine ⟨hacc, fun stage hstage => ?_⟩
          by_contra hne
          exact List.find?_eq_none.mp hdecision stage hstage (decide_eq_true hne)
        obtain ⟨srv₂, hstep, hstands⟩ := h.standsFor.check whitelist hleft hroom
        rw [eventStep, hcheck] at hstep
        cases hstep
        exact ⟨rfl, hstands.represents, hstands.store⟩
  · rw [if_neg hacc]
    rw [typeGreylist_of_not_accepts cfg srv hacc] at hok
    cases hok
    exact ⟨rfl, h.represents, h.store⟩

/-- **A removal.** -/
theorem Server.IsRuled.forget (h : srv.IsRuled cfg p)
    (hok : typeTupleRemove cfg srv req = .ok (out, srv', req')) :
    out = (p.forget cfg req).1 ∧ Keeps cfg srv' (p.forget cfg req).2 := by
  rw [RuledGreylist.forget]
  by_cases hacc : req.Accepts
  · rw [if_pos hacc]
    obtain ⟨srv₂, hstep, hstands⟩ := h.standsFor.remove hacc
    rw [eventStep, hok] at hstep
    cases hstep
    exact ⟨rfl, hstands.represents, hstands.store⟩
  · rw [if_neg hacc]
    rw [typeTupleRemove, greylistSanitizeReq_of_not_accepts cfg hacc] at hok
    cases hok
    exact ⟨rfl, h.represents, h.store⟩

/-- **What is answered**, and what becomes of the greylist. -/
theorem Server.IsRuled.respond (h : srv.IsRuled cfg p) {a : Action} (ha : a.Serving)
    (hroom : (p.respond cfg a).2.size < cfg.poolmax)
    (hok : actionStep cgi cfg srv a = .ok (srv', out)) :
    Answered a out (p.respond cfg a).1 ∧ Keeps cfg srv' (p.respond cfg a).2 := by
  revert hroom
  unfold RuledGreylist.respond
  split <;> intro hroom
  · obtain ⟨⟨out', srv₁, req₁⟩, hdispatch, hok⟩ := bind_eq_ok.mp hok
    cases hok
    obtain ⟨hout, hkeeps⟩ := h.check false hroom hdispatch
    exact ⟨answered_some hout, hkeeps⟩
  · obtain ⟨⟨out', srv₁, req₁⟩, hdispatch, hok⟩ := bind_eq_ok.mp hok
    cases hok
    obtain ⟨hout, hkeeps⟩ := h.check true hroom hdispatch
    exact ⟨answered_some hout, hkeeps⟩
  · obtain ⟨⟨out', srv₁, req₁⟩, hdispatch, hok⟩ := bind_eq_ok.mp hok
    cases hok
    obtain ⟨hout, hkeeps⟩ := h.forget hdispatch
    exact ⟨answered_some hout, hkeeps⟩
  · rename_i now
    obtain ⟨srv₂, hstep, hstands⟩ := h.standsFor.sigalrm now
    change eventStep cfg srv (.sigalrm now) = _ at hok
    rw [hstep] at hok
    cases hok
    exact ⟨answered_some rfl, hstands.represents, hstands.store⟩
  · rename_i now
    obtain ⟨srv₂, hstep, hstands⟩ := h.standsFor.sigusr2 now
    change eventStep cfg srv (.sigusr2 now) = _ at hok
    rw [hstep] at hok
    cases hok
    exact ⟨answered_some rfl, hstands.represents, hstands.store⟩
  · rename_i hgreylist hwhitelist hremove hsigalrm hsigusr2
    -- the other requests do not touch the store
    suffices hsame : srv'.store = srv.store by
      refine ⟨?_, hsame ▸ h.represents, hsame ▸ h.store⟩
      rintro _ ⟨⟩
    have hstep := actionStep_inv hok
    cases hstep with
    | iplistRead => exact ha.elim
    | whitelistLoad => exact ha.elim
    | tofromRead => exact ha.elim
    | request req canReport type srv' out req' hdispatch =>
        have hrequest := dispatch_inv hdispatch
        cases hrequest with
        | same => rfl
        | check whitelist =>
            cases whitelist with
            | false => exact absurd rfl (hgreylist req canReport)
            | true => exact absurd rfl (hwhitelist req canReport)
        | remove => exact absurd rfl (hremove req canReport)
        | iplist => rfl
        | tofrom name => cases name <;> rfl
    | sweep a now ha' =>
        rcases ha' with rfl | rfl
        · exact absurd rfl (hsigalrm now)
        · exact absurd rfl (hsigusr2 now)

/-- **One action** of a server under way is one step of the machine, if the greylist still fits the
pool afterwards. -/
theorem Server.IsRuled.action (h : srv.IsRuled cfg p) {a : Action} (ha : a.Serving)
    (hroom : (p.step cfg a).1.greylist.size < cfg.poolmax)
    (hok : actionStep cgi cfg srv a = .ok (srv', out)) :
    srv'.IsRuled cfg (p.step cfg a).1 ∧ Answered a out (p.step cfg a).2 := by
  obtain ⟨hfilter, hrule⟩ := rule_action h.filter ha hok
  obtain ⟨hanswered, hrepresents, hstore⟩ := h.respond ha hroom hok
  refine ⟨⟨hfilter, fun key => ?_, hrepresents, hstore⟩, hanswered⟩
  rw [hrule key, h.rule key]
  rfl

end Steps

/-! ### Runs -/

/-- The action is one of a server under way, and the greylist fits the pool afterwards with a place
to spare. -/
def RuledGreylist.Admits (cfg : Config) (p : RuledGreylist) (a : Action) : Prop :=
  a.Serving ∧ (p.step cfg a).1.greylist.size < cfg.poolmax

/-- A step makes at most one entry. -/
theorem RuledGreylist.size_step_le (cfg : Config) (p : RuledGreylist) (a : Action) :
    (p.step cfg a).1.greylist.size ≤ p.greylist.size + 1 := by
  change (p.respond cfg a).2.size ≤ _
  have hcheck : ∀ whitelist req,
      (p.check cfg whitelist req).2.size ≤ p.greylist.size + 1 := by
    intro whitelist req
    rw [RuledGreylist.check]
    split_ifs
    · dsimp only
      split
      · exact Nat.le_succ _
      · exact Greylist.size_request_le cfg whitelist _ _
    · exact Nat.le_succ _
  unfold RuledGreylist.respond
  split
  · exact hcheck false _
  · exact hcheck true _
  · change (p.forget cfg _).2.size ≤ _
    rw [RuledGreylist.forget]
    split_ifs
    · exact Greylist.size_remove_le _
    · exact Nat.le_succ _
  · exact (Greylist.size_sweep_le cfg _).trans (Nat.le_succ _)
  · exact (Greylist.size_sweep_le cfg _).trans (Nat.le_succ _)
  · exact Nat.le_succ _

/-- Fewer actions than the pool has places never fill it. -/
theorem alongTotal_admits {cfg : Config} {p : RuledGreylist} {actions : List Action}
    (hactions : ∀ a ∈ actions, a.Serving)
    (hlen : p.greylist.size + actions.length < cfg.poolmax) :
    AlongTotal (RuledGreylist.step cfg) (RuledGreylist.Admits cfg) p actions := by
  induction actions generalizing p with
  | nil => trivial
  | cons a actions ih =>
      obtain ⟨ha, hactions⟩ := List.forall_mem_cons.mp hactions
      have hsize := RuledGreylist.size_step_le cfg p a
      rw [List.length_cons] at hlen
      exact ⟨⟨ha, by omega⟩, ih hactions (by omega)⟩

/-- **The server is a table of rules and a greylist.** From any server that stands for a machine,
every run of requests of any type, commands and cleanups, in any order, answers the requests for
verdicts and the removals as the machine does, and leaves a server that stands for the machine, as
long as the greylist never fills the pool. -/
theorem run_ruledGreylist (cgi : CgiLib) (cfg : Config) (srv srv' : Server) (p : RuledGreylist)
    (h : srv.IsRuled cfg p) (actions : List Action)
    (hal : AlongTotal (RuledGreylist.step cfg) (RuledGreylist.Admits cfg) p actions)
    (outs : List (List Output))
    (hrun : run (actionStep cgi cfg) srv actions = .ok (srv', outs)) :
    srv'.IsRuled cfg (runTotal (RuledGreylist.step cfg) p actions).1 ∧
      AnswersRelated Answered actions outs (runTotal (RuledGreylist.step cfg) p actions).2 :=
  run_simulates (fun _ _ _ _ _ h ha hok => h.action ha.1 ha.2 hok) h hal hrun

/-- The machine of the start. -/
def RuledGreylist.init (cfg : Config) : RuledGreylist where
  rule := (Server.init cfg 0).rule
  greylist := Greylist.empty

theorem isRuled_init (cfg : Config) : (Server.init cfg 0).IsRuled cfg (RuledGreylist.init cfg) where
  filter := filterOk_init cfg 0
  rule _ := rfl
  represents := represents_init cfg
  store := ⟨0, cfg.poolmax_pos, storeOk_init cfg⟩

/-- A request, a rule for its recipient, the request again, and its removal. -/
def ruledRun : List Action :=
  [.request (letterRequest 97 98 0) true (some .greylist),
    .request (tofromRequest 2 (ascii "b" ++ [0])) true (some .mcpTo),
    .request (letterRequest 97 98 5) true (some .greylist),
    .request (letterRequest 97 98 9) true (some .tupleRemove), .sigalrm 10]

/-- The settings with a pool of eight places. -/
def eightConfig : Config := (Config.default false).withPool 8 (Nat.succ_pos 7)

theorem run_ruledGreylist_letters :
    ∃ srv outs, run (actionStep plainCgi eightConfig) (Server.init eightConfig 0) ruledRun =
        .ok (srv, outs) ∧
      srv.IsRuled eightConfig
        (runTotal (RuledGreylist.step eightConfig) (RuledGreylist.init eightConfig) ruledRun).1 ∧
      AnswersRelated Answered ruledRun outs (runTotal (RuledGreylist.step eightConfig)
        (RuledGreylist.init eightConfig) ruledRun).2 := by
  obtain ⟨⟨srv, outs⟩, hrun, -⟩ := exists_of_okAnd (run (actionStep plainCgi eightConfig)
    (Server.init eightConfig 0) ruledRun) (fun _ => true) (by decide +kernel)
  have hserving : ∀ a ∈ ruledRun, a.Serving := by simp [ruledRun, Action.Serving]
  have hlen : (RuledGreylist.init eightConfig).greylist.size + ruledRun.length <
      eightConfig.poolmax := by
    rw [RuledGreylist.init, Greylist.size_empty]
    decide
  exact ⟨srv, outs, hrun, run_ruledGreylist plainCgi eightConfig _ srv _ (isRuled_init _) ruledRun
    (alongTotal_admits hserving hlen) outs hrun⟩

end XGrey
