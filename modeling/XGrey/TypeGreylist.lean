import XGrey.Filter
import XGrey.FullPool

/-!
# Answering a Request

`type_greylist` as a whole: the filter of the request, and the tuples when the filter does
not decide.

## Main results

* `typeGreylist_of_ipMatch`, `typeGreylist_eq`: the walk over the stages, then the tuples.
* `documented_iff`: the one reply that is sent is that of the documented filter, exactly
  when a stage decides or the store can take in the tuple.
-/

open CRuntime SortedSeq PrefixMap

namespace XGrey

/-! ### The addresses of a tuple -/

/-- The sender of a tuple as a string. -/
def Tuple.sender (t : Tuple) : List UInt8 := t.fromText.toList.takeWhile (· ≠ 0)

/-- The recipient of a tuple as a string. -/
def Tuple.recipient (t : Tuple) : List UInt8 := t.toText.toList.takeWhile (· ≠ 0)

/-- The stages that a server has for a tuple. -/
def Server.stages (srv : Server) (t : Tuple) : List (ℤ × Reason) :=
  srv.filter.stages t.ip.toList t.sender t.recipient

/-- A buffer with room for more than its bytes has a terminator. -/
theorem zero_mem_buffer {n : ℕ} {bytes : List UInt8} (h : bytes.length < n) :
    0 ∈ (buffer n bytes).toList := by
  rw [toList_buffer, List.mem_append, List.mem_replicate]
  exact Or.inr ⟨by omega, rfl⟩

theorem length_bytes_le (req : Request) (off n : ℕ) : (req.bytes off n).length ≤ n := by
  rw [Request.bytes, List.length_take]
  exact Nat.min_le_left ..

theorem zero_mem_fromText (cfg : Config) (req : Request) :
    0 ∈ (req.tuple cfg).fromText.toList := by
  refine zero_mem_buffer (lt_of_le_of_lt (length_bytes_le ..) ?_)
  exact lt_of_le_of_lt (Nat.min_le_left ..) (by omega)

theorem zero_mem_toText (cfg : Config) (req : Request) :
    0 ∈ (req.tuple cfg).toText.toList := by
  refine zero_mem_buffer (lt_of_le_of_lt (length_bytes_le ..) ?_)
  exact lt_of_le_of_lt (Nat.min_le_left ..) (by omega)

/-! ### The filter and the tuples -/

/-- The tuples let a request through or make it wait. -/
theorem typeGreylistCheckTuple_reply {cfg : Config} {s s' : TupleSpace} {tuple : Tuple}
    {cmd : Cmd} {now clock : ℤ} {r : ℤ × Reason}
    (h : typeGreylistCheckTuple cfg s tuple cmd now clock = .ok (r, s')) :
    r = passReply ∨ r = waitReply := by
  rw [typeGreylistCheckTuple] at h
  generalize tupleSearch s tuple = found at h
  obtain ⟨stored, idx, s₁⟩ := found
  cases stored with
  | none =>
      dsimp only at h
      obtain ⟨⟨p, s₂⟩, -, h⟩ := bind_eq_ok.mp h
      obtain ⟨s₃, -, h⟩ := bind_eq_ok.mp h
      split_ifs at h
      · cases h
        exact Or.inl rfl
      · cases h
        exact Or.inr rfl
  | some p =>
      dsimp only at h
      split_ifs at h <;> cases h <;> first | exact Or.inl rfl | exact Or.inr rfl

/-- Either is a verdict. -/
theorem typeGreylistCheckTuple_verdict {cfg : Config} {s s' : TupleSpace} {tuple : Tuple}
    {cmd : Cmd} {now clock : ℤ} {r : ℤ × Reason}
    (h : typeGreylistCheckTuple cfg s tuple cmd now clock = .ok (r, s')) : IsVerdict r.1 := by
  rcases typeGreylistCheckTuple_reply h with rfl | rfl
  · exact Or.inr (Or.inl rfl)
  · exact Or.inl rfl

/-- What `type_greylist` returns once the filter has been walked over, from a server that
has counted the stages. -/
def answer (cfg : Config) (srv : Server) (req : Request) (cmd response : Cmd) :
    Option (ℤ × Reason) → Exec (List Output × Server × Request)
  | some (rc, why) => .ok ([req.reply response rc why], srv, req.converted)
  | none => do
      let ((rc, why), store) ←
        typeGreylistCheckTuple cfg srv.store (req.tuple cfg) cmd req.now req.clock
      .ok ([req.reply response rc why], { srv with store := store }, req.converted)

/-- The reply to a request that the filter has decided. -/
theorem sendReply_verdict {ndebug : Bool} (req : Request) (response : Cmd) {rc : ℤ}
    (h : IsVerdict rc) (why : Reason) :
    sendReply ndebug req.converted response rc why = .ok [req.reply response rc why] := by
  have hrc : 0 ≤ rc := by
    rcases h with rfl | rfl | rfl <;> decide
  rw [sendReply_eq _ _ hrc, reply_converted]

/-- The end of `type_greylist`, from the label `type_greylist_check_tuple` on. -/
theorem checkTuple_answer (cfg : Config) (srv : Server) (req : Request) (cmd response : Cmd) :
    (do
      let ((rc, why), store) ←
        typeGreylistCheckTuple cfg srv.store (req.tuple cfg) cmd req.now req.clock
      let out ← sendReply cfg.ndebug req.converted response rc why
      .ok (out, { srv with store := store }, req.converted)) =
      answer cfg srv req cmd response none := by
  rw [answer]
  cases hcheck : typeGreylistCheckTuple cfg srv.store (req.tuple cfg) cmd req.now
      req.clock with
  | error e => rfl
  | ok r =>
      obtain ⟨⟨rc, why⟩, store⟩ := r
      rw [ok_bind, ok_bind]
      dsimp only
      rw [sendReply_verdict req response (typeGreylistCheckTuple_verdict hcheck)]
      rfl

/-- The second half of the filter of `type_greylist`, on the recipient. -/
theorem checkRecipient_answer (cfg : Config) {srv : Server} (h : ListsOk srv)
    (req : Request) (cmd response : Cmd) :
    ∃ srv', ListsOk srv' ∧ SameRules srv srv' ∧ srv'.iplist = srv.iplist ∧
      srv'.store = srv.store ∧
      (do
        let (verdict, addr, dom) ← checkAddress srv.toL srv.todL
          (req.tuple cfg).toText.toList .recipient .recipientDomain
        match verdict with
        | some (rc, why) => do
            let out ← sendReply cfg.ndebug req.converted response rc why
            .ok (out, { srv with toL := addr, todL := dom }, req.converted)
        | none => do
            let ((rc, why), store) ←
              typeGreylistCheckTuple cfg srv.store (req.tuple cfg) cmd req.now req.clock
            let out ← sendReply cfg.ndebug req.converted response rc why
            .ok (out, { srv with toL := addr, todL := dom, store := store },
              req.converted)) =
        decideStages (addressStages srv.toL.rules srv.todL.rules (req.tuple cfg).recipient
          .recipient .recipientDomain) >>= answer cfg srv' req cmd response := by
  obtain ⟨toL, todL, hto, htrules, htod, htdrules, hrecipient⟩ :=
    checkAddress_eq h.toL h.todL (zero_mem_toText cfg req) .recipient .recipientDomain
  refine ⟨{ srv with toL := toL, todL := todL },
    ⟨h.ipCmdcnt, h.fromL, h.fromdL, hto, htod⟩, ⟨rfl, rfl, htrules, htdrules⟩, rfl, rfl, ?_⟩
  rw [hrecipient]
  change (decideStages (addressStages _ _ (req.tuple cfg).recipient _ _) >>= _) >>= _ = _
  cases hstages : decideStages (addressStages srv.toL.rules srv.todL.rules
      (req.tuple cfg).recipient .recipient .recipientDomain) with
  | error e => rfl
  | ok verdict =>
      rw [ok_bind, ok_bind, ok_bind]
      cases verdict with
      | some stage =>
          dsimp only
          rw [sendReply_verdict req response (decideStages_some hstages).2]
          rfl
      | none => exact checkTuple_answer cfg { srv with toL := toL, todL := todL } req cmd response

/-- **`type_greylist`** on a request that is accepted, from the lookup of the client on. The
stages of the filter are walked over first; the tuples are looked at, and the store changes,
only if none of them decides. What is counted on the way changes neither the rules for
addresses nor the store. -/
theorem typeGreylist_of_ipMatch (cfg : Config) {srv : Server} (h : ListsOk srv) {req : Request}
    (hacc : req.Accepts) {v : ℤ} {tree : BinTrie IpNode}
    (hmatch : ipMatch cfg.ndebug srv.iplist.tree (req.tuple cfg).ip.toList = .ok (v, tree))
    (cmd response : Cmd) :
    ∃ srv', ListsOk srv' ∧ SameRules srv srv' ∧
      srv'.iplist = { srv.iplist with tree := tree } ∧ srv'.store = srv.store ∧
      typeGreylist cfg srv req cmd response =
        decideStages ((v, .ip) ::
          (addressStages srv.fromL.rules srv.fromdL.rules (req.tuple cfg).sender .sender
              .senderDomain ++
            addressStages srv.toL.rules srv.todL.rules (req.tuple cfg).recipient .recipient
              .recipientDomain)) >>= answer cfg srv' req cmd response := by
  obtain ⟨cnt, hcnt, hbump⟩ := bump_eq h.ipCmdcnt v
  obtain ⟨fromL, fromdL, hfrom, hfrules, hfromd, hfdrules, hsender⟩ :=
    checkAddress_eq h.fromL h.fromdL (zero_mem_fromText cfg req) .sender .senderDomain
  -- the server after the lookup of the address, and after that of the sender
  let srv₁ : Server := { srv with
    requests := srv.requests + 1
    reqCucurrent := srv.reqCucurrent + 1
    iplist := { srv.iplist with tree := tree }
    ipCmdcnt := cnt }
  let srv₂ : Server := { srv₁ with fromL := fromL, fromdL := fromdL }
  have hok₁ : ListsOk srv₁ := ⟨hcnt, h.fromL, h.fromdL, h.toL, h.todL⟩
  have hok₂ : ListsOk srv₂ := ⟨hcnt, hfrom, hfromd, h.toL, h.todL⟩
  have hrules₁ : SameRules srv srv₁ := ⟨rfl, rfl, rfl, rfl⟩
  have hrules₂ : SameRules srv srv₂ := ⟨hfrules, hfdrules, rfl, rfl⟩
  rw [typeGreylist, greylistSanitizeReq_of_accepts cfg hacc, ok_bind]
  dsimp only
  rw [hmatch, ok_bind]
  dsimp only
  rw [hbump, decideStages]
  by_cases hv : IsVerdict v
  · rw [if_pos hv, if_pos hv, ok_bind]
    by_cases hg : v ≠ Ift.greylist
    · refine ⟨srv₁, hok₁, hrules₁, rfl, rfl, ?_⟩
      rw [if_pos hg, if_pos hg, sendReply_verdict req response hv]
      rfl
    · rw [if_neg hg, if_neg hg, hsender, decideStages_append]
      change ∃ srv', _ ∧ _ ∧ _ ∧ _ ∧ (decideStages (addressStages _ _ (req.tuple cfg).sender
        _ _) >>= _) >>= _ = _
      cases hfirst : decideStages (addressStages srv.fromL.rules srv.fromdL.rules
          (req.tuple cfg).sender .sender .senderDomain) with
      | error e => exact ⟨srv₁, hok₁, hrules₁, rfl, rfl, rfl⟩
      | ok verdict =>
          rw [ok_bind, ok_bind]
          cases verdict with
          | some stage =>
              refine ⟨srv₂, hok₂, hrules₂, rfl, rfl, ?_⟩
              dsimp only
              rw [sendReply_verdict req response (decideStages_some hfirst).2]
              rfl
          | none =>
              obtain ⟨srv', hok', hrules', hiplist', hstore', heq⟩ :=
                checkRecipient_answer cfg hok₂ req cmd response
              refine ⟨srv', hok', ?_, hiplist', hstore', heq⟩
              exact ⟨hrules'.fromL.trans hfrules, hrules'.fromdL.trans hfdrules, hrules'.toL,
                hrules'.todL⟩
  · rw [if_neg hv, if_neg hv]
    exact ⟨srv₁, hok₁, hrules₁, rfl, rfl, rfl⟩

/-- **The stages of a request** decide, and the filter is as it was. -/
theorem typeGreylist_eq (cfg : Config) {srv : Server} (h : FilterOk srv) {req : Request}
    (hacc : req.Accepts) (cmd response : Cmd) :
    ∃ srv', FilterOk srv' ∧ srv'.filter = srv.filter ∧ srv'.store = srv.store ∧
      typeGreylist cfg srv req cmd response =
        decideStages (srv.stages (req.tuple cfg)) >>= answer cfg srv' req cmd response := by
  obtain ⟨v, path, hlong, hmatch⟩ := ipMatch_eq cfg.ndebug h.tree
    (show 5 ≤ (req.tuple cfg).ip.toList.length by simp)
  obtain ⟨srv', hok, hrules, hiplist, hstore, heq⟩ :=
    typeGreylist_of_ipMatch cfg h.lists hacc hmatch cmd response
  have hip : srv.filter.ip (req.tuple cfg).ip.toList = v := by
    rw [Server.filter]
    dsimp only
    rw [hlong]
    rfl
  refine ⟨srv', ⟨?_, hok.ipCmdcnt, hok.fromL, hok.fromdL, hok.toL, hok.todL⟩, ?_, hstore, ?_⟩
  · rw [hiplist]
    exact h.tree.countHit path
  · simp only [Server.filter, hiplist, ipRules_modify_countHit, hrules.fromL, hrules.fromdL,
      hrules.toL, hrules.todL]
  · rw [heq, Server.stages, FilterRules.stages, hip]
    rfl

/-! ### Inversion -/

/-- The end of every branch of `type_greylist`. -/
theorem sendReply_converted_inv {ndebug : Bool} {req req' : Request} {response : Cmd} {rc : ℤ}
    {why : Reason} {srv srv' : Server} {out : List Output}
    (h : (do
      let out ← sendReply ndebug req.converted response rc why
      .ok (out, srv, req.converted)) = (.ok (out, srv', req') : Exec _)) :
    out = [req.reply response rc why] ∧ srv' = srv ∧ req' = req.converted := by
  obtain ⟨out', hout, h⟩ := bind_eq_ok.mp h
  cases h
  exact ⟨reply_converted req response rc why ▸ sendReply_inv hout, rfl, rfl⟩

/-- **What `type_greylist` did**, if it returns: it looked up the address and sent one
reply, and either the filter has decided and the store is as it was, or the reply is that
of the tuples. -/
theorem typeGreylist_inv {cfg : Config} {srv srv' : Server} {req req' : Request}
    {cmd response : Cmd} {out : List Output} (hacc : req.Accepts)
    (h : typeGreylist cfg srv req cmd response = .ok (out, srv', req')) :
    req' = req.converted ∧
      (∃ rc tree, ipMatch cfg.ndebug srv.iplist.tree (req.tuple cfg).ip.toList =
        .ok (rc, tree) ∧ srv'.iplist = { srv.iplist with tree := tree }) ∧
      ∃ rc why, out = [req.reply response rc why] ∧
        ((srv'.store = srv.store ∧ why ≠ .greylist ∧ why ≠ .whitelist) ∨
          typeGreylistCheckTuple cfg srv.store (req.tuple cfg) cmd req.now req.clock =
            .ok ((rc, why), srv'.store)) := by
  rw [typeGreylist, greylistSanitizeReq_of_accepts cfg hacc, ok_bind] at h
  dsimp only at h
  obtain ⟨⟨rc, tree⟩, hmatch, h⟩ := bind_eq_ok.mp h
  obtain ⟨ipCmdcnt, -, h⟩ := bind_eq_ok.mp h
  dsimp only at h
  by_cases hrc : rc ≠ Ift.greylist
  · rw [if_pos hrc] at h
    obtain ⟨hout, rfl, rfl⟩ := sendReply_converted_inv h
    exact ⟨rfl, ⟨rc, tree, hmatch, rfl⟩, rc, .ip, hout,
      Or.inl ⟨rfl, Reason.noConfusion, Reason.noConfusion⟩⟩
  rw [if_neg hrc] at h
  obtain ⟨⟨sender, fromL, fromdL⟩, hsender, h⟩ := bind_eq_ok.mp h
  cases sender with
  | some verdict =>
      obtain ⟨hout, rfl, rfl⟩ := sendReply_converted_inv h
      refine ⟨rfl, ⟨rc, tree, hmatch, rfl⟩, verdict.1, verdict.2, hout, Or.inl ⟨rfl, ?_⟩⟩
      rcases checkAddress_reason hsender with hwhy | hwhy <;> rw [hwhy] <;>
        exact ⟨Reason.noConfusion, Reason.noConfusion⟩
  | none =>
      obtain ⟨⟨recipient, toL, todL⟩, hrecipient, h⟩ := bind_eq_ok.mp h
      cases recipient with
      | some verdict =>
          obtain ⟨hout, rfl, rfl⟩ := sendReply_converted_inv h
          refine ⟨rfl, ⟨rc, tree, hmatch, rfl⟩, verdict.1, verdict.2, hout, Or.inl ⟨rfl, ?_⟩⟩
          rcases checkAddress_reason hrecipient with hwhy | hwhy <;> rw [hwhy] <;>
            exact ⟨Reason.noConfusion, Reason.noConfusion⟩
      | none =>
          obtain ⟨⟨⟨rc', why⟩, store⟩, hcheck, h⟩ := bind_eq_ok.mp h
          obtain ⟨hout, rfl, rfl⟩ := sendReply_converted_inv h
          exact ⟨rfl, ⟨rc, tree, hmatch, rfl⟩, rc', why, hout, Or.inr hcheck⟩

/-! ### The documented answer -/

/-- Every rule of a list and its default is a verdict. -/
structure AddrList.Verdicts (l : AddrList) : Prop where
  entries : ∀ e ∈ l.entries, IsVerdict e.cmd
  dflt : IsVerdict l.dflt

/-- Every rule of the server is a verdict. -/
structure RulesOk (srv : Server) : Prop where
  ip : ∀ q v, ipRules srv.iplist.tree q = some v → IsVerdict v
  fromL : srv.fromL.Verdicts
  fromdL : srv.fromdL.Verdicts
  toL : srv.toL.Verdicts
  todL : srv.todL.Verdicts

/-- At the start every rule is `GREYLIST`. -/
theorem rulesOk_init (cfg : Config) (starttime : ℤ) :
    RulesOk (Server.init cfg starttime) := by
  have hlist : AddrList.init.Verdicts := ⟨by simp [AddrList.init], Or.inl rfl⟩
  refine ⟨fun q v hq => ?_, hlist, hlist, hlist, hlist⟩
  change ipRules IpList.init.tree q = some v at hq
  rw [ipRules_init, initRules, Function.update_apply] at hq
  split_ifs at hq
  exact Or.inl (Option.some_inj.mp hq).symm

/-- The verdict of a list of verdicts. -/
theorem AddrList.Verdicts.verdict {l : AddrList} (h : l.Verdicts) (text : List UInt8) :
    IsVerdict (l.rules.verdict text) := by
  rw [TextRules.verdict, AddrList.rules]
  dsimp only
  cases hfind : findText l.entries text with
  | none => exact h.dflt
  | some e => exact h.entries e (List.mem_of_find?_eq_some hfind)

/-- The stages for an address in lists of verdicts. -/
theorem AddrList.Verdicts.addressStages {addr dom : AddrList} (ha : addr.Verdicts)
    (hd : dom.Verdicts) (text : List UInt8) (why whyDomain : Reason) :
    ∀ stage ∈ addressStages addr.rules dom.rules text why whyDomain, IsVerdict stage.1 := by
  rw [XGrey.addressStages]
  intro stage hstage
  rcases List.mem_cons.mp hstage with rfl | hstage
  · exact ha.verdict text
  · split_ifs at hstage
    · cases hstage
    · obtain ⟨d, -, rfl⟩ := Option.map_eq_some_iff.mp (Option.mem_toList.mp hstage)
      exact hd.verdict d

/-- All stages of a request are verdicts. -/
theorem RulesOk.stages {srv : Server} (h : RulesOk srv) (t : Tuple) :
    ∀ stage ∈ srv.stages t, IsVerdict stage.1 := by
  intro stage hstage
  rcases List.mem_cons.mp hstage with rfl | hstage
  · change IsVerdict (Option.getD (longest _ _) _)
    cases hlong : longest (ipRules srv.iplist.tree) (prefixBits t.ip.toList 32) with
    | none => exact Or.inl rfl
    | some v =>
        obtain ⟨q, -, hq, -⟩ := longest_eq_some_iff.mp hlong
        exact h.ip q v hq
  · rcases List.mem_append.mp hstage with hstage | hstage
    · exact h.fromL.addressStages h.fromdL _ _ _ stage hstage
    · exact h.toL.addressStages h.todL _ _ _ stage hstage

/-- `type_greylist` sends exactly one reply, that of the documented filter: when a stage
decides, its verdict and its reason, and the store stays as it was; when none does, what
the tuples answer. -/
def Documented (cfg : Config) (srv : Server) (req : Request) (cmd response : Cmd) : Prop :=
  ∃ srv' rc why,
    typeGreylist cfg srv req cmd response =
        .ok ([req.reply response rc why], srv', req.converted) ∧
      match decision (srv.stages (req.tuple cfg)) with
      | some stage => (rc, why) = stage ∧ srv'.store = srv.store
      | none => (rc, why) = storeReply cfg srv.store (req.tuple cfg) cmd req.now ∧
          typeGreylistCheckTuple cfg srv.store (req.tuple cfg) cmd req.now req.clock =
            .ok ((rc, why), srv'.store)

/-- **The documented filter.** With rules that are verdicts, a request that is accepted is
answered as documented exactly when a stage of the filter decides or the store can take in
the tuple. -/
theorem documented_iff (cfg : Config) (srv : Server) (req : Request) (cmd response : Cmd)
    (hfilter : FilterOk srv) (hrules : RulesOk srv)
    (hstore : ∃ live free top, Layout cfg srv.store live free top) (hacc : req.Accepts) :
    Documented cfg srv req cmd response ↔
      decision (srv.stages (req.tuple cfg)) ≠ none ∨
        Fits cfg srv.store (req.tuple cfg) req.clock := by
  obtain ⟨live, free, top, hl⟩ := hstore
  have hpad := (freshTuple_requestTuple cfg req).pad
  obtain ⟨srv', -, -, hsame, heq⟩ := typeGreylist_eq cfg hfilter hacc cmd response
  rw [decideStages_eq (hrules.stages _), ok_bind] at heq
  rw [Documented]
  rw [heq]
  cases hdec : decision (srv.stages (req.tuple cfg)) with
  | some stage =>
      obtain ⟨rc, why⟩ := stage
      exact iff_of_true ⟨srv', rc, why, rfl, rfl, hsame⟩ (Or.inl (Option.some_ne_none _))
  | none =>
      rw [answer, hsame]
      constructor
      · rintro ⟨srv'', rc, why, -, -, hcheck⟩
        by_contra hnot
        obtain ⟨e, herror⟩ := typeGreylistCheckTuple_of_not_fits hl
          (fun hfits => hnot (Or.inr hfits)) cmd req.now
        rw [hcheck] at herror
        cases herror
      · rintro (hnone | hfits)
        · exact absurd rfl hnone
        · obtain ⟨s', hcheck⟩ := typeGreylistCheckTuple_of_fits hl hpad hfits cmd req.now
          refine ⟨{ srv' with store := s' }, _, _, ?_, rfl, hcheck⟩
          rw [hcheck, ok_bind]
          rfl

/-- Senders of which one is rejected. -/
def rejectedSender : AddrList :=
  { AddrList.init with
    entries := [{ text := ascii "r", count := 0, cmd := Ift.reject }]
    smax := 1 }

/-- A server with these senders and some tuples. -/
def rejectingServer (store : TupleSpace) : Server :=
  { Server.init smallConfig 0 with fromL := rejectedSender, store := store }

/-- A server that rejects a sender and has stored the tuple of another one, which is let through
after the embargo. -/
theorem documented_ruled :
    ∃ r store, typeGreylistCheckTuple smallConfig (TupleSpace.init smallConfig)
        ((letterRequest 97 98 0).tuple smallConfig) .greylist 0 0 = .ok (r, store) ∧
      Documented smallConfig (rejectingServer store) (letterRequest 114 98 10) .greylist
        .greylistResp ∧
      decision ((rejectingServer store).stages ((letterRequest 114 98 10).tuple smallConfig)) =
        some (Ift.reject, .sender) ∧
      Documented smallConfig (rejectingServer store) (letterRequest 97 98 2000) .greylist
        .greylistResp ∧
      storeReply smallConfig store ((letterRequest 97 98 2000).tuple smallConfig) .greylist 2000 =
        passReply := by
  let tuple := (letterRequest 97 98 0).tuple smallConfig
  obtain ⟨r, store, top, hcheck, hok⟩ := (storeOk_init smallConfig).check
    (freshTuple_requestTuple smallConfig (letterRequest 97 98 0)).pad
    (fun _ => ⟨Or.inr (Or.inl (by decide)), Or.inl (by decide)⟩) .greylist 0
  obtain ⟨⟨r', store'⟩, hcheck', htest⟩ := exists_of_okAnd
    (typeGreylistCheckTuple smallConfig (TupleSpace.init smallConfig) tuple .greylist 0 0)
    (fun x => decide ((tupleSearch x.2 ((letterRequest 97 98 2000).tuple smallConfig)).1 ≠ none ∧
      storeReply smallConfig x.2 ((letterRequest 97 98 2000).tuple smallConfig) .greylist 2000 =
        passReply)) (by decide +kernel)
  rw [hcheck] at hcheck'
  cases hcheck'
  obtain ⟨hfound, hpass⟩ := of_decide_eq_true htest
  obtain ⟨live, free, hlayout⟩ := hok.layout
  obtain ⟨htree, hcnt, -, hfromd, hto, htod⟩ := filterOk_init smallConfig 0
  have hrejected : AddrListOk rejectedSender := ⟨by decide, by decide, rfl⟩
  have hfilter : FilterOk (rejectingServer store) := ⟨htree, hcnt, hrejected, hfromd, hto, htod⟩
  obtain ⟨hip, -, hlistd, hlistt, hlisttd⟩ := rulesOk_init smallConfig 0
  have hverdicts : rejectedSender.Verdicts := ⟨by decide, Or.inl rfl⟩
  have hrules : RulesOk (rejectingServer store) := ⟨hip, hverdicts, hlistd, hlistt, hlisttd⟩
  have hreject : decision ((rejectingServer store).stages
      ((letterRequest 114 98 10).tuple smallConfig)) = some (Ift.reject, .sender) := by
    change decision ((rejectingServer (TupleSpace.init smallConfig)).stages _) = _
    decide +kernel
  refine ⟨r, store, hcheck, ?_, hreject, ?_, hpass⟩
  · refine (documented_iff smallConfig _ _ _ _ hfilter hrules ⟨live, free, top, hlayout⟩
      (by decide)).mpr (Or.inl ?_)
    rw [hreject]
    exact Option.some_ne_none _
  · exact (documented_iff smallConfig _ _ _ _ hfilter hrules ⟨live, free, top, hlayout⟩
      (by decide)).mpr (Or.inr (Or.inl hfound))

/-- A server with one place that has been taken by a request a while ago. -/
def fullServer : Server :=
  match typeGreylist ((Config.default false).withPool 1 (by decide))
      (Server.init ((Config.default false).withPool 1 (by decide)) 0)
      (letterRequest 97 98 0) .greylist .greylistResp with
  | .ok (_, srv, _) => srv
  | .error _ => Server.init ((Config.default false).withPool 1 (by decide)) 0

/-- The pool has one place, and the tuple in it has expired when a new one comes: no stage
decides, the request is accepted, and an assertion ends the server instead of a reply. -/
theorem not_documented_full :
    (letterRequest 99 98 30000).Accepts ∧
      decision (fullServer.stages
        ((letterRequest 99 98 30000).tuple ((Config.default false).withPool 1 (by decide)))) =
          none ∧
      typeGreylist ((Config.default false).withPool 1 (by decide)) fullServer
        (letterRequest 99 98 30000) .greylist .greylistResp = .error .assertion ∧
      ¬ Documented ((Config.default false).withPool 1 (by decide)) fullServer
        (letterRequest 99 98 30000) .greylist .greylistResp := by
  have hfault : typeGreylist ((Config.default false).withPool 1 (by decide)) fullServer
      (letterRequest 99 98 30000) .greylist .greylistResp = .error .assertion := by
    decide +kernel
  refine ⟨by decide, by decide +kernel, hfault, ?_⟩
  rintro ⟨srv', rc, why, hok, -⟩
  rw [hfault] at hok
  cases hok

end XGrey
