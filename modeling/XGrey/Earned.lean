import XGrey.Greylist
import XGrey.LiveTuples
import XGrey.StoreSafety

/-!
# No Mail Passes Unearned

What a greylist is for: mail passes by its tuple only for a reason that lies in the past. The
tuple was asked for before, at least as long ago as the embargo lasts, or it was whitelisted,
by a request or by a line of the whitelist file (`Vouched`).

This holds over any run of the whole server: whatever else is done in between, whether or not
the pool is full, and in the build without assertions also when the store has lost its order.
It rests on an invariant that ties each live tuple to the inputs that account for it
(`Earned`).

## Main results

* `actionStep_earned`: every step keeps the invariant.
* `run_vouched`: a request that is let through by its tuple is vouched for.
-/

open CRuntime StepRun

namespace XGrey

/-! ### Reasons in the past -/

/-- An input that asks for a verdict on a key at some time. -/
def Action.AsksFor (cfg : Config) (k : Key) (now : ℤ) : Action → Prop
  | .request req _ type => (∃ whitelist, type = some (checkCmd whitelist)) ∧ req.Accepts ∧
      (req.tuple cfg).key = k ∧ req.now = now
  | _ => False

/-- An input that whitelists a key. -/
def Action.Whitelists (cgi : CgiLib) (cfg : Config) (k : Key) : Action → Prop
  | .request req _ type => type = some .whitelist ∧ req.Accepts ∧ (req.tuple cfg).key = k
  | .whitelistLoad now lines =>
      ∃ line ∈ lines, ∃ t, line.tuple cgi cfg.ndebug now = .ok (some t) ∧ t.key = k
  | _ => False

/-- A key was asked for, and asked for again once the embargo was over. -/
def Retried (cfg : Config) (past : List Action) (k : Key) : Prop :=
  ∃ early first between again late t t', past = early ++ first :: (between ++ again :: late) ∧
    first.AsksFor cfg k t ∧ again.AsksFor cfg k t' ∧ cfg.timeoutEmbargo ≤ difftime t' t

/-- There is a reason to let a key pass. -/
def Vouched (cgi : CgiLib) (cfg : Config) (past : List Action) (k : Key) : Prop :=
  (∃ a ∈ past, a.Whitelists cgi cfg k) ∨ Retried cfg past k

/-- A live tuple is accounted for: it is whitelisted for a reason, and otherwise it was
created by an input that asked for it. -/
structure Earned (cgi : CgiLib) (cfg : Config) (past : List Action) (t : Tuple) : Prop where
  asked : t.whitelisted = false → ∃ a ∈ past, a.AsksFor cfg t.key t.ctime
  vouched : t.whitelisted = true → Vouched cgi cfg past t.key

section Past

variable {cgi : CgiLib} {cfg : Config} {past : List Action} {k : Key} {t : Tuple}

/-- What was a reason remains one. -/
theorem Vouched.append (h : Vouched cgi cfg past k) (later : List Action) :
    Vouched cgi cfg (past ++ later) k := by
  rcases h with ⟨a, ha, hwhite⟩ | ⟨early, first, between, again, late, t, t', rfl, hrest⟩
  · exact Or.inl ⟨a, List.mem_append_left _ ha, hwhite⟩
  · refine Or.inr ⟨early, first, between, again, late ++ later, t, t', ?_, hrest⟩
    simp

theorem Earned.append (h : Earned cgi cfg past t) (later : List Action) :
    Earned cgi cfg (past ++ later) t where
  asked hgrey := by
    obtain ⟨a, ha, hasks⟩ := h.asked hgrey
    exact ⟨a, List.mem_append_left _ ha, hasks⟩
  vouched hwhite := (h.vouched hwhite).append later

/-- Only the key, the time of creation and the mark of the whitelist count. -/
theorem Earned.congr {u : Tuple} (h : Earned cgi cfg past t) (hkey : u.key = t.key)
    (hctime : u.ctime = t.ctime) (hwhite : u.whitelisted = t.whitelisted) :
    Earned cgi cfg past u where
  asked hgrey := by
    rw [hkey, hctime]
    exact h.asked (hwhite.symm.trans hgrey)
  vouched hmark := by
    rw [hkey]
    exact h.vouched (hwhite.symm.trans hmark)

/-- A tuple that is whitelisted now is accounted for by the reason for that. -/
theorem earned_of_vouched (hwhite : t.whitelisted = true) (h : Vouched cgi cfg past t.key) :
    Earned cgi cfg past t where
  asked hgrey := by
    rw [hwhite] at hgrey
    cases hgrey
  vouched _ := h

/-- Asking again once the embargo is over is a reason. -/
theorem retried_of_asked {a : Action} {now : ℤ} (ha : a.AsksFor cfg k now) {a₀ : Action}
    (ha₀ : a₀ ∈ past) {t₀ : ℤ} (hasks : a₀.AsksFor cfg k t₀)
    (hembargo : cfg.timeoutEmbargo ≤ difftime now t₀) : Retried cfg (past ++ [a]) k := by
  obtain ⟨early, late, rfl⟩ := List.append_of_mem ha₀
  exact ⟨early, a₀, late, a, [], t₀, now, by simp, hasks, ha, hembargo⟩

end Past

/-! ### What the operations do to the live tuples -/

section Operations

variable {cfg : Config} {s s' : TupleSpace}

/-- The live tuples after a request for a verdict, if it returns. -/
theorem mem_liveTuples_check (h : HasLayout cfg s) {tuple : Tuple} {cmd : Cmd} {now clock : ℤ}
    {r : ℤ × Reason} (hok : typeGreylistCheckTuple cfg s tuple cmd now clock = .ok (r, s'))
    {u : Tuple} (hu : u ∈ s'.liveTuples) :
    u ∈ s.liveTuples ∨
      (∃ t ∈ s.liveTuples, t.key = tuple.key ∧ u = hitTuple cfg cmd now t) ∨
        u = missTuple cmd tuple := by
  obtain ⟨live, free, top, hl⟩ := h
  rcases typeGreylistCheckTuple_inv hl hok with
    ⟨p, hp, hfound, rfl⟩ | ⟨idx, s₁, ⟨-, -, hs₁, hlt, hsub⟩, rfl⟩
  · rw [hitStore_eq (HasLayout.lt_of_mem_live ⟨live, free, top, hl⟩ hp)] at hu
    rcases mem_liveTuples_write (s := s.countRead) hu with rfl | hu
    · refine Or.inr (Or.inl ⟨s.deref p, List.mem_map_of_mem hp, ?_, rfl⟩)
      rcases tupleSearch_cases hl tuple with ⟨p', idx, hsearch, -, hkey⟩ | ⟨idx, hsearch, -⟩
      · rw [hsearch] at hfound
        cases hfound
        exact hkey
      · rw [hsearch] at hfound
        cases hfound
    · exact Or.inl hu
  · obtain ⟨live₁, free₁, top₁, hl₁⟩ := hs₁
    rw [missStore_eq hl₁ hlt] at hu
    rcases HasLayout.mem_liveTuples_insertedStore ⟨live₁, free₁, top₁, hl₁⟩ hlt
      (t := missTuple cmd tuple) (u := u) hu with rfl | hu
    · exact Or.inr (Or.inr rfl)
    · exact Or.inl (hsub hu)

/-- The live tuples after a line of the whitelist file, if it is loaded. -/
theorem mem_liveTuples_line (h : HasLayout cfg s) {tuple : Tuple} {now clock : ℤ}
    (hok : whitelistLoadTuple cfg s tuple now clock = .ok s') {u : Tuple}
    (hu : u ∈ s'.liveTuples) :
    (∃ t ∈ s.liveTuples, u = t ∨ u = t.touch now) ∨
      u.key = tuple.key ∧ u.whitelisted = true := by
  obtain ⟨live, free, top, hl⟩ := h
  rcases whitelistLoadTuple_inv hl hok with
    ⟨p, hp, hfound, rfl⟩ | ⟨idx, s₁, ⟨-, -, hs₁, hlt, hsub⟩, rfl⟩
  · have hlt := HasLayout.lt_of_mem_live ⟨live, free, top, hl⟩ hp
    have htouch : (s.countRead.write p ((s.deref p).touch now)).deref p =
        (s.deref p).touch now := TupleSpace.deref_write_self _ hlt
    have hkey : (s.deref p).key = tuple.key := by
      rcases tupleSearch_cases hl tuple with ⟨p', idx, hsearch, -, hkey⟩ | ⟨idx, hsearch, -⟩
      · rw [hsearch] at hfound
        cases hfound
        exact hkey
      · rw [hsearch] at hfound
        cases hfound
    have hold : ∀ u ∈ (s.countRead.write p ((s.deref p).touch now)).liveTuples,
        ∃ t ∈ s.liveTuples, u = t ∨ u = t.touch now := by
      intro u hu
      rcases mem_liveTuples_write (s := s.countRead) hu with rfl | hu
      · exact ⟨s.deref p, List.mem_map_of_mem hp, Or.inr rfl⟩
      · exact ⟨u, hu, Or.inl rfl⟩
    rw [confirm] at hu
    split_ifs at hu
    · exact Or.inl (hold u hu)
    · rcases mem_liveTuples_write hu with rfl | hu
      · rw [htouch]
        exact Or.inr ⟨hkey, by simp⟩
      · exact Or.inl (hold u hu)
  · rcases hs₁.mem_liveTuples_insertedStore hlt (t := tuple.setFlag fWhitelist) (u := u) hu with
      rfl | hu
    · exact Or.inr ⟨rfl, by simp⟩
    · exact Or.inl ⟨u, hsub hu, Or.inl rfl⟩

/-- The live tuples after a removal. -/
theorem mem_liveTuples_remove (h : HasLayout cfg s) (tuple : Tuple) {u : Tuple}
    (hu : u ∈ (tupleRemove s tuple).liveTuples) :
    ∃ t ∈ s.liveTuples, u = t ∨ u = t.setFlag fRemove := by
  obtain ⟨live, free, top, hl⟩ := h
  rcases tupleSearch_cases hl tuple with ⟨p, idx, hsearch, hp, -⟩ | ⟨idx, hsearch, -⟩
  · rw [tupleRemove, hsearch] at hu
    rcases mem_liveTuples_write (s := s.countRead) hu with rfl | hu
    · exact ⟨s.deref p, List.mem_map_of_mem hp, Or.inr rfl⟩
    · exact ⟨u, hu, Or.inl rfl⟩
  · rw [tupleRemove, hsearch] at hu
    exact ⟨u, hu, Or.inl rfl⟩

/-- A request is let through by a tuple that passes, or because it asks for that. -/
theorem exists_passes (h : HasLayout cfg s) {tuple : Tuple} {cmd : Cmd} {now clock : ℤ}
    (hok : typeGreylistCheckTuple cfg s tuple cmd now clock = .ok (passReply, s')) :
    (∃ t ∈ s.liveTuples, t.key = tuple.key ∧ passes cfg cmd now t = true) ∨
      cmd = .whitelist := by
  obtain ⟨live, free, top, hl⟩ := h
  have hne : waitReply ≠ passReply := by decide
  rcases tupleSearch_cases hl tuple with ⟨p, idx, hsearch, hp, hkey⟩ | ⟨idx, hsearch, -⟩
  · rw [typeGreylistCheckTuple_hit hsearch (hl.lt_length_pool (hl.live_eq ▸ hp))] at hok
    refine Or.inl ⟨s.deref p, List.mem_map_of_mem hp, hkey, ?_⟩
    by_contra hnot
    rw [if_neg hnot] at hok
    exact hne (Prod.mk.inj (Except.ok.inj hok)).1
  · refine Or.inr ?_
    by_contra hnot
    rw [typeGreylistCheckTuple, hsearch] at hok
    obtain ⟨⟨p, s₁⟩, -, hok⟩ := bind_eq_ok.mp hok
    obtain ⟨s₂, -, hok⟩ := bind_eq_ok.mp hok
    rw [if_neg hnot] at hok
    exact hne (Prod.mk.inj (Except.ok.inj hok)).1

end Operations

/-! ### Steps and runs -/

section Steps

variable {cgi : CgiLib} {cfg : Config} {srv srv' : Server} {past : List Action}

theorem whitelisted_hitTuple (cfg : Config) (cmd : Cmd) (now : ℤ) (t : Tuple) :
    (hitTuple cfg cmd now t).whitelisted = passes cfg cmd now t :=
  congrArg Entry.whitelisted (Represents.entry_hitTuple cfg cmd now t)

theorem ctime_hitTuple (cfg : Config) (cmd : Cmd) (now : ℤ) (t : Tuple) :
    (hitTuple cfg cmd now t).ctime = t.ctime := by
  rw [hitTuple]
  split_ifs <;> rfl

/-- A tuple that passes is vouched for once the request is one of the past. -/
theorem Earned.vouched_of_passes {t : Tuple} (h : Earned cgi cfg past t) {a : Action}
    {whitelist : Bool} {now : ℤ} (ha : a.AsksFor cfg t.key now)
    (hwhite : whitelist = true → a.Whitelists cgi cfg t.key)
    (hpass : passes cfg (checkCmd whitelist) now t = true) :
    Vouched cgi cfg (past ++ [a]) t.key := by
  cases hmark : t.whitelisted with
  | true => exact (h.vouched hmark).append [a]
  | false =>
      cases whitelist with
      | true => exact Or.inl ⟨a, by simp, hwhite rfl⟩
      | false =>
          obtain ⟨a₀, ha₀, hasks⟩ := h.asked hmark
          have hembargo : ¬ difftime now t.ctime < cfg.timeoutEmbargo := by
            simpa [passes, hmark, checkCmd] using hpass
          exact Or.inr (retried_of_asked ha ha₀ hasks (not_lt.mp hembargo))

/-- **A request for a verdict** leaves live tuples that are accounted for. -/
theorem check_earned {s s' : TupleSpace} (h : HasLayout cfg s)
    (hearned : ∀ t ∈ s.liveTuples, Earned cgi cfg past t) {req : Request} (hacc : req.Accepts)
    {whitelist canReport : Bool} {r : ℤ × Reason}
    (hok : typeGreylistCheckTuple cfg s (req.tuple cfg) (checkCmd whitelist) req.now req.clock =
      .ok (r, s')) :
    ∀ u ∈ s'.liveTuples,
      Earned cgi cfg (past ++ [.request req canReport (some (checkCmd whitelist))]) u := by
  intro u hu
  have hasks : (Action.request req canReport (some (checkCmd whitelist))).AsksFor cfg
      (req.tuple cfg).key req.now := ⟨⟨whitelist, rfl⟩, hacc, rfl, rfl⟩
  have hwhite : whitelist = true →
      (Action.request req canReport (some (checkCmd whitelist))).Whitelists cgi cfg
        (req.tuple cfg).key := fun h => ⟨by rw [h]; rfl, hacc, rfl⟩
  rcases mem_liveTuples_check h hok hu with hu | ⟨t, ht, hkey, rfl⟩ | rfl
  · exact (hearned u hu).append _
  · have ht := hearned t ht
    rw [← hkey] at hasks hwhite
    cases hpass : passes cfg (checkCmd whitelist) req.now t with
    | true =>
        refine earned_of_vouched ((whitelisted_hitTuple ..).trans hpass) ?_
        rw [key_hitTuple]
        exact ht.vouched_of_passes hasks hwhite hpass
    | false =>
        refine (ht.append _).congr (key_hitTuple ..) (ctime_hitTuple ..) ?_
        rw [whitelisted_hitTuple, hpass]
        cases hmark : t.whitelisted with
        | true => simp [passes, hmark] at hpass
        | false => rfl
  · have hfresh := freshTuple_requestTuple cfg req
    cases whitelist with
    | true =>
        refine earned_of_vouched (by simp [missTuple, checkCmd]) ?_
        rw [key_missTuple]
        exact Or.inl ⟨_, List.mem_append_right _ List.mem_cons_self, hwhite rfl⟩
    | false =>
        refine ⟨fun _ => ⟨_, List.mem_append_right _ List.mem_cons_self, ?_⟩, ?_⟩
        · exact hasks
        · intro hmark
          rw [show missTuple (checkCmd false) (req.tuple cfg) = req.tuple cfg from rfl,
            hfresh.whitelisted] at hmark
          cases hmark

/-- **The loading of a whitelist file** leaves live tuples that are accounted for. -/
theorem lines_earned {now : ℤ} {lines : List WhiteLine} {s s' : TupleSpace}
    (h : HasLayout cfg s) (hearned : ∀ t ∈ s.liveTuples, Earned cgi cfg past t)
    (hok : lines.foldlM (whitelistLoadLine cgi cfg now) s = .ok s') :
    ∀ t ∈ s'.liveTuples, Earned cgi cfg (past ++ [.whitelistLoad now lines]) t := by
  have hline : ∀ s, ∀ line ∈ lines, (HasLayout cfg s ∧ ∀ t ∈ s.liveTuples,
      Earned cgi cfg (past ++ [.whitelistLoad now lines]) t) →
      Ensures (whitelistLoadLine cgi cfg now s line) fun s => HasLayout cfg s ∧
        ∀ t ∈ s.liveTuples, Earned cgi cfg (past ++ [.whitelistLoad now lines]) t := by
    rintro s line hmem ⟨hs, hearned⟩
    refine (ensures_self _).mono fun s' hs' => ⟨hs.line hs', ?_⟩
    rcases whitelistLoadLine_inv hs' with rfl | ⟨tuple, htuple, hload⟩
    · exact hearned
    · intro u hu
      rcases mem_liveTuples_line hs hload hu with ⟨t, ht, rfl | rfl⟩ | ⟨hkey, hwhite⟩
      · exact hearned u ht
      · exact (hearned t ht).congr rfl rfl rfl
      · exact earned_of_vouched hwhite (Or.inl ⟨_, List.mem_append_right _ List.mem_cons_self,
          line, hmem, tuple, htuple, hkey.symm⟩)
  have hstart : ∀ t ∈ s.liveTuples, Earned cgi cfg (past ++ [.whitelistLoad now lines]) t :=
    fun t ht => (hearned t ht).append _
  exact ((guarantees_foldlM hline ⟨h, hstart⟩).ok s' hok).2

/-- **One step** of the server leaves live tuples that are accounted for. -/
theorem actionStep_earned (h : HasLayout cfg srv.store)
    (hearned : ∀ t ∈ srv.store.liveTuples, Earned cgi cfg past t) {a : Action}
    {out : List Output} (hok : actionStep cgi cfg srv a = .ok (srv', out)) :
    ∀ t ∈ srv'.store.liveTuples, Earned cgi cfg (past ++ [a]) t := by
  have hsame : ∀ t ∈ srv.store.liveTuples, Earned cgi cfg (past ++ [a]) t :=
    fun t ht => (hearned t ht).append _
  have hstep := actionStep_inv hok
  cases hstep with
  | iplistRead => exact hsame
  | whitelistLoad now lines s hlines =>
      have hloaded : ∀ t ∈ s.liveTuples, Earned cgi cfg (past ++ [.whitelistLoad now lines]) t :=
        lines_earned h hearned hlines
      exact hloaded
  | tofromRead name =>
      rw [store_setList]
      exact hsame
  | request req canReport type srv' out req' hdispatch =>
      have hstep := dispatch_store hdispatch
      generalize srv'.store = s' at hstep ⊢
      cases hstep with
      | same => exact hsame
      | check whitelist r s' hacc hcheck => exact check_earned h hearned hacc hcheck
      | remove hacc =>
          intro u hu
          obtain ⟨t, ht, rfl | rfl⟩ := mem_liveTuples_remove h _ hu
          · exact hsame u ht
          · exact (hsame t ht).congr rfl rfl (Tuple.whitelisted_setFlag_remove t)
  | sweep a now _ srv' s hspace hnum hpool hexpire =>
      rw [← TupleSpace.liveTuples_congr hspace hnum hpool] at hsame
      exact Lasting.expire (h.congr hpool hspace hnum) hsame hexpire

/-- **A run** from startup on, as far as it gets. -/
theorem run_earned {starttime : ℤ} {actions : List Action} {outs : List (List Output)}
    (hrun : run (actionStep cgi cfg) (Server.init cfg starttime) actions = .ok (srv, outs)) :
    ∀ t ∈ srv.store.liveTuples, Earned cgi cfg actions t := by
  have hstep : ∀ past srv a srv' out,
      (HasLayout cfg (Server.store srv) ∧ ∀ t ∈ srv.store.liveTuples, Earned cgi cfg past t) →
      actionStep cgi cfg srv a = .ok (srv', out) →
      HasLayout cfg srv'.store ∧ ∀ t ∈ srv'.store.liveTuples, Earned cgi cfg (past ++ [a]) t :=
    fun _ _ _ _ _ h hok => ⟨actionStep_hasLayout h.1 hok, actionStep_earned h.1 h.2 hok⟩
  have hinit : ∀ t ∈ (Server.init cfg starttime).store.liveTuples, Earned cgi cfg [] t :=
    fun t ht => absurd ht List.not_mem_nil
  have h : HasLayout cfg srv.store ∧
      ∀ t ∈ srv.store.liveTuples, Earned cgi cfg ([] ++ actions) t :=
    run_history hstep ⟨hasLayout_init cfg, hinit⟩ hrun
  exact h.2

end Steps

/-- **No mail passes unearned.** In any run of the server from startup on, a request that is
let through by its tuple is vouched for by the run up to it: its tuple was whitelisted, or was
asked for and asked for again once the embargo was over. -/
theorem run_vouched (cgi : CgiLib) (cfg : Config) (starttime : ℤ) (past : List Action)
    (srv srv' : Server) (outs : List (List Output))
    (hrun : run (actionStep cgi cfg) (Server.init cfg starttime) past = .ok (srv, outs))
    (req : Request) (canReport : Bool)
    (hpass : actionStep cgi cfg srv (.request req canReport (some .greylist)) =
      .ok (srv', [req.reply .greylistResp Ift.accept .whitelist])) :
    Vouched cgi cfg (past ++ [.request req canReport (some .greylist)]) (req.tuple cfg).key := by
  obtain ⟨⟨out, srv₁, req'⟩, hdispatch, hok⟩ := bind_eq_ok.mp hpass
  change typeGreylist cfg srv req .greylist .greylistResp = _ at hdispatch
  have hacc : req.Accepts := by
    by_contra hacc
    rw [typeGreylist_of_not_accepts cfg srv hacc] at hdispatch
    cases hdispatch
    cases hok
  obtain ⟨-, -, rc, why, rfl, hcase⟩ := typeGreylist_inv hacc hdispatch
  cases hok
  rcases hcase with ⟨-, -, hwhy⟩ | hcheck
  · exact absurd rfl hwhy
  · rcases exists_passes (run_hasLayout hrun) hcheck with ⟨t, ht, hkey, hpasses⟩ | hcmd
    · rw [← hkey]
      exact Earned.vouched_of_passes (run_earned hrun t ht)
        (show (Action.request req canReport (some (checkCmd false))).AsksFor cfg t.key req.now
          from ⟨⟨false, rfl⟩, hacc, hkey.symm, rfl⟩)
        (fun h => absurd h Bool.false_ne_true) hpasses
    · cases hcmd

/-- A sender comes back half an hour later. -/
theorem run_vouched_letters :
    Vouched plainCgi smallConfig
      ([.request (letterRequest 97 98 0) false (some .greylist)] ++
        [.request (letterRequest 97 98 2000) false (some .greylist)])
      ((letterRequest 97 98 2000).tuple smallConfig).key := by
  obtain ⟨⟨srv, outs⟩, hrun, htest⟩ := exists_of_okAnd
    (run (actionStep plainCgi smallConfig) (Server.init smallConfig 0)
      [.request (letterRequest 97 98 0) false (some .greylist)])
    (fun r => okAnd (actionStep plainCgi smallConfig r.1
      (.request (letterRequest 97 98 2000) false (some .greylist))) fun r' =>
        decide (r'.2 = [(letterRequest 97 98 2000).reply .greylistResp Ift.accept
          .whitelist])) (by decide +kernel)
  obtain ⟨⟨srv', out⟩, hpass, hout⟩ := exists_of_okAnd _ _ htest
  cases of_decide_eq_true hout
  exact run_vouched plainCgi smallConfig 0 _ srv srv' outs hrun _ false hpass

end XGrey
