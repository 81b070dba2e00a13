import XGrey.StoreSafety
import XGrey.Whitelisting

/-!
# A Sender That Comes Back

The other half of what a greylist is for: a sender that was made to wait is let through when it
comes back after the embargo, and its tuple stays whitelisted from then on. In between the
server may do anything that leaves the tuple in the store: it does not remove it on request,
and no sweep comes after the tuple has been idle for too long (`Awaits`).

## Main results

* `actionStep_waiting`: such a step keeps the tuple waiting.
* `run_retry`: the request after the embargo is let through, and the tuple stays whitelisted.
-/

open CRuntime StepRun

namespace XGrey

/-! ### On the greylist -/

namespace Greylist

variable {K : Type*} {cfg : Config} {g : Greylist K} {k : K} {t₀ : ℤ}

/-- A key has been known since some time, and is not marked for removal. -/
def Waits (g : Greylist K) (k : K) (t₀ : ℤ) : Prop :=
  ∃ e, g.lookup k = some e ∧ e.ctime ≤ t₀ ∧ e.removed = false

/-- A sweep in time leaves a key waiting. -/
theorem Waits.sweep (h : g.Waits k t₀) {tao : ℤ}
    (htime : ∀ e, g.lookup k = some e →
      difftime tao e.atime ≤ if e.whitelisted then cfg.timeoutWhite else cfg.timeoutGrey) :
    (g.sweep cfg tao).Waits k t₀ := by
  obtain ⟨e, he, hctime, hmark⟩ := h
  refine ⟨e, ?_, hctime, hmark⟩
  change (g.lookup k).filter _ = some e
  rw [Option.filter_eq_some_iff]
  exact ⟨he, by simp [keeps, hmark, htime e he]⟩

variable [DecidableEq K]

/-- So does a request for any key. -/
theorem Waits.request (h : g.Waits k t₀) (cfg : Config) (whitelist : Bool) (k' : K) (now : ℤ) :
    (g.request cfg whitelist k' now).2.Waits k t₀ := by
  obtain ⟨e, he, hctime, hmark⟩ := h
  rw [Greylist.request]
  by_cases hk : k = k'
  · subst hk
    rw [he]
    exact ⟨_, lookup_set_self _ _ _, hctime, hmark⟩
  · cases hk' : g.lookup k' with
    | none => exact ⟨e, (lookup_set_ne g _ hk).trans he, hctime, hmark⟩
    | some e' => exact ⟨e, (lookup_set_ne g _ hk).trans he, hctime, hmark⟩

/-- So does a removal of another key. -/
theorem Waits.remove (h : g.Waits k t₀) {k' : K} (hk : k' ≠ k) : (g.remove k').Waits k t₀ := by
  obtain ⟨e, he, hctime, hmark⟩ := h
  rw [Greylist.remove]
  cases hk' : g.lookup k' with
  | none => exact ⟨e, he, hctime, hmark⟩
  | some e' => exact ⟨e, (lookup_set_ne g _ hk.symm).trans he, hctime, hmark⟩

/-- A request for a key that is not marked, and not younger than the request, makes it wait. -/
theorem waits_request (cfg : Config) (whitelist : Bool) {now : ℤ}
    (h : ∀ e, g.lookup k = some e → e.ctime ≤ now ∧ e.removed = false) :
    (g.request cfg whitelist k now).2.Waits k now := by
  rw [Greylist.request]
  cases hk : g.lookup k with
  | none => exact ⟨_, lookup_set_self _ _ _, le_refl _, rfl⟩
  | some e =>
      obtain ⟨hctime, hmark⟩ := h e hk
      exact ⟨_, lookup_set_self _ _ _, hctime, hmark⟩

/-- **A key that has waited** for the embargo is let through and confirmed. -/
theorem Waits.passes (h : g.Waits k t₀) {now : ℤ}
    (hembargo : cfg.timeoutEmbargo ≤ difftime now t₀) (whitelist : Bool) :
    (g.request cfg whitelist k now).1 = passReply ∧
      (g.request cfg whitelist k now).2.Confirmed k := by
  obtain ⟨e, he, hctime, hmark⟩ := h
  have hlets : lets cfg whitelist now e = true := by
    have hlonger : difftime now t₀ ≤ difftime now e.ctime := by
      rw [difftime, difftime]
      exact_mod_cast sub_le_sub_left hctime now
    simp [lets, hembargo.trans hlonger]
  rw [Greylist.request, he]
  dsimp only
  rw [hlets]
  exact ⟨rfl, _, lookup_set_self _ _ _, rfl, hmark⟩

end Greylist

/-! ### On the store -/

/-- A tuple is stored since some time, and is not marked for removal. -/
def WaitingTuple (s : TupleSpace) (k : Key) (t₀ : ℤ) : Prop :=
  ∃ t ∈ s.liveTuples, t.key = k ∧ t.ctime ≤ t₀ ∧ t.removed = false

theorem Represents.waits_iff {s : TupleSpace} {g : Greylist Key} (h : Represents s g) (k : Key)
    (t₀ : ℤ) : g.Waits k t₀ ↔ WaitingTuple s k t₀ := by
  constructor
  · rintro ⟨e, he, hctime, hmark⟩
    obtain ⟨t, ht, hk, rfl⟩ := (h k e).mp he
    exact ⟨t, ht, hk, hctime, hmark⟩
  · rintro ⟨t, ht, hk, hctime, hmark⟩
    exact ⟨t.entry, (h k _).mpr ⟨t, ht, hk, rfl⟩, hctime, hmark⟩

/-- A sweep would come in time for a tuple, whether it is whitelisted or not. -/
def SweepInTime (cfg : Config) (s : TupleSpace) (k : Key) (tao : ℤ) : Prop :=
  ∀ t ∈ s.liveTuples, t.key = k →
    difftime tao t.atime ≤ if t.whitelisted then cfg.timeoutWhite else cfg.timeoutGrey

section Steps

variable {cfg : Config} {s s' : TupleSpace} {k : Key} {t₀ : ℤ}

/-- A request that does not remove the tuple keeps it waiting. -/
theorem StoreStep.waiting {req : Request} {type : Option Cmd}
    (hstep : StoreStep cfg s req type s') (h : Unfilled cfg s)
    (hroom : s.poolnum < cfg.poolmax)
    (hk : type = some .tupleRemove → req.Accepts → (req.tuple cfg).key ≠ k)
    (hw : WaitingTuple s k t₀) : WaitingTuple s' k t₀ := by
  obtain ⟨top, htop, hok⟩ := h.top_lt hroom
  have hg := (hok.represents.waits_iff k t₀).mpr hw
  cases hstep with
  | same => exact hw
  | check whitelist r s' hacc hcheck =>
      obtain ⟨s₁, top', hcheck', hrep, -, -⟩ := hok.represents.typeGreylistCheckTuple hok
        hroom (freshTuple_requestTuple cfg req) (checkCmd whitelist) req.clock
      rw [hcheck'] at hcheck
      cases hcheck
      exact (hrep.waits_iff k t₀).mp (hg.request cfg _ _ _)
  | remove hacc =>
      obtain ⟨hrep, -, -⟩ := hok.represents.tupleRemove hok (req.tuple cfg)
      exact (hrep.waits_iff k t₀).mp (hg.remove (hk rfl hacc))

/-- A sweep in time does so too. -/
theorem Unfilled.expire_waiting (h : Unfilled cfg s) (hroom : s.poolnum < cfg.poolmax) {tao : ℤ}
    (htime : SweepInTime cfg s k tao) (hw : WaitingTuple s k t₀)
    (hok : tupleExpire cfg s tao = .ok s') : WaitingTuple s' k t₀ := by
  obtain ⟨top, htop, hs⟩ := h.top_lt hroom
  have hrep₀ := hs.represents
  obtain ⟨s₁, hexpire, hrep, -⟩ := hrep₀.tupleExpire hs htop tao
  rw [hexpire] at hok
  cases hok
  refine (hrep.waits_iff k t₀).mp (((hrep₀.waits_iff k t₀).mpr hw).sweep fun e he => ?_)
  obtain ⟨t, ht, hk, rfl⟩ := (hrep₀ k e).mp he
  exact htime t ht hk

end Steps

/-! ### Runs -/

/-- A step of the running server that finds room in the pool, does not remove a tuple, and
comes in time for it if it is a sweep. -/
def Awaits (cfg : Config) (k : Key) (srv : Server) : Action → Prop
  | .request req _ type => srv.store.poolnum < cfg.poolmax ∧
      (type = some .tupleRemove → req.Accepts → (req.tuple cfg).key ≠ k)
  | .sigalrm now => srv.store.poolnum < cfg.poolmax ∧ SweepInTime cfg srv.store k now
  | .sigusr2 now => srv.store.poolnum < cfg.poolmax ∧ SweepInTime cfg srv.store k now
  | .iplistRead .. => False
  | .whitelistLoad .. => False
  | .tofromRead .. => False

section Runs

variable {cgi : CgiLib} {cfg : Config} {srv srv' : Server} {k : Key} {t₀ : ℤ}

/-- **One step** that leaves the tuple in the store. -/
theorem actionStep_waiting (h : Unfilled cfg srv.store) (hw : WaitingTuple srv.store k t₀)
    {a : Action} {out : List Output} (hawaits : Awaits cfg k srv a)
    (hok : actionStep cgi cfg srv a = .ok (srv', out)) :
    Unfilled cfg srv'.store ∧ WaitingTuple srv'.store k t₀ := by
  have hstep := actionStep_inv hok
  cases hstep with
  | iplistRead => exact hawaits.elim
  | whitelistLoad => exact hawaits.elim
  | tofromRead => exact hawaits.elim
  | request req canReport type srv' out req' hdispatch =>
      obtain ⟨hroom, hk⟩ := hawaits
      have hstep := dispatch_store hdispatch
      exact ⟨hstep.unfilled h hroom, hstep.waiting h hroom hk hw⟩
  | sweep a now ha srv' s hspace hnum hpool hexpire =>
      have hawaits' : srv.store.poolnum < cfg.poolmax ∧ SweepInTime cfg srv.store k now := by
        rcases ha with rfl | rfl <;> exact hawaits
      obtain ⟨hroom, htime⟩ := hawaits'
      have hlive := TupleSpace.liveTuples_congr hspace hnum hpool
      rw [WaitingTuple, ← hlive] at hw
      rw [SweepInTime, ← hlive] at htime
      rw [← hnum] at hroom
      have hs := h.congr hpool hspace hnum
      obtain ⟨s', hexpire', hs', -⟩ := hs.expire hroom now
      have hw' := hs.expire_waiting hroom htime hw hexpire
      rw [hexpire'] at hexpire
      cases hexpire
      exact ⟨hs', hw'⟩

/-- A request for a verdict that is answered by the tuples has got to them. -/
theorem check_of_answered {req : Request} {canReport : Bool} {rc : ℤ} {why : Reason}
    (hwhy : why = .greylist ∨ why = .whitelist)
    (hok : actionStep cgi cfg srv (.request req canReport (some .greylist)) =
      .ok (srv', [req.reply .greylistResp rc why])) :
    req.Accepts ∧ typeGreylistCheckTuple cfg srv.store (req.tuple cfg) .greylist req.now
      req.clock = .ok ((rc, why), srv'.store) := by
  obtain ⟨⟨out, srv₁, req'⟩, hdispatch, hok⟩ := bind_eq_ok.mp hok
  change typeGreylist cfg srv req .greylist .greylistResp = _ at hdispatch
  have hacc : req.Accepts := by
    by_contra hacc
    rw [typeGreylist_of_not_accepts cfg srv hacc] at hdispatch
    cases hdispatch
    cases hok
  obtain ⟨-, -, rc', why', rfl, hcase⟩ := typeGreylist_inv hacc hdispatch
  cases hok
  rcases hcase with ⟨-, hgrey, hwhite⟩ | hcheck
  · rcases hwhy with rfl | rfl
    · exact absurd rfl hgrey
    · exact absurd rfl hwhite
  · exact ⟨hacc, hcheck⟩

end Runs

/-- **A sender that comes back is let through.** In a run in which the pool is never full, a
request is made to wait by its tuple, which is not marked for removal and not younger than the
request. Whatever the server does then, as long as the tuple is left in the store, the next
request for it that the filter leaves to the tuples and that comes after the embargo is
accepted, and the tuple stays whitelisted from then on. -/
theorem run_retry (cgi : CgiLib) (cfg : Config) (starttime : ℤ) (before : List Action)
    (srv : Server) (outs : List (List Output))
    (hal : Along (actionStep cgi cfg) (Roomy cgi cfg) (Server.init cfg starttime) before)
    (hrun : run (actionStep cgi cfg) (Server.init cfg starttime) before = .ok (srv, outs))
    (hroom : srv.store.poolnum < cfg.poolmax) (first : Request) (canReport : Bool)
    (hclock : ∀ t ∈ srv.store.liveTuples, t.key = (first.tuple cfg).key →
      t.ctime ≤ first.now ∧ t.removed = false)
    (srv₁ : Server)
    (hwait : actionStep cgi cfg srv (.request first canReport (some .greylist)) =
      .ok (srv₁, [first.reply .greylistResp Ift.greylist .greylist]))
    (between : List Action) (srv₂ : Server) (outs' : List (List Output))
    (hawaits : Along (actionStep cgi cfg) (Awaits cfg (first.tuple cfg).key) srv₁ between)
    (hbetween : run (actionStep cgi cfg) srv₁ between = .ok (srv₂, outs'))
    (hroom' : srv₂.store.poolnum < cfg.poolmax) (again : Request) (canReport' : Bool)
    (hkey : (again.tuple cfg).key = (first.tuple cfg).key)
    (hembargo : cfg.timeoutEmbargo ≤ difftime again.now first.now)
    (srv₃ : Server) (rc : ℤ) (why : Reason) (hwhy : why = .greylist ∨ why = .whitelist)
    (hagain : actionStep cgi cfg srv₂ (.request again canReport' (some .greylist)) =
      .ok (srv₃, [again.reply .greylistResp rc why])) :
    rc = Ift.accept ∧ why = .whitelist ∧ StaysWhitelisted cgi cfg srv₃ (again.tuple cfg).key := by
  obtain ⟨hacc, hcheck⟩ := check_of_answered (Or.inl rfl) hwait
  have h := run_unfilled hal hrun
  have h₁ : Unfilled cfg srv₁.store := (StoreStep.check false _ _ hacc hcheck).unfilled h hroom
  -- the tuple waits once the first request was answered
  have hw₁ : WaitingTuple srv₁.store (first.tuple cfg).key first.now := by
    obtain ⟨top, -, hok⟩ := h.top_lt hroom
    obtain ⟨s₁, top', hcheck', hrep, -, -⟩ := hok.represents.typeGreylistCheckTuple hok hroom
      (freshTuple_requestTuple cfg first) .greylist first.clock
    rw [hcheck] at hcheck'
    obtain ⟨-, hstore⟩ := Prod.mk.inj (Except.ok.inj hcheck')
    rw [← hstore] at hrep
    refine (hrep.waits_iff _ _).mp (Greylist.waits_request cfg _ fun e he => ?_)
    obtain ⟨t, ht, hk, rfl⟩ := (hok.represents _ e).mp he
    exact hclock t ht hk
  have hstep : ∀ srv a srv' out,
      Unfilled cfg (Server.store srv) ∧ WaitingTuple srv.store (first.tuple cfg).key first.now →
      Awaits cfg (first.tuple cfg).key srv a → actionStep cgi cfg srv a = .ok (srv', out) →
        Unfilled cfg srv'.store ∧ WaitingTuple srv'.store (first.tuple cfg).key first.now :=
    fun _ _ _ _ h hawaits hok => actionStep_waiting h.1 h.2 hawaits hok
  obtain ⟨h₂, hw₂⟩ := run_invariant hstep ⟨h₁, hw₁⟩ hawaits hbetween
  -- and is let through by the second one
  obtain ⟨hacc', hcheck₃⟩ := check_of_answered hwhy hagain
  obtain ⟨top, -, hok⟩ := h₂.top_lt hroom'
  obtain ⟨s₁, top', hcheck', hrep, -, -⟩ := hok.represents.typeGreylistCheckTuple hok hroom'
    (freshTuple_requestTuple cfg again) .greylist again.clock
  rw [hcheck₃] at hcheck'
  obtain ⟨hreply, hstore⟩ := Prod.mk.inj (Except.ok.inj hcheck')
  rw [← hkey] at hw₂
  obtain ⟨hpass, hconfirmed⟩ :=
    ((hok.represents.waits_iff _ _).mpr hw₂).passes hembargo (decide (Cmd.greylist = .whitelist))
  rw [← hstore] at hrep
  obtain ⟨rfl, rfl⟩ := Prod.mk.inj (hreply.trans hpass)
  refine ⟨rfl, rfl, staysWhitelisted_of_confirmed ?_ ((hrep.confirmed_iff _).mp hconfirmed)⟩
  exact (StoreStep.check false _ _ hacc' hcheck₃).unfilled h₂ hroom'

/-- A sweep comes between the two requests. -/
theorem run_retry_letters :
    ∃ srv₃, StaysWhitelisted plainCgi smallConfig srv₃
      ((letterRequest 97 98 2000).tuple smallConfig).key := by
  obtain ⟨⟨srv₁, out₁⟩, hwait, htest⟩ := exists_of_okAnd
    (actionStep plainCgi smallConfig (Server.init smallConfig 0)
      (.request (letterRequest 97 98 0) false (some .greylist)))
    (fun r => decide (r.2 = [(letterRequest 97 98 0).reply .greylistResp Ift.greylist
        .greylist] ∧ r.1.store.poolnum < smallConfig.poolmax ∧
        ∀ t ∈ r.1.store.liveTuples, difftime 100 t.atime ≤
          if t.whitelisted then smallConfig.timeoutWhite else smallConfig.timeoutGrey) &&
      okAnd (run (actionStep plainCgi smallConfig) r.1 [.sigalrm 100]) fun r =>
        decide (r.1.store.poolnum < smallConfig.poolmax) &&
        okAnd (actionStep plainCgi smallConfig r.1
          (.request (letterRequest 97 98 2000) false (some .greylist))) fun r' =>
            decide (r'.2 = [(letterRequest 97 98 2000).reply .greylistResp Ift.accept
              .whitelist])) (by decide +kernel)
  obtain ⟨hstate, htest⟩ := (Bool.and_eq_true _ _).mp htest
  obtain ⟨hout₁, hroom₁, htime⟩ := of_decide_eq_true hstate
  obtain ⟨⟨srv₂, outs⟩, hbetween, htest⟩ := exists_of_okAnd _ _ htest
  obtain ⟨hroom₂, htest⟩ := (Bool.and_eq_true _ _).mp htest
  obtain ⟨⟨srv₃, out₃⟩, hagain, hout₃⟩ := exists_of_okAnd _ _ htest
  cases hout₁
  cases of_decide_eq_true hout₃
  refine ⟨srv₃, (run_retry plainCgi smallConfig 0 [] _ [] trivial rfl (Nat.succ_pos 2)
    (letterRequest 97 98 0) false (fun t ht => absurd ht List.not_mem_nil) srv₁ hwait
    [.sigalrm 100] srv₂ outs ⟨⟨hroom₁, fun t ht _ => htime t ht⟩, fun _ _ _ => trivial⟩
    hbetween (of_decide_eq_true hroom₂) (letterRequest 97 98 2000) false (by decide)
    (by decide +kernel) srv₃ _ _ (Or.inr rfl) hagain).2.2⟩

end XGrey
