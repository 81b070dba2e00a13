import XGrey.Greylist
import XGrey.PoolSlots

/-!
# Keeping a Whitelisting

What becomes of a tuple that was whitelisted by a request, in the runs in which the pool is
never full. A removal only marks its tuple, and the next sweep drops what is marked. A
request to whitelist the tuple in between is acknowledged, but takes nothing back from the
mark.

## Main results

* `run_unfilled`: as long as the pool is not full, the store stays in order and no sweep
  fails.
* `staysWhitelisted_iff`: an acknowledged whitelisting lasts exactly when the tuple was not
  marked for removal at the time.
-/

open CRuntime StepRun

namespace XGrey

/-! ### On the greylist -/

namespace Greylist

variable {K : Type*} [DecidableEq K] {cfg : Config} {g : Greylist K} {k : K}

/-- A key is whitelisted and not marked for removal. -/
def Confirmed (g : Greylist K) (k : K) : Prop :=
  ∃ e, g.lookup k = some e ∧ e.whitelisted = true ∧ e.removed = false

/-- A request leaves the marks as they are and takes no whitelisting back. -/
theorem Confirmed.request (h : g.Confirmed k) (cfg : Config) (whitelist : Bool) (k' : K)
    (now : ℤ) : (g.request cfg whitelist k' now).2.Confirmed k := by
  obtain ⟨e, he, hwhite, hmark⟩ := h
  rw [Greylist.request]
  by_cases hk : k = k'
  · subst hk
    rw [he]
    exact ⟨_, lookup_set_self _ _ _, by simp [lets, hwhite], hmark⟩
  · cases hk' : g.lookup k' with
    | none => exact ⟨e, (lookup_set_ne g _ hk).trans he, hwhite, hmark⟩
    | some e' => exact ⟨e, (lookup_set_ne g _ hk).trans he, hwhite, hmark⟩

/-- A removal concerns its own key. -/
theorem Confirmed.remove (h : g.Confirmed k) {k' : K} (hk : k' ≠ k) :
    (g.remove k').Confirmed k := by
  obtain ⟨e, he, hwhite, hmark⟩ := h
  rw [Greylist.remove]
  cases hk' : g.lookup k' with
  | none => exact ⟨e, he, hwhite, hmark⟩
  | some e' => exact ⟨e, (lookup_set_ne g _ hk.symm).trans he, hwhite, hmark⟩

omit [DecidableEq K] in
/-- A sweep in time keeps it. -/
theorem Confirmed.sweep (h : g.Confirmed k) {tao : ℤ}
    (htime : ∀ e, g.lookup k = some e → difftime tao e.atime ≤ cfg.timeoutWhite) :
    (g.sweep cfg tao).Confirmed k := by
  obtain ⟨e, he, hwhite, hmark⟩ := h
  refine ⟨e, ?_, hwhite, hmark⟩
  change (g.lookup k).filter _ = some e
  rw [Option.filter_eq_some_iff]
  exact ⟨he, by simp [keeps, hmark, hwhite, htime e he]⟩

/-- **A request to whitelist a key** confirms it exactly when it is not marked. -/
theorem confirmed_request_iff (cfg : Config) (g : Greylist K) (k : K) (now : ℤ) :
    (g.request cfg true k now).2.Confirmed k ↔
      ∀ e, g.lookup k = some e → e.removed = false := by
  rw [Greylist.request]
  cases hk : g.lookup k with
  | none => exact iff_of_true ⟨_, lookup_set_self _ _ _, rfl, rfl⟩ fun e he => by cases he
  | some e =>
      constructor
      · rintro ⟨e', he', -, hmark⟩ e₀ he₀
        rw [lookup_set_self] at he'
        cases he'
        cases he₀
        exact hmark
      · intro hmark
        exact ⟨_, lookup_set_self _ _ _, by simp [lets], hmark e rfl⟩

/-- A request takes no mark back. -/
theorem removed_request {e : Entry} (h : g.lookup k = some e) (cfg : Config)
    (whitelist : Bool) (now : ℤ) :
    ∃ e', (g.request cfg whitelist k now).2.lookup k = some e' ∧ e'.removed = e.removed := by
  rw [Greylist.request, h]
  exact ⟨_, lookup_set_self _ _ _, rfl⟩

end Greylist

/-! ### On the store -/

/-- A tuple is stored, whitelisted and not marked for removal. -/
def ConfirmedTuple (s : TupleSpace) (k : Key) : Prop :=
  ∃ t ∈ s.liveTuples, t.key = k ∧ t.whitelisted = true ∧ t.removed = false

/-- A tuple is marked for removal. -/
def MarkedTuple (s : TupleSpace) (k : Key) : Prop :=
  ∃ t ∈ s.liveTuples, t.key = k ∧ t.removed = true

theorem Represents.confirmed_iff {s : TupleSpace} {g : Greylist Key} (h : Represents s g)
    (k : Key) : g.Confirmed k ↔ ConfirmedTuple s k := by
  constructor
  · rintro ⟨e, he, hwhite, hmark⟩
    obtain ⟨t, ht, hk, rfl⟩ := (h k e).mp he
    exact ⟨t, ht, hk, hwhite, hmark⟩
  · rintro ⟨t, ht, hk, hwhite, hmark⟩
    exact ⟨t.entry, (h k _).mpr ⟨t, ht, hk, rfl⟩, hwhite, hmark⟩

theorem Represents.marked_iff {s : TupleSpace} {g : Greylist Key} (h : Represents s g)
    (k : Key) : (∀ e, g.lookup k = some e → e.removed = false) ↔ ¬ MarkedTuple s k := by
  constructor
  · rintro hall ⟨t, ht, hk, hmark⟩
    have hclear : t.removed = false := hall t.entry ((h k _).mpr ⟨t, ht, hk, rfl⟩)
    rw [hmark] at hclear
    cases hclear
  · intro hnot e he
    obtain ⟨t, ht, hk, rfl⟩ := (h k e).mp he
    exact Bool.eq_false_iff.mpr fun hmark => hnot ⟨t, ht, hk, hmark⟩

/-- The store is in order, and its pool has either never been full or is so now. -/
def Unfilled (cfg : Config) (s : TupleSpace) : Prop :=
  ∃ top, StoreOk cfg s top ∧ (top < cfg.poolmax ∨ s.poolnum = cfg.poolmax)

section Steps

variable {cfg : Config} {s s' : TupleSpace}

theorem unfilled_init (cfg : Config) : Unfilled cfg (TupleSpace.init cfg) :=
  ⟨0, storeOk_init cfg, Or.inl cfg.poolmax_pos⟩

/-- With room in the pool, some record has not been used yet. -/
theorem Unfilled.top_lt (h : Unfilled cfg s) (hroom : s.poolnum < cfg.poolmax) :
    ∃ top < cfg.poolmax, StoreOk cfg s top := by
  obtain ⟨top, hok, hlt | hfull⟩ := h
  · exact ⟨top, hlt, hok⟩
  · exact absurd hfull hroom.ne

/-- The records in use are at most as many as there have ever been live ones. -/
theorem StoreOk.unfilled {top top' : ℕ} (hok : StoreOk cfg s' top') (htop : top < cfg.poolmax)
    (hle : top' ≤ max top s'.poolnum) : Unfilled cfg s' := by
  have hnum := hok.poolnum_le
  refine ⟨top', hok, ?_⟩
  omega

/-- A line of the whitelist file that finds room. -/
theorem StoreOk.line_of_room {top : ℕ} (h : StoreOk cfg s top)
    (hroom : s.poolnum < cfg.poolmax) {tuple : Tuple}
    (hpad : cfg.ndebug = true ∨ tuple.pad = decafbad) (now clock : ℤ) :
    ∃ s' top', whitelistLoadTuple cfg s tuple now clock = .ok s' ∧ StoreOk cfg s' top' ∧
      top' ≤ max top s'.poolnum := by
  rcases tupleSearch_spec h.length_live h.sorted tuple with
    ⟨p, hp, idx, -, hsearch⟩ | ⟨idx, hsplit, hsearch⟩
  · have hw := h.countRead.write hp (t := (s.deref p).touch now) rfl
    exact ⟨_, top, whitelistLoadTuple_hit hsearch now clock, hw.confirm hp, le_max_left _ _⟩
  · have hr := h.countRead
    obtain ⟨live, free, hl⟩ := hr.layout
    have hroom' : s.countRead.poolnum < cfg.poolmax := hroom
    have hidx : idx ≤ s.countRead.poolnum := hr.length_keys ▸ hsplit.le_length
    exact ⟨_, _, whitelistLoadTuple_miss hsearch (tupleAllocate_of_lt hroom' clock) hl hroom'
      hpad hidx now,
      (hr.insertedStore hroom' (t := tuple.setFlag fWhitelist) hsplit).congr rfl rfl rfl,
      le_refl _⟩

/-- **A request**, if it returns and the pool has room. -/
theorem StoreStep.unfilled {req : Request} {type : Option Cmd}
    (hstep : StoreStep cfg s req type s') (h : Unfilled cfg s)
    (hroom : s.poolnum < cfg.poolmax) : Unfilled cfg s' := by
  obtain ⟨top, htop, hok⟩ := h.top_lt hroom
  cases hstep with
  | same => exact ⟨top, hok, Or.inl htop⟩
  | check whitelist r s' hacc hcheck =>
      obtain ⟨s₁, top', hcheck', -, hok', hle⟩ := hok.represents.typeGreylistCheckTuple hok
        hroom (freshTuple_requestTuple cfg req) (checkCmd whitelist) req.clock
      rw [hcheck'] at hcheck
      cases hcheck
      exact hok'.unfilled htop hle
  | remove hacc =>
      obtain ⟨-, hok', -⟩ := hok.represents.tupleRemove hok (req.tuple cfg)
      exact ⟨top, hok', Or.inl htop⟩

/-- A request that does not remove the tuple keeps it confirmed. -/
theorem StoreStep.confirmed {req : Request} {type : Option Cmd}
    (hstep : StoreStep cfg s req type s') (h : Unfilled cfg s)
    (hroom : s.poolnum < cfg.poolmax) {k : Key}
    (hk : type = some .tupleRemove → req.Accepts → (req.tuple cfg).key ≠ k)
    (hc : ConfirmedTuple s k) : ConfirmedTuple s' k := by
  obtain ⟨top, htop, hok⟩ := h.top_lt hroom
  have hg := (hok.represents.confirmed_iff k).mpr hc
  cases hstep with
  | same => exact hc
  | check whitelist r s' hacc hcheck =>
      obtain ⟨s₁, top', hcheck', hrep, -, -⟩ := hok.represents.typeGreylistCheckTuple hok
        hroom (freshTuple_requestTuple cfg req) (checkCmd whitelist) req.clock
      rw [hcheck'] at hcheck
      cases hcheck
      exact (hrep.confirmed_iff k).mp (hg.request cfg _ _ _)
  | remove hacc =>
      obtain ⟨hrep, -, -⟩ := hok.represents.tupleRemove hok (req.tuple cfg)
      exact (hrep.confirmed_iff k).mp (hg.remove (hk rfl hacc))

/-- **A sweep** does not fail as long as the pool has room, and keeps a confirmed tuple
that it comes in time for. -/
theorem Unfilled.expire (h : Unfilled cfg s) (hroom : s.poolnum < cfg.poolmax) (tao : ℤ) :
    ∃ s', tupleExpire cfg s tao = .ok s' ∧ Unfilled cfg s' ∧
      (∀ k, ConfirmedTuple s k →
        (∀ t ∈ s.liveTuples, t.key = k → difftime tao t.atime ≤ cfg.timeoutWhite) →
          ConfirmedTuple s' k) ∧
      ∀ k, MarkedTuple s k → k ∉ s'.keys := by
  obtain ⟨top, htop, hok⟩ := h.top_lt hroom
  have hrep₀ := hok.represents
  obtain ⟨s', hexpire, hrep, hok'⟩ := hrep₀.tupleExpire hok htop tao
  refine ⟨s', hexpire, ⟨top, hok', Or.inl htop⟩, ?_, ?_⟩
  · intro k hc htime
    refine (hrep.confirmed_iff k).mp (((hrep₀.confirmed_iff k).mpr hc).sweep fun e he => ?_)
    obtain ⟨t, ht, hk, rfl⟩ := (hrep₀ k e).mp he
    exact htime t ht hk
  · rintro k ⟨t, ht, hk, hmark⟩ hmem
    obtain ⟨e, he⟩ := Option.isSome_iff_exists.mp ((hrep.lookup_isSome_iff k).mpr hmem)
    obtain ⟨he, hkeep⟩ := Option.filter_eq_some_iff.mp he
    have hentry := (hrep₀ k t.entry).mpr ⟨t, ht, hk, rfl⟩
    rw [hentry] at he
    cases he
    rw [keeps_entry, due, hmark] at hkeep
    cases hkeep

end Steps

/-! ### Runs in which the pool is never full -/

/-- The pool has room when the server takes a step, and before every line of a whitelist
file that is loaded. -/
def Roomy (cgi : CgiLib) (cfg : Config) (srv : Server) : Action → Prop
  | .whitelistLoad now lines => ∀ loaded rest s, loaded ++ rest = lines →
      loaded.foldlM (whitelistLoadLine cgi cfg now) srv.store = .ok s → s.poolnum < cfg.poolmax
  | _ => srv.store.poolnum < cfg.poolmax

/-- A sweep would come in time for a whitelisted tuple. -/
def InTime (cfg : Config) (s : TupleSpace) (k : Key) (tao : ℤ) : Prop :=
  ∀ t ∈ s.liveTuples, t.key = k → difftime tao t.atime ≤ cfg.timeoutWhite

/-- A step of the running server that finds room in the pool, does not remove a tuple, and
comes in time for it if it is a sweep. -/
def Spares (cfg : Config) (k : Key) (srv : Server) : Action → Prop
  | .request req _ type => srv.store.poolnum < cfg.poolmax ∧
      (type = some .tupleRemove → req.Accepts → (req.tuple cfg).key ≠ k)
  | .sigalrm now => srv.store.poolnum < cfg.poolmax ∧ InTime cfg srv.store k now
  | .sigusr2 now => srv.store.poolnum < cfg.poolmax ∧ InTime cfg srv.store k now
  | .iplistRead .. => False
  | .whitelistLoad .. => False
  | .tofromRead .. => False

/-- A tuple lasts on the whitelist: after any steps that spare it, and as long as the pool
has room, a sweep that comes in time leaves it stored and whitelisted. -/
def StaysWhitelisted (cgi : CgiLib) (cfg : Config) (srv : Server) (k : Key) : Prop :=
  ∀ after srv' outs, run (actionStep cgi cfg) srv after = .ok (srv', outs) →
    Along (actionStep cgi cfg) (Spares cfg k) srv after →
    srv'.store.poolnum < cfg.poolmax → ∀ tao, InTime cfg srv'.store k tao →
      ∃ s', tupleExpire cfg srv'.store tao = .ok s' ∧
        ∃ t ∈ s'.liveTuples, t.key = k ∧ t.whitelisted = true

section Runs

variable {cgi : CgiLib} {cfg : Config} {srv srv' : Server}

theorem Unfilled.congr {s s' : TupleSpace} (h : Unfilled cfg s) (hpool : s'.pool = s.pool)
    (hspace : s'.tuplespace = s.tuplespace) (hnum : s'.poolnum = s.poolnum) :
    Unfilled cfg s' := by
  obtain ⟨top, hok, htop⟩ := h
  exact ⟨top, hok.congr hpool hspace hnum, hnum ▸ htop⟩

/-- A line of the whitelist file that finds room, if it is loaded. -/
theorem Unfilled.line {s s' : TupleSpace} (h : Unfilled cfg s)
    (hroom : s.poolnum < cfg.poolmax) {now : ℤ} {line : WhiteLine}
    (hok : whitelistLoadLine cgi cfg now s line = .ok s') : Unfilled cfg s' := by
  rcases whitelistLoadLine_inv hok with rfl | ⟨tuple, htuple, hok⟩
  · exact h
  · obtain ⟨top, htop, hs⟩ := h.top_lt hroom
    obtain ⟨s₁, top', hload, hs₁, hle⟩ :=
      hs.line_of_room hroom (WhiteLine.tuple_fresh htuple).pad now line.clock
    rw [hload] at hok
    cases hok
    exact hs₁.unfilled htop hle

/-- The loop of `whitelist_load`, if every line finds room. -/
theorem Unfilled.lines {now : ℤ} {lines : List WhiteLine} {s s' : TupleSpace}
    (h : Unfilled cfg s)
    (hroom : ∀ loaded rest s', loaded ++ rest = lines →
      loaded.foldlM (whitelistLoadLine cgi cfg now) s = .ok s' → s'.poolnum < cfg.poolmax)
    (hok : lines.foldlM (whitelistLoadLine cgi cfg now) s = .ok s') : Unfilled cfg s' := by
  induction lines generalizing s with
  | nil =>
      cases hok
      exact h
  | cons line lines ih =>
      rw [List.foldlM_cons] at hok
      obtain ⟨s₁, hline, hok⟩ := bind_eq_ok.mp hok
      refine ih (h.line (hroom [] _ s rfl rfl) hline) ?_ hok
      intro loaded rest s₂ hsplit hloaded
      refine hroom (line :: loaded) rest s₂ (congrArg (line :: ·) hsplit) ?_
      rw [List.foldlM_cons, hline]
      exact hloaded

/-- **One step** that finds room. -/
theorem actionStep_unfilled (h : Unfilled cfg srv.store) {a : Action} {out : List Output}
    (hroom : Roomy cgi cfg srv a) (hok : actionStep cgi cfg srv a = .ok (srv', out)) :
    Unfilled cfg srv'.store := by
  have hstep := actionStep_inv hok
  cases hstep with
  | iplistRead => exact h
  | whitelistLoad now lines s hlines => exact (h.lines hroom hlines).congr rfl rfl rfl
  | tofromRead name =>
      rw [store_setList]
      exact h
  | request req canReport type srv' out req' hdispatch =>
      exact (dispatch_store hdispatch).unfilled h hroom
  | sweep a now ha srv' s hspace hnum hpool hexpire =>
      have hroom' : s.poolnum < cfg.poolmax := by
        rw [hnum]
        rcases ha with rfl | rfl <;> exact hroom
      obtain ⟨s', hexpire', hs', -⟩ := (h.congr hpool hspace hnum).expire hroom' now
      rw [hexpire'] at hexpire
      cases hexpire
      exact hs'

/-- **A run** in which the pool is never full. -/
theorem run_unfilled {starttime : ℤ} {actions : List Action} {outs : List (List Output)}
    (hal : Along (actionStep cgi cfg) (Roomy cgi cfg) (Server.init cfg starttime) actions)
    (hrun : run (actionStep cgi cfg) (Server.init cfg starttime) actions = .ok (srv, outs)) :
    Unfilled cfg srv.store := by
  have hstep : ∀ srv a srv' out, Unfilled cfg (Server.store srv) → Roomy cgi cfg srv a →
      actionStep cgi cfg srv a = .ok (srv', out) → Unfilled cfg srv'.store :=
    fun _ _ _ _ h hroom hok => actionStep_unfilled h hroom hok
  exact run_invariant hstep (unfilled_init cfg) hal hrun

/-- **One step** that spares a confirmed tuple. -/
theorem actionStep_confirmed {k : Key} (h : Unfilled cfg srv.store)
    (hc : ConfirmedTuple srv.store k) {a : Action} {out : List Output}
    (hspares : Spares cfg k srv a) (hok : actionStep cgi cfg srv a = .ok (srv', out)) :
    Unfilled cfg srv'.store ∧ ConfirmedTuple srv'.store k := by
  have hstep := actionStep_inv hok
  cases hstep with
  | iplistRead => exact hspares.elim
  | whitelistLoad => exact hspares.elim
  | tofromRead => exact hspares.elim
  | request req canReport type srv' out req' hdispatch =>
      obtain ⟨hroom, hk⟩ := hspares
      have hstep := dispatch_store hdispatch
      exact ⟨hstep.unfilled h hroom, hstep.confirmed h hroom hk hc⟩
  | sweep a now ha srv' s hspace hnum hpool hexpire =>
      have hspares' : srv.store.poolnum < cfg.poolmax ∧ InTime cfg srv.store k now := by
        rcases ha with rfl | rfl <;> exact hspares
      obtain ⟨hroom, htime⟩ := hspares'
      have hlive := TupleSpace.liveTuples_congr hspace hnum hpool
      rw [ConfirmedTuple, ← hlive] at hc
      rw [InTime, ← hlive] at htime
      rw [← hnum] at hroom
      obtain ⟨s', hexpire', hs', hkeep, -⟩ := (h.congr hpool hspace hnum).expire hroom now
      rw [hexpire'] at hexpire
      cases hexpire
      exact ⟨hs', hkeep k hc htime⟩

/-- **A confirmed tuple lasts.** -/
theorem staysWhitelisted_of_confirmed {k : Key} (h : Unfilled cfg srv.store)
    (hc : ConfirmedTuple srv.store k) : StaysWhitelisted cgi cfg srv k := by
  intro after srv' outs hrun hal hroom tao htime
  have hstep : ∀ srv a srv' out, Unfilled cfg (Server.store srv) ∧ ConfirmedTuple srv.store k →
      Spares cfg k srv a → actionStep cgi cfg srv a = .ok (srv', out) →
        Unfilled cfg srv'.store ∧ ConfirmedTuple srv'.store k :=
    fun _ _ _ _ h hspares hok => actionStep_confirmed h.1 h.2 hspares hok
  obtain ⟨h', hc'⟩ := run_invariant hstep ⟨h, hc⟩ hal hrun
  obtain ⟨s', hexpire, -, hkeep, -⟩ := h'.expire hroom tao
  obtain ⟨t, ht, hk, hwhite, -⟩ := hkeep k hc' htime
  exact ⟨s', hexpire, t, ht, hk, hwhite⟩

/-- **A marked tuple does not**: the next sweep drops it, however soon it comes. -/
theorem not_staysWhitelisted_of_marked {k : Key} (h : Unfilled cfg srv.store)
    (hroom : srv.store.poolnum < cfg.poolmax) (hmark : MarkedTuple srv.store k) :
    ¬ StaysWhitelisted cgi cfg srv k := by
  intro hstays
  obtain ⟨top, -, hok⟩ := h.top_lt hroom
  obtain ⟨t, ht, hk, hremoved⟩ := hmark
  have htime : InTime cfg srv.store k (t.atime + cfg.timeoutWhite.floor) := by
    intro t' ht' hk'
    have heq : t' = t := List.inj_on_of_nodup_map hok.nodup ht' ht (hk'.trans hk.symm)
    rw [heq, difftime, add_sub_cancel_left]
    exact Rat.floor_le cfg.timeoutWhite
  obtain ⟨s', hexpire, t', ht', hk', -⟩ := hstays [] srv [] rfl trivial hroom _ htime
  obtain ⟨s₁, hexpire₁, -, -, hdrop⟩ := h.expire hroom (t.atime + cfg.timeoutWhite.floor)
  rw [hexpire₁] at hexpire
  cases hexpire
  exact hdrop k ⟨t, ht, hk, hremoved⟩ (List.mem_map.mpr ⟨t', ht', hk'⟩)

/-- What an acknowledged request to whitelist a tuple has done. -/
theorem whitelist_acknowledged {req : Request} {canReport : Bool}
    (hack : actionStep cgi cfg srv (.request req canReport (some .whitelist)) =
      .ok (srv', [req.reply .whitelistResp Ift.accept .whitelist])) :
    req.Accepts ∧ typeGreylistCheckTuple cfg srv.store (req.tuple cfg) .whitelist req.now
      req.clock = .ok ((Ift.accept, .whitelist), srv'.store) := by
  obtain ⟨⟨out, srv₁, req'⟩, hdispatch, hok⟩ := bind_eq_ok.mp hack
  change typeGreylist cfg srv req .whitelist .whitelistResp = _ at hdispatch
  have hacc : req.Accepts := by
    by_contra hacc
    rw [typeGreylist_of_not_accepts cfg srv hacc] at hdispatch
    cases hdispatch
    cases hok
  obtain ⟨-, -, rc, why, rfl, hcase⟩ := typeGreylist_inv hacc hdispatch
  cases hok
  rcases hcase with ⟨-, -, hwhy⟩ | hcheck
  · exact absurd rfl hwhy
  · exact ⟨hacc, hcheck⟩

end Runs

/-- **An acknowledged whitelisting** lasts exactly when the tuple was not marked for
removal at the time. -/
theorem staysWhitelisted_iff (cgi : CgiLib) (cfg : Config) (starttime : ℤ)
    (before : List Action) (srv : Server) (outs : List (List Output))
    (hal : Along (actionStep cgi cfg) (Roomy cgi cfg) (Server.init cfg starttime) before)
    (hrun : run (actionStep cgi cfg) (Server.init cfg starttime) before = .ok (srv, outs))
    (hroom : srv.store.poolnum < cfg.poolmax) (req : Request) (canReport : Bool)
    (srv' : Server)
    (hack : actionStep cgi cfg srv (.request req canReport (some .whitelist)) =
      .ok (srv', [req.reply .whitelistResp Ift.accept .whitelist])) :
    StaysWhitelisted cgi cfg srv' (req.tuple cfg).key ↔
      ¬ MarkedTuple srv.store (req.tuple cfg).key := by
  obtain ⟨hacc, hcheck⟩ := whitelist_acknowledged hack
  have h := run_unfilled hal hrun
  have h' : Unfilled cfg srv'.store :=
    (StoreStep.check true _ _ hacc hcheck).unfilled h hroom
  obtain ⟨top, -, hok⟩ := h.top_lt hroom
  obtain ⟨s₁, top', hcheck', hrep, -, -⟩ := hok.represents.typeGreylistCheckTuple hok hroom
    (freshTuple_requestTuple cfg req) .whitelist req.clock
  rw [hcheck] at hcheck'
  obtain ⟨-, hstore⟩ := Prod.mk.inj (Except.ok.inj hcheck')
  rw [← hstore] at hrep
  have hconfirmed : ConfirmedTuple srv'.store (req.tuple cfg).key ↔
      ¬ MarkedTuple srv.store (req.tuple cfg).key :=
    (hrep.confirmed_iff _).symm.trans
      ((Greylist.confirmed_request_iff cfg _ _ _).trans (hok.represents.marked_iff _))
  refine ⟨?_, fun hclear => staysWhitelisted_of_confirmed h' (hconfirmed.mpr hclear)⟩
  rintro hstays ⟨t, ht, hk, hremoved⟩
  -- the request has found the marked tuple, and left it in its place with its mark
  have hroom' : srv'.store.poolnum < cfg.poolmax := by
    rcases tupleSearch_spec hok.length_live hok.sorted (req.tuple cfg) with
      ⟨p, hp, idx, hkey, hsearch⟩ | ⟨idx, hsplit, -⟩
    · have hlt := hok.lt_of_mem_live hp
      rw [typeGreylistCheckTuple_hit hsearch hlt, hitStore_eq hlt] at hcheck
      obtain ⟨-, hhit⟩ := Prod.mk.inj (Except.ok.inj hcheck)
      rw [← hhit]
      exact hroom
    · exact absurd (List.mem_map.mpr ⟨t, ht, hk⟩) hsplit.notMem
  obtain ⟨e, he, hmark⟩ := Greylist.removed_request
    ((hok.represents _ t.entry).mpr ⟨t, ht, hk, rfl⟩) cfg true req.now
  obtain ⟨t', ht', hk', rfl⟩ := (hrep _ e).mp he
  exact not_staysWhitelisted_of_marked h' hroom' ⟨t', ht', hk', hmark.trans hremoved⟩ hstays

/-- A known tuple is whitelisted. -/
theorem staysWhitelisted_letter :
    ∃ srv', StaysWhitelisted plainCgi smallConfig srv'
      ((letterRequest 97 98 10).tuple smallConfig).key := by
  obtain ⟨⟨srv, outs⟩, hrun, htest⟩ := exists_of_okAnd
    (run (actionStep plainCgi smallConfig) (Server.init smallConfig 0)
      [.request (letterRequest 97 98 0) false (some .greylist)])
    (fun r => decide (r.1.store.poolnum < smallConfig.poolmax ∧
      (∀ t ∈ r.1.store.liveTuples, t.removed = false)) &&
      okAnd (actionStep plainCgi smallConfig r.1
        (.request (letterRequest 97 98 10) false (some .whitelist))) fun r' =>
          decide (r'.2 = [(letterRequest 97 98 10).reply .whitelistResp Ift.accept
            .whitelist])) (by decide +kernel)
  obtain ⟨hstate, hack⟩ := (Bool.and_eq_true _ _).mp htest
  obtain ⟨hroom, hclear⟩ := of_decide_eq_true hstate
  obtain ⟨⟨srv', out⟩, hok, hout⟩ := exists_of_okAnd _ _ hack
  cases of_decide_eq_true hout
  have hal : Along (actionStep plainCgi smallConfig) (Roomy plainCgi smallConfig)
      (Server.init smallConfig 0)
      [.request (letterRequest 97 98 0) false (some .greylist)] :=
    ⟨Nat.succ_pos 2, fun _ _ _ => trivial⟩
  refine ⟨srv', (staysWhitelisted_iff plainCgi smallConfig 0 _ srv outs hal hrun hroom _ false
    srv' hok).mpr ?_⟩
  rintro ⟨t, ht, -, hmark⟩
  rw [hclear t ht] at hmark
  cases hmark

/-- A tuple is created, removed and whitelisted again. The server acknowledges this, and
the sweep ten seconds later drops the tuple. -/
theorem whitelisting_lost :
    ∃ srv outs, run (actionStep plainCgi smallConfig) (Server.init smallConfig 0)
        [.request (letterRequest 97 98 0) false (some .greylist),
          .request (letterRequest 97 98 5) false (some .tupleRemove),
          .request (letterRequest 97 98 10) false (some .whitelist),
          .sigalrm 20] = .ok (srv, outs) ∧
      outs[2]? = some [(letterRequest 97 98 10).reply .whitelistResp Ift.accept .whitelist] ∧
      srv.store.keys = [] := by
  obtain ⟨⟨srv, outs⟩, hrun, htest⟩ := exists_of_okAnd
    (run (actionStep plainCgi smallConfig) (Server.init smallConfig 0)
      [.request (letterRequest 97 98 0) false (some .greylist),
        .request (letterRequest 97 98 5) false (some .tupleRemove),
        .request (letterRequest 97 98 10) false (some .whitelist),
        .sigalrm 20])
    (fun r => decide (r.2[2]? =
        some [(letterRequest 97 98 10).reply .whitelistResp Ift.accept .whitelist] ∧
      r.1.store.keys = [])) (by decide +kernel)
  exact ⟨srv, outs, hrun, of_decide_eq_true htest⟩

end XGrey
