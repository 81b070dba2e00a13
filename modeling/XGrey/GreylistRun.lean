import XGrey.Greylist
import XGrey.ServerRun

/-!
# The Server is a Greylist

Runs of the server on requests that the filter lets through, compared with a greylist that
is a finite map from keys to entries (`Greylist.step`). As long as the pool is never full,
the server answers every request as the map does.

## Main results

* `eventStep_refines`: one event.
* `run_greylist`: any run.
-/

open CRuntime SortedSeq StepRun

namespace XGrey

/-! ### The greylist as a machine -/

/-- What a greylist does with an event, and what it answers. -/
def Greylist.step (cfg : Config) (g : Greylist Key) : Event → Greylist Key × List Output
  | .check whitelist req =>
      let r := g.request cfg whitelist (req.tuple cfg).key req.now
      (r.2, [req.reply (checkResp whitelist) r.1.1 r.1.2])
  | .remove req =>
      (g.remove (req.tuple cfg).key, [req.reply .tupleRemoveResp 0 .greylist])
  | .sigalrm now => (g.sweep cfg now, [])
  | .sigusr2 now => (g.sweep cfg now, [])

/-- An event that is left to the tuples: its request is accepted, and every stage of the
filter says `GREYLIST`. -/
def LeftToTuples (cfg : Config) (srv : Server) : Event → Prop
  | .check _ req => req.Accepts ∧ ∀ stage ∈ srv.stages (req.tuple cfg), stage.1 = Ift.greylist
  | .remove req => req.Accepts
  | _ => True

/-! ### One event -/

/-- The server stands for a greylist: its store does, it has room, and its filter is the
one it started with. -/
structure StandsFor (cfg : Config) (srv₀ srv : Server) (g : Greylist Key) : Prop where
  filter : FilterOk srv
  rules : srv.filter = srv₀.filter
  represents : Represents srv.store g
  store : ∃ top < cfg.poolmax, StoreOk cfg srv.store top

section Steps

variable {cfg : Config} {srv₀ srv : Server} {g : Greylist Key}

/-- The number of live tuples is at most that of the records that were used. -/
theorem StoreOk.poolnum_le_top {s : TupleSpace} {top : ℕ} (h : StoreOk cfg s top) :
    s.poolnum ≤ top := by
  obtain ⟨live, free, hl⟩ := h.layout
  have hcount := hl.length_live_add_free
  have hlen := hl.length_live
  omega

/-- A request for a verdict. -/
theorem StandsFor.check (h : StandsFor cfg srv₀ srv g) (whitelist : Bool) {req : Request}
    (hleft : LeftToTuples cfg srv₀ (.check whitelist req))
    (hroom : (g.step cfg (.check whitelist req)).1.size < cfg.poolmax) :
    ∃ srv', eventStep cfg srv (.check whitelist req) =
        .ok (srv', (g.step cfg (.check whitelist req)).2) ∧
      StandsFor cfg srv₀ srv' (g.step cfg (.check whitelist req)).1 := by
  obtain ⟨hacc, hgrey⟩ := hleft
  obtain ⟨top, htop, hstore⟩ := h.store
  have hstages : srv.stages (req.tuple cfg) = srv₀.stages (req.tuple cfg) := by
    rw [Server.stages, h.rules, Server.stages]
  have hkind : decide (checkCmd whitelist = .whitelist) = whitelist := by
    cases whitelist <;> rfl
  obtain ⟨srv', hfilter, hrules, hsame, heq⟩ :=
    typeGreylist_eq cfg h.filter hacc (checkCmd whitelist) (checkResp whitelist)
  obtain ⟨s', top', hcheck, hrep, hstore', htop'⟩ :=
    h.represents.typeGreylistCheckTuple hstore (hstore.poolnum_le_top.trans_lt htop)
      (freshTuple_requestTuple cfg req) (checkCmd whitelist) req.clock
  rw [hkind] at hcheck hrep
  have hsize : s'.poolnum < cfg.poolmax := hrep.size_eq hstore' ▸ hroom
  refine ⟨{ srv' with store := s' }, ?_, hfilter.withStore s', hrules.trans h.rules, hrep,
    top', htop'.trans_lt (max_lt htop hsize), hstore'⟩
  rw [eventStep, heq, hstages, decideStages_greylist hgrey, ok_bind, answer, hsame, hcheck]
  rfl

/-- A removal. -/
theorem StandsFor.remove (h : StandsFor cfg srv₀ srv g) {req : Request}
    (hacc : req.Accepts) :
    ∃ srv', eventStep cfg srv (.remove req) = .ok (srv', (g.step cfg (.remove req)).2) ∧
      StandsFor cfg srv₀ srv' (g.step cfg (.remove req)).1 := by
  obtain ⟨top, htop, hstore⟩ := h.store
  obtain ⟨hrep, hstore', -⟩ := h.represents.tupleRemove hstore (req.tuple cfg)
  refine ⟨{ srv with store := tupleRemove srv.store (req.tuple cfg) }, ?_,
    h.filter.withStore _, h.rules, hrep, top, htop, hstore'⟩
  rw [eventStep, typeTupleRemove_of_accepts cfg srv hacc]
  rfl

/-- The regular cleanup. -/
theorem StandsFor.sigalrm (h : StandsFor cfg srv₀ srv g) (now : ℤ) :
    ∃ srv', eventStep cfg srv (.sigalrm now) = .ok (srv', []) ∧
      StandsFor cfg srv₀ srv' (g.sweep cfg now) := by
  obtain ⟨top, htop, hstore⟩ := h.store
  have hreset : StoreOk cfg { srv.store with
      tuplesReadCucurrent := 0, tuplesWriteCucurrent := 0 } top := hstore.congr rfl rfl rfl
  have hrep : Represents { srv.store with
      tuplesReadCucurrent := 0, tuplesWriteCucurrent := 0 } g :=
    h.represents.congr fun t => Iff.rfl
  obtain ⟨s', hexpire, hrep', hstore'⟩ := hrep.tupleExpire hreset htop now
  rw [eventStep, handleSigalrm]
  dsimp only
  rw [hexpire]
  exact ⟨_, rfl, ⟨h.filter.tree, h.filter.ipCmdcnt, h.filter.fromL, h.filter.fromdL,
    h.filter.toL, h.filter.todL⟩, h.rules, hrep', top, htop, hstore'⟩

/-- The cleanup on demand. -/
theorem StandsFor.sigusr2 (h : StandsFor cfg srv₀ srv g) (now : ℤ) :
    ∃ srv', eventStep cfg srv (.sigusr2 now) = .ok (srv', []) ∧
      StandsFor cfg srv₀ srv' (g.sweep cfg now) := by
  obtain ⟨top, htop, hstore⟩ := h.store
  obtain ⟨s', hexpire, hrep', hstore'⟩ := h.represents.tupleExpire hstore htop now
  rw [eventStep, handleSigusr2, hexpire]
  exact ⟨_, rfl, h.filter.withStore s', h.rules, hrep', top, htop, hstore'⟩

/-- **One event** is answered as the greylist answers it, if the greylist still fits the
pool afterwards. -/
theorem eventStep_refines (h : StandsFor cfg srv₀ srv g) {e : Event}
    (hleft : LeftToTuples cfg srv₀ e) (hroom : (g.step cfg e).1.size < cfg.poolmax) :
    ∃ srv', eventStep cfg srv e = .ok (srv', (g.step cfg e).2) ∧
      StandsFor cfg srv₀ srv' (g.step cfg e).1 := by
  cases e with
  | check whitelist req => exact h.check whitelist hleft hroom
  | remove req => exact h.remove hleft
  | sigalrm now => exact h.sigalrm now
  | sigusr2 now => exact h.sigusr2 now

end Steps

/-! ### The size of the greylist -/

namespace Greylist

variable {K : Type*} {g : Greylist K}

theorem size_empty : (empty : Greylist K).size = 0 := by
  simp [size, empty]

theorem size_set_le [DecidableEq K] (k : K) (e : Entry) : (g.set k e).size ≤ g.size + 1 := by
  refine (Set.ncard_le_ncard (fun k' hk' => ?_) (g.finite.insert k)).trans
    (Set.ncard_insert_le k _)
  by_cases h : k' = k
  · exact Or.inl h
  · exact Or.inr (by simpa [lookup_set_ne g e h] using hk')

theorem size_sweep_le (cfg : Config) (tao : ℤ) : (g.sweep cfg tao).size ≤ g.size := by
  refine Set.ncard_le_ncard (fun k hk => ?_) g.finite
  obtain ⟨e, he⟩ := Option.isSome_iff_exists.mp hk
  exact Option.isSome_iff_exists.mpr ⟨e, (Option.filter_eq_some_iff.mp he).1⟩

theorem size_request_le [DecidableEq K] (cfg : Config) (whitelist : Bool) (k : K) (now : ℤ) :
    (g.request cfg whitelist k now).2.size ≤ g.size + 1 := by
  rw [Greylist.request]
  split <;> exact size_set_le _ _

theorem size_remove_le [DecidableEq K] (k : K) : (g.remove k).size ≤ g.size + 1 := by
  rw [Greylist.remove]
  split
  · exact Nat.le_succ _
  · exact size_set_le _ _

/-- An event makes at most one entry. -/
theorem size_step_le (cfg : Config) (g : Greylist Key) (e : Event) :
    (g.step cfg e).1.size ≤ g.size + 1 := by
  cases e with
  | check whitelist req =>
      change (g.request cfg whitelist _ _).2.size ≤ _
      rw [Greylist.request]
      split <;> exact size_set_le _ _
  | remove req =>
      change (g.remove _).size ≤ _
      rw [Greylist.remove]
      split
      · exact Nat.le_succ _
      · exact size_set_le _ _
  | sigalrm now => exact (size_sweep_le cfg now).trans (Nat.le_succ _)
  | sigusr2 now => exact (size_sweep_le cfg now).trans (Nat.le_succ _)

end Greylist

/-! ### Runs -/

/-- The events of a run that the greylist stands for: they are left to the tuples, and
after each of them the greylist fits the pool with a place to spare. -/
def Admissible (cfg : Config) (srv₀ : Server) (g : Greylist Key) (e : Event) : Prop :=
  LeftToTuples cfg srv₀ e ∧ (g.step cfg e).1.size < cfg.poolmax

/-- A run with fewer events than the pool has places never fills it. -/
theorem alongTotal_admissible {cfg : Config} {srv₀ : Server} {g : Greylist Key}
    {events : List Event} (hleft : ∀ e ∈ events, LeftToTuples cfg srv₀ e)
    (hlen : g.size + events.length < cfg.poolmax) :
    AlongTotal (Greylist.step cfg) (Admissible cfg srv₀) g events := by
  induction events generalizing g with
  | nil => trivial
  | cons e events ih =>
      obtain ⟨he, hleft⟩ := List.forall_mem_cons.mp hleft
      have hsize := Greylist.size_step_le cfg g e
      rw [List.length_cons] at hlen
      exact ⟨⟨he, by omega⟩, ih hleft (by omega)⟩

/-- **The server is a greylist.** From an empty store, any run of requests that are left to
the tuples, with sweeps in between, is answered as the greylist answers it, and the store
stands for the greylist afterwards, as long as the greylist never fills the pool. -/
theorem run_greylist (cfg : Config) (srv₀ : Server) (hfilter : FilterOk srv₀)
    (hstore : srv₀.store = TupleSpace.init cfg) (events : List Event)
    (hal : AlongTotal (Greylist.step cfg) (Admissible cfg srv₀) Greylist.empty events) :
    ∃ srv, run (eventStep cfg) srv₀ events =
        .ok (srv, (runTotal (Greylist.step cfg) Greylist.empty events).2) ∧
      Represents srv.store (runTotal (Greylist.step cfg) Greylist.empty events).1 ∧
      srv.store.keys.Pairwise (· < ·) ∧
      srv.store.poolnum = (runTotal (Greylist.step cfg) Greylist.empty events).1.size := by
  have hstart : StandsFor cfg srv₀ srv₀ Greylist.empty :=
    ⟨hfilter, rfl, hstore ▸ represents_init cfg, 0, cfg.poolmax_pos, hstore ▸ storeOk_init cfg⟩
  have hstep : ∀ srv g e, StandsFor cfg srv₀ srv g → Admissible cfg srv₀ g e →
      ∃ srv', eventStep cfg srv e = .ok (srv', (Greylist.step cfg g e).2) ∧
        StandsFor cfg srv₀ srv' (Greylist.step cfg g e).1 :=
    fun _ _ _ hstands hgood => eventStep_refines hstands hgood.1 hgood.2
  obtain ⟨srv, hrun, hstands⟩ := run_refines hstep hstart hal
  obtain ⟨top, -, hok⟩ := hstands.store
  exact ⟨srv, hrun, hstands.represents, hok.sorted, (hstands.represents.size_eq hok).symm⟩

/-- A tuple is created, passes after the embargo, is removed and swept. -/
def letterRun : List Event :=
  [.check false (letterRequest 97 98 0), .check false (letterRequest 97 98 2000),
    .remove (letterRequest 97 98 2100), .sigalrm 2200]

theorem leftToTuples_letterRun : ∀ e ∈ letterRun,
    LeftToTuples (Config.default false) (Server.init (Config.default false) 0) e := by
  intro e he
  simp only [letterRun, List.mem_cons, List.not_mem_nil, or_false] at he
  rcases he with rfl | rfl | rfl | rfl
  · exact ⟨by decide, by decide +kernel⟩
  · exact ⟨by decide, by decide +kernel⟩
  · exact (by decide : (letterRequest 97 98 2100).Accepts)
  · trivial

theorem run_greylist_letters :
    ∃ srv, run (eventStep (Config.default false)) (Server.init (Config.default false) 0)
        letterRun = .ok (srv,
          (runTotal (Greylist.step (Config.default false)) Greylist.empty letterRun).2) := by
  obtain ⟨srv, hrun, -⟩ := run_greylist (Config.default false)
    (Server.init (Config.default false) 0) (filterOk_init _ _) rfl letterRun
    (alongTotal_admissible leftToTuples_letterRun (by rw [Greylist.size_empty]; decide))
  exact ⟨srv, hrun⟩

end XGrey
