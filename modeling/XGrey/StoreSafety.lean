import XGrey.ServerRun

/-!
# The Store in every Run

What the runs of `ServerRun` mean for the tuple space, separately for the two ways in
which it goes wrong.

Without assertions the danger is the index: it is searched for before `tuple_allocate`
makes room, and is stale when that drops or forgets tuples in front of it. As long as this
does not happen (`InPlace`), the tuple space stays sorted.

With assertions the danger is the bound check of `tuple_expire`, which looks at the index
behind the one it has just filled, and so fails on the last one. As long as a sweep does
not get there (`Clear`), no assertion fails.

## Main results

* `run_sorted`: without assertions, in every run whose steps are all `InPlace` the live
  part of the tuple space stays sorted and no insertion runs away.
* `run_no_assertion`: in every run whose steps are all `Clear` no assertion fails.
-/

open CRuntime SortedSeq StepRun

namespace XGrey

/-! ### A sorted store -/

/-- The tuple space is strictly increasing under `tuple_look_ift`. -/
def Increasing (s : TupleSpace) : Prop :=
  s.liveTuples.Pairwise fun t t' => tupleLookIft t t' = .lt

instance (s : TupleSpace) : Decidable (Increasing s) :=
  inferInstanceAs (Decidable (List.Pairwise _ _))

/-- `tuple_look_ift` is smaller exactly on smaller keys. -/
theorem tupleLookIft_eq_lt {t t' : Tuple} (h : t.key < t'.key) : tupleLookIft t t' = .lt :=
  (tupleLookIft_compares t t').eq_lt.mpr h

/-- A store in order is increasing. -/
theorem StoreOk.increasing {cfg : Config} {s : TupleSpace} {top : ℕ} (h : StoreOk cfg s top) :
    Increasing s :=
  (List.pairwise_map.mp h.sorted).imp tupleLookIft_eq_lt

/-- In a store in order the search finds exactly what is stored. -/
theorem StoreOk.search_iff {cfg : Config} {s : TupleSpace} {top : ℕ} (h : StoreOk cfg s top)
    (tuple : Tuple) : (tupleSearch s tuple).1 ≠ none ↔ tuple.key ∈ s.keys := by
  rcases tupleSearch_spec h.length_live h.sorted tuple with
    ⟨p, hp, idx, hkey, hsearch⟩ | ⟨idx, hsplit, hsearch⟩
  · rw [hsearch]
    exact iff_of_true (Option.some_ne_none p) (mem_keys.mpr ⟨p, hp, hkey⟩)
  · rw [hsearch]
    exact iff_of_false (not_not.mpr rfl) hsplit.notMem

/-! ### Without assertions -/

/-- An input after which no new tuple stands out of place. -/
def InPlace (cgi : CgiLib) (cfg : Config) (srv : Server) : Input → Prop
  | .line now line => ∀ t, NewLine cgi cfg srv now line t →
      InsertsLine cfg srv.store line.clock t.key
  | .event (.check _ req) => NewTuple cfg srv req →
      InsertsRequest cfg srv.store req.clock (req.tuple cfg).key
  | _ => True

/-- Without assertions nothing else is needed. -/
theorem InPlace.orderly {cgi : CgiLib} {cfg : Config} (hndebug : cfg.ndebug = true)
    {srv : Server} {i : Input} (h : InPlace cgi cfg srv i) : Orderly cgi cfg srv i := by
  cases i with
  | line now line => exact fun t ht => ⟨Or.inl hndebug, h t ht⟩
  | loaded => trivial
  | event e =>
      cases e with
      | check whitelist req => exact fun hnew => ⟨Or.inl hndebug, h hnew⟩
      | remove req => trivial
      | sigalrm now => exact Or.inl hndebug
      | sigusr2 now => exact Or.inl hndebug

/-- **The tuple space stays sorted.** In a build without assertions, take any run from
startup on in which every new tuple that meets a full pool still goes where it belongs.
Then after every step there are at most as many live tuples as the pool has room for,
they are strictly increasing, the search finds a tuple exactly when it is stored, no key
is stored twice, and no insertion ran away. -/
theorem run_sorted (cgi : CgiLib) (cfg : Config) (hndebug : cfg.ndebug = true) (srv₀ : Server)
    (hfilter : FilterOk srv₀) (hstore : srv₀.store = TupleSpace.init cfg)
    (inputs : List Input) (hal : Along (inputStep cgi cfg) (InPlace cgi cfg) srv₀ inputs)
    (done rest : List Input) (hdone : done ++ rest = inputs) :
    run (inputStep cgi cfg) srv₀ done ≠ .error .wrap ∧
      ∀ srv outs, run (inputStep cgi cfg) srv₀ done = .ok (srv, outs) →
        srv.store.poolnum ≤ cfg.poolmax ∧
        srv.store.liveTuples.length = srv.store.poolnum ∧
        Increasing srv.store ∧
        (∀ tuple, (tupleSearch srv.store tuple).1 ≠ none ↔ tuple.key ∈ srv.store.keys) ∧
        srv.store.keys.Nodup := by
  have hstart : InOrder cfg srv₀ := ⟨hfilter, 0, hstore ▸ storeOk_init cfg⟩
  have horder := (Along.of_append (hdone ▸ hal)).mono fun srv i => InPlace.orderly hndebug
  rcases run_inOrder hstart horder with ⟨srv', outs', hrun, -, top, hok⟩ | ⟨e, hrun, hforeign⟩
  · rw [hrun]
    refine ⟨fun herror => (by cases herror), fun srv outs heq => ?_⟩
    cases heq
    obtain ⟨live, free, hl⟩ := hok.layout
    exact ⟨hok.poolnum_le, hl.length_liveTuples, hok.increasing, hok.search_iff, hok.nodup⟩
  · rw [hrun]
    refine ⟨fun herror => ?_, fun srv outs heq => (by cases heq)⟩
    cases herror
    rcases hforeign with h | h <;> cases h

/-- A request that goes where it belongs, whatever is stored. -/
def Inserts (cfg : Config) (srv : Server) : Input → Prop
  | .line .. => False
  | .event (.check _ req) => InsertsRequest cfg srv.store req.clock (req.tuple cfg).key
  | _ => True

instance (cfg : Config) (srv : Server) : DecidablePred (Inserts cfg srv)
  | .line .. => instDecidableFalse
  | .loaded => instDecidableTrue
  | .event (.check _ req) =>
      inferInstanceAs (Decidable (InsertsRequest cfg srv.store req.clock (req.tuple cfg).key))
  | .event (.remove _) => instDecidableTrue
  | .event (.sigalrm _) => instDecidableTrue
  | .event (.sigusr2 _) => instDecidableTrue

theorem Inserts.inPlace (cgi : CgiLib) {cfg : Config} {srv : Server} {i : Input}
    (h : Inserts cfg srv i) : InPlace cgi cfg srv i := by
  cases i with
  | line now line => exact h.elim
  | loaded => trivial
  | event e =>
      cases e with
      | check whitelist req => exact fun _ => h
      | remove req => trivial
      | sigalrm now => trivial
      | sigusr2 now => trivial

/-- The settings with a pool of three places, in a build without assertions. -/
def smallNdebug : Config := (Config.default true).withPool 3 (by decide)

/-- Three tuples fill the pool, the one with the smallest key expires, and a fourth comes whose key
is smaller still: it goes where it belongs. -/
theorem run_sorted_full :
    ∃ srv outs, run (inputStep plainCgi smallNdebug) (Server.init smallNdebug 0)
        [.loaded, .event (.check false (letterRequest 97 120 0)),
          .event (.check false (letterRequest 98 120 20000)),
          .event (.check false (letterRequest 100 120 20000)),
          .event (.check false (letterRequest 96 120 30000))] = .ok (srv, outs) ∧
      Increasing srv.store ∧ srv.store.keys.Nodup ∧
      ((letterRequest 96 120 30000).tuple smallNdebug).key ∈ srv.store.keys := by
  let inputs : List Input := [.loaded, .event (.check false (letterRequest 97 120 0)),
    .event (.check false (letterRequest 98 120 20000)),
    .event (.check false (letterRequest 100 120 20000)),
    .event (.check false (letterRequest 96 120 30000))]
  let tuple := (letterRequest 96 120 30000).tuple smallNdebug
  obtain ⟨⟨srv, outs⟩, hrun, htest⟩ := exists_of_okAnd
    (run (inputStep plainCgi smallNdebug) (Server.init smallNdebug 0) inputs)
    (fun r => decide (tuple.key ∈ r.1.store.keys)) (by decide +kernel)
  have hal : Along (inputStep plainCgi smallNdebug) (Inserts smallNdebug)
      (Server.init smallNdebug 0) inputs := by decide +kernel
  obtain ⟨-, hsorted⟩ := run_sorted plainCgi smallNdebug rfl _ (filterOk_init _ _) rfl inputs
    (hal.mono fun _ _ => Inserts.inPlace plainCgi) inputs [] (List.append_nil _)
  obtain ⟨-, -, hincreasing, -, hnodup⟩ := hsorted srv outs hrun
  exact ⟨srv, outs, hrun, hincreasing, hnodup, of_decide_eq_true htest⟩

/-- Three tuples fill the pool, the one with the smallest key expires, and a fourth comes
whose key lies between the other two: it is inserted one place too far, and is not found
although it is stored. -/
theorem run_not_sorted :
    ∃ srv outs, run (inputStep plainCgi smallNdebug) (Server.init smallNdebug 0)
        [.loaded, .event (.check false (letterRequest 97 120 0)),
          .event (.check false (letterRequest 98 120 20000)),
          .event (.check false (letterRequest 100 120 20000)),
          .event (.check false (letterRequest 99 120 30000))] = .ok (srv, outs) ∧
      ¬ Increasing srv.store ∧
      (tupleSearch srv.store ((letterRequest 99 120 30000).tuple smallNdebug)).1 = none ∧
      ((letterRequest 99 120 30000).tuple smallNdebug).key ∈ srv.store.keys := by
  obtain ⟨⟨srv, outs⟩, hrun, htest⟩ := exists_of_okAnd
    (run (inputStep plainCgi smallNdebug) (Server.init smallNdebug 0)
      [.loaded, .event (.check false (letterRequest 97 120 0)),
        .event (.check false (letterRequest 98 120 20000)),
        .event (.check false (letterRequest 100 120 20000)),
        .event (.check false (letterRequest 99 120 30000))])
    (fun r => decide (¬ Increasing r.1.store ∧
      (tupleSearch r.1.store ((letterRequest 99 120 30000).tuple smallNdebug)).1 = none ∧
      ((letterRequest 99 120 30000).tuple smallNdebug).key ∈ r.1.store.keys))
    (by decide +kernel)
  exact ⟨srv, outs, hrun, of_decide_eq_true htest⟩

/-! ### With assertions -/

/-- A sweep stays clear of the last index: some record has not been used since the last
start, or every record is live and none is to be dropped. -/
def SweepClear (cfg : Config) (s : TupleSpace) (tao : ℤ) : Prop :=
  (∃ p < cfg.poolmax, p ∉ s.live ∧ (s.deref p).removed = false) ∨
    (s.poolnum = cfg.poolmax ∧ ∀ t ∈ s.liveTuples, due cfg tao t = false)

/-- An input that no assertion objects to: a new tuple finds room, or a full pool in which
nothing is to be dropped (and, in the whitelist file, no smaller key either), and a sweep
stays clear of the last index. -/
def Clear (cgi : CgiLib) (cfg : Config) (srv : Server) : Input → Prop
  | .line now line => ∀ t, NewLine cgi cfg srv now line t →
      srv.store.poolnum < cfg.poolmax ∨
        (∀ t' ∈ srv.store.liveTuples, due cfg line.clock t' = false ∧ ¬ t'.key < t.key)
  | .event (.check _ req) => NewTuple cfg srv req →
      srv.store.poolnum < cfg.poolmax ∨
        ∀ t ∈ srv.store.liveTuples, due cfg req.clock t = false
  | .event (.sigalrm now) => SweepClear cfg srv.store now
  | .event (.sigusr2 now) => SweepClear cfg srv.store now
  | _ => True

/-- Such an input keeps the server in order in any build. -/
theorem Clear.orderly {cgi : CgiLib} {cfg : Config} {srv : Server} {i : Input}
    (h : Clear cgi cfg srv i) : Orderly cgi cfg srv i := by
  cases i with
  | line now line =>
      intro t ht
      rcases h t ht with hlt | hkeep
      · exact ⟨Or.inr (Or.inl hlt), Or.inl hlt⟩
      · exact ⟨Or.inr (Or.inr fun t' ht' => (hkeep t' ht').1),
          Or.inr (Or.inl fun t' ht' => (hkeep t' ht').2)⟩
  | loaded => trivial
  | event e =>
      cases e with
      | check whitelist req =>
          intro hnew
          rcases h hnew with hlt | hkeep
          · exact ⟨Or.inr (Or.inl hlt), Or.inl hlt⟩
          · exact ⟨Or.inr (Or.inr hkeep), Or.inr (Or.inr fun t ht _ => hkeep t ht)⟩
      | remove req => trivial
      | sigalrm now => exact Or.inr h
      | sigusr2 now => exact Or.inr h

/-- **No assertion fails**, in any run from startup on in which no new tuple meets a full
pool with something to drop and no sweep has to fill the last index. -/
theorem run_no_assertion (cgi : CgiLib) (cfg : Config) (srv₀ : Server)
    (hfilter : FilterOk srv₀) (hstore : srv₀.store = TupleSpace.init cfg)
    (inputs : List Input) (hal : Along (inputStep cgi cfg) (Clear cgi cfg) srv₀ inputs)
    (done rest : List Input) (hdone : done ++ rest = inputs) :
    run (inputStep cgi cfg) srv₀ done ≠ .error .assertion := by
  have hstart : InOrder cfg srv₀ := ⟨hfilter, 0, hstore ▸ storeOk_init cfg⟩
  have horder := (Along.of_append (hdone ▸ hal)).mono fun srv i => Clear.orderly
  rcases run_inOrder hstart horder with ⟨srv', outs', hrun, -⟩ | ⟨e, hrun, hforeign⟩
  · rw [hrun]
    exact fun herror => by cases herror
  · rw [hrun]
    intro herror
    cases herror
    rcases hforeign with h | h <;> cases h

/-- The settings with a pool of one place, in a build with assertions. -/
def tinyConfig : Config := (Config.default false).withPool 1 Nat.one_pos

/-- A pool that is filled, and swept while nothing is to be dropped from it. -/
theorem run_no_assertion_full :
    run (inputStep plainCgi tinyConfig) (Server.init tinyConfig 0)
      [.event (.check false (letterRequest 97 98 0)), .event (.sigusr2 10)] ≠
      .error .assertion := by
  have hfull : ∀ s' o, inputStep plainCgi tinyConfig (Server.init tinyConfig 0)
      (.event (.check false (letterRequest 97 98 0))) = .ok (s', o) →
      s'.store.poolnum = tinyConfig.poolmax ∧
        ∀ t ∈ s'.store.liveTuples, due tinyConfig 10 t = false := by
    intro s' o hok
    have htest : okAnd (inputStep plainCgi tinyConfig (Server.init tinyConfig 0)
        (.event (.check false (letterRequest 97 98 0)))) (fun r =>
          decide (r.1.store.poolnum = tinyConfig.poolmax ∧
            ∀ t ∈ r.1.store.liveTuples, due tinyConfig 10 t = false)) = true := by
      decide +kernel
    rw [hok] at htest
    exact of_decide_eq_true htest
  exact run_no_assertion plainCgi tinyConfig _ (filterOk_init _ _) rfl
    [.event (.check false (letterRequest 97 98 0)), .event (.sigusr2 10)]
    ⟨fun _ => Or.inl (by decide), fun s' o hok => ⟨Or.inr (hfull s' o hok),
      fun _ _ _ => trivial⟩⟩ _ [] (List.append_nil _)

/-- A tuple fills the pool, is removed, and the next sweep reclaims its record: the bound
check fails, although the array has room for it. -/
theorem run_assertion :
    run (inputStep plainCgi tinyConfig) (Server.init tinyConfig 0)
      [.event (.check false (letterRequest 97 98 0)),
        .event (.remove (letterRequest 97 98 10)), .event (.sigalrm 20)] =
      .error .assertion := by
  decide +kernel

end XGrey
