import XGrey.TypeGreylist
import XGrey.WhitelistLoad
import XGrey.Lib.StepRun

/-!
# Runs of the Server

The server as a machine that handles one thing after the other: the lines of the whitelist
file at startup, the requests that concern tuples, and the signals that make it sweep
(`Event`, `Input`). `InOrder` is what holds of the server between two of them.

A step ends the run when it steps outside an object: `subscript` stands for a rule that is
not a verdict, `memory` for a line of the whitelist file that is too short. Neither is the
concern here. What must not happen is that an assertion fails or that an insertion runs
away.

## Main results

* `inputStep_inOrder`: a step keeps the server in order if the tuple of a request or a
  line that is new to a full pool goes where it belongs, and a sweep does not fail
  (`Orderly`).
* `run_inOrder`: so does every run of such steps.
-/

open CRuntime SortedSeq StepRun

namespace XGrey

/-! ### Events -/

/-- What the server handles once it is running, as far as tuples are concerned. -/
inductive Event
  /-- `CMD_GREYLIST` or `CMD_WHITELIST` -/
  | check (whitelist : Bool) (req : Request)
  /-- `CMD_TUPLE_REMOVE` -/
  | remove (req : Request)
  /-- `SIGALRM`, with the time -/
  | sigalrm (now : ℤ)
  /-- `SIGUSR2`, with the time -/
  | sigusr2 (now : ℤ)

/-- The type of a request for a verdict. -/
def checkCmd (whitelist : Bool) : Cmd := if whitelist then .whitelist else .greylist

/-- The type of the reply to it. -/
def checkResp (whitelist : Bool) : Cmd := if whitelist then .whitelistResp else .greylistResp

/-- One event. -/
def eventStep (cfg : Config) (srv : Server) : Event → Exec (Server × List Output)
  | .check whitelist req => do
      let (out, srv, _) ← typeGreylist cfg srv req (checkCmd whitelist) (checkResp whitelist)
      .ok (srv, out)
  | .remove req => do
      let (out, srv, _) ← typeTupleRemove cfg srv req
      .ok (srv, out)
  | .sigalrm now => do
      let srv ← handleSigalrm cfg srv now
      .ok (srv, [])
  | .sigusr2 now => do
      let srv ← handleSigusr2 cfg srv now
      .ok (srv, [])

/-- What the server handles from startup on. -/
inductive Input
  /-- A line of the whitelist file, with the time at which the loading began. -/
  | line (now : ℤ) (line : WhiteLine)
  /-- The end of the whitelist file. -/
  | loaded
  | event (e : Event)

/-- One input. -/
def inputStep (cgi : CgiLib) (cfg : Config) (srv : Server) :
    Input → Exec (Server × List Output)
  | .line now line => do
      let store ← whitelistLoadLine cgi cfg now srv.store line
      .ok ({ srv with store := store }, [])
  | .loaded => .ok ({ srv with store := whitelistLoaded srv.store }, [])
  | .event e => eventStep cfg srv e

/-! ### Order -/

/-- The server is in order: its filter is, and its store. -/
structure InOrder (cfg : Config) (srv : Server) : Prop where
  filter : FilterOk srv
  store : ∃ top, StoreOk cfg srv.store top

/-- The filter does not depend on the store. -/
theorem FilterOk.withStore {srv : Server} (h : FilterOk srv) (store : TupleSpace) :
    FilterOk { srv with store := store } :=
  ⟨h.tree, h.ipCmdcnt, h.fromL, h.fromdL, h.toL, h.todL⟩

/-- The tuple of a request is new to the server and gets to its store: the request is
accepted and no stage of the filter decides. -/
def NewTuple (cfg : Config) (srv : Server) (req : Request) : Prop :=
  req.Accepts ∧ decideStages (srv.stages (req.tuple cfg)) = .ok none ∧
    (req.tuple cfg).key ∉ srv.store.keys

/-- The tuple of a line is new to the server. -/
def NewLine (cgi : CgiLib) (cfg : Config) (srv : Server) (now : ℤ) (line : WhiteLine)
    (t : Tuple) : Prop :=
  line.tuple cgi cfg.ndebug now = .ok (some t) ∧ t.key ∉ srv.store.keys

/-- An input that leaves the server in order: a tuple that is new can be allocated and goes
where it belongs, and a sweep does not fail. -/
def Orderly (cgi : CgiLib) (cfg : Config) (srv : Server) : Input → Prop
  | .line now line => ∀ t, NewLine cgi cfg srv now line t →
      Allocates cfg srv.store line.clock ∧ InsertsLine cfg srv.store line.clock t.key
  | .loaded => True
  | .event (.check _ req) => NewTuple cfg srv req →
      Allocates cfg srv.store req.clock ∧
        InsertsRequest cfg srv.store req.clock (req.tuple cfg).key
  | .event (.remove _) => True
  | .event (.sigalrm now) => Sweeps cfg srv.store now
  | .event (.sigusr2 now) => Sweeps cfg srv.store now

/-- The ways in which a run may end here. -/
def Foreign (e : Fault) : Prop := e = .subscript ∨ e = .memory

section Steps

variable {cfg : Config} {srv : Server}

/-- A request that is not accepted changes nothing. -/
theorem typeGreylist_of_not_accepts (cfg : Config) (srv : Server) {req : Request}
    (h : ¬ req.Accepts) (cmd response : Cmd) :
    typeGreylist cfg srv req cmd response =
      .ok ([req.reply .noneResp Glerr.badData.code .none], srv, req.converted) := by
  rw [typeGreylist, greylistSanitizeReq_of_not_accepts cfg h, ok_bind]

/-- **A request for a verdict** keeps the server in order. -/
theorem check_inOrder (h : InOrder cfg srv) (whitelist : Bool) (req : Request)
    (hnew : NewTuple cfg srv req → Allocates cfg srv.store req.clock ∧
      InsertsRequest cfg srv.store req.clock (req.tuple cfg).key) :
    (∃ srv' out, eventStep cfg srv (.check whitelist req) = .ok (srv', out) ∧
        InOrder cfg srv') ∨
      eventStep cfg srv (.check whitelist req) = .error .subscript := by
  obtain ⟨hfilter, top, hstore⟩ := h
  rw [eventStep]
  by_cases hacc : req.Accepts
  · obtain ⟨srv', hfilter', -, hsame, heq⟩ :=
      typeGreylist_eq cfg hfilter hacc (checkCmd whitelist) (checkResp whitelist)
    rw [heq]
    cases hdec : decideStages (srv.stages (req.tuple cfg)) with
    | error e =>
        rw [decideStages_error hdec]
        exact Or.inr rfl
    | ok verdict =>
        refine Or.inl ?_
        cases verdict with
        | some stage =>
            exact ⟨srv', _, rfl, hfilter', top, hsame ▸ hstore⟩
        | none =>
            obtain ⟨r, s', top', hcheck, hstore'⟩ := hstore.check
              (freshTuple_requestTuple cfg req).pad (fun hkey => hnew ⟨hacc, hdec, hkey⟩)
              (checkCmd whitelist) req.now
            rw [ok_bind, answer, hsame, hcheck]
            exact ⟨{ srv' with store := s' }, _, rfl, hfilter'.withStore s', top', hstore'⟩
  · rw [typeGreylist_of_not_accepts cfg srv hacc]
    exact Or.inl ⟨srv, _, rfl, hfilter, top, hstore⟩

/-- The store after the removal of a tuple. -/
theorem StoreOk.remove {s : TupleSpace} {top : ℕ} (h : StoreOk cfg s top) (tuple : Tuple) :
    StoreOk cfg (tupleRemove s tuple) top := by
  rcases tupleSearch_spec h.length_live h.sorted tuple with
    ⟨p, hp, idx, -, hsearch⟩ | ⟨idx, -, hsearch⟩
  · rw [tupleRemove, hsearch]
    exact h.countRead.write hp rfl
  · rw [tupleRemove, hsearch]
    exact h.countRead

/-- `type_tuple_remove` on a request that is accepted. -/
theorem typeTupleRemove_of_accepts (cfg : Config) (srv : Server) {req : Request}
    (h : req.Accepts) :
    typeTupleRemove cfg srv req =
      .ok ([req.reply .tupleRemoveResp 0 .greylist],
        { srv with store := tupleRemove srv.store (req.tuple cfg) }, req.converted) := by
  rw [typeTupleRemove, greylistSanitizeReq_of_accepts cfg h, ok_bind]
  dsimp only
  rw [sendReply_eq _ _ (Int.le_refl 0), reply_converted, ok_bind]

/-- **A removal** keeps the server in order. -/
theorem remove_inOrder (h : InOrder cfg srv) (req : Request) :
    ∃ srv' out, eventStep cfg srv (.remove req) = .ok (srv', out) ∧ InOrder cfg srv' := by
  obtain ⟨hfilter, top, hstore⟩ := h
  rw [eventStep]
  by_cases hacc : req.Accepts
  · rw [typeTupleRemove_of_accepts cfg srv hacc]
    exact ⟨_, _, rfl, hfilter.withStore _, top, hstore.remove _⟩
  · rw [typeTupleRemove, greylistSanitizeReq_of_not_accepts cfg hacc]
    exact ⟨srv, _, rfl, hfilter, top, hstore⟩

/-- **The signals** keep the server in order as long as the sweep does not fail. -/
theorem sigalrm_inOrder (h : InOrder cfg srv) {now : ℤ} (hok : Sweeps cfg srv.store now) :
    ∃ srv' out, eventStep cfg srv (.sigalrm now) = .ok (srv', out) ∧ InOrder cfg srv' := by
  obtain ⟨hfilter, top, hstore⟩ := h
  have hreset : StoreOk cfg { srv.store with
      tuplesReadCucurrent := 0, tuplesWriteCucurrent := 0 } top := hstore.congr rfl rfl rfl
  obtain ⟨s', hexpire, hstore'⟩ := hreset.expire (show Sweeps cfg _ now from hok)
  rw [eventStep, handleSigalrm]
  dsimp only
  rw [hexpire]
  exact ⟨_, _, rfl,
    ⟨hfilter.tree, hfilter.ipCmdcnt, hfilter.fromL, hfilter.fromdL, hfilter.toL, hfilter.todL⟩,
    top, hstore'⟩

theorem sigusr2_inOrder (h : InOrder cfg srv) {now : ℤ} (hok : Sweeps cfg srv.store now) :
    ∃ srv' out, eventStep cfg srv (.sigusr2 now) = .ok (srv', out) ∧ InOrder cfg srv' := by
  obtain ⟨hfilter, top, hstore⟩ := h
  obtain ⟨s', hexpire, hstore'⟩ := hstore.expire hok
  rw [eventStep, handleSigusr2, hexpire]
  exact ⟨_, _, rfl, hfilter.withStore s', top, hstore'⟩

/-- **One input** keeps the server in order, or ends the run in a way that is not the
store's. -/
theorem inputStep_inOrder {cgi : CgiLib} (h : InOrder cfg srv) {i : Input}
    (hgood : Orderly cgi cfg srv i) :
    (∃ srv' out, inputStep cgi cfg srv i = .ok (srv', out) ∧ InOrder cfg srv') ∨
      ∃ e, inputStep cgi cfg srv i = .error e ∧ Foreign e := by
  cases i with
  | line now line =>
      obtain ⟨hfilter, top, hstore⟩ := h
      rw [inputStep]
      rcases whitelistLoadLine_eq hstore now (fun t ht hkey => hgood t ⟨ht, hkey⟩) with
        ⟨s', top', hline, hstore'⟩ | herror
      · rw [hline]
        exact Or.inl ⟨_, _, rfl, hfilter.withStore s', top', hstore'⟩
      · rw [herror]
        exact Or.inr ⟨_, rfl, Or.inr rfl⟩
  | loaded =>
      obtain ⟨hfilter, top, hstore⟩ := h
      exact Or.inl ⟨_, _, rfl, hfilter.withStore _, top, hstore.congr rfl rfl rfl⟩
  | event e =>
      cases e with
      | check whitelist req =>
          rcases check_inOrder h whitelist req hgood with hok | herror
          · exact Or.inl hok
          · exact Or.inr ⟨_, herror, Or.inl rfl⟩
      | remove req => exact Or.inl (remove_inOrder h req)
      | sigalrm now => exact Or.inl (sigalrm_inOrder h hgood)
      | sigusr2 now => exact Or.inl (sigusr2_inOrder h hgood)

/-- **A run** of orderly inputs leaves the server in order. -/
theorem run_inOrder {cgi : CgiLib} (h : InOrder cfg srv) {inputs : List Input}
    (hal : Along (inputStep cgi cfg) (Orderly cgi cfg) srv inputs) :
    (∃ srv' outs, run (inputStep cgi cfg) srv inputs = .ok (srv', outs) ∧
        InOrder cfg srv') ∨
      ∃ e, run (inputStep cgi cfg) srv inputs = .error e ∧ Foreign e :=
  run_safe (fun _ _ hs hi => inputStep_inOrder hs hi) h hal

end Steps

end XGrey
