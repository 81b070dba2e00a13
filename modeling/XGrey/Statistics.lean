import XGrey.Lib.PeriodCounter
import XGrey.PoolSlots
import XGrey.StageCounts
import XGrey.StoreSafety

/-!
# The Statistics of the Server

The server counts requests, and reads and writes of the tuples, by the periods between two
regular cleanups (`handle_sigalrm`), and it keeps the lowest and the highest number of tuples
since the whitelist was loaded. This is what `show stats` reports.

## Main results

* `actionStep_counts`: what one step does to the three counters.
* `run_periods`: after any run the counters are those of a ledger with the count of every
  period, and for the requests that ledger is read off the inputs (`requestLedger`).
* `run_waterMarks`: the high mark is the highest number of tuples between any two steps, and
  the low mark the lowest one, or one less: the sweep of a full pool makes room for a tuple
  before that tuple is added.
-/

open CRuntime StepRun PeriodCounter

namespace XGrey

/-! ### What the operations count -/

/-- What was read and written of the tuples. -/
structure Moves (s s' : TupleSpace) (reads writes : ℕ) : Prop where
  read : s'.tuplesRead = s.tuplesRead + reads
  readCurrent : s'.tuplesReadCucurrent = s.tuplesReadCucurrent + reads
  write : s'.tuplesWrite = s.tuplesWrite + writes
  writeCurrent : s'.tuplesWriteCucurrent = s.tuplesWriteCucurrent + writes

/-- The two marks lie on either side of the number of tuples. -/
structure MarksOk (s : TupleSpace) : Prop where
  low : s.tuplesLow ≤ s.poolnum
  high : s.poolnum ≤ s.tuplesHigh

/-- What became of the marks. The low mark may have been set one below the number of tuples
that there are in the end. -/
structure MarksFollow (s s' : TupleSpace) : Prop where
  high : s'.tuplesHigh = max s.tuplesHigh s'.poolnum
  low_le : s'.tuplesLow ≤ min s.tuplesLow s'.poolnum
  le_low : min s.tuplesLow (s'.poolnum - 1) ≤ s'.tuplesLow

section Operations

variable {cfg : Config} {s s' s₁ : TupleSpace} {m n m' n' : ℕ}

theorem moves_self (s : TupleSpace) : Moves s s 0 0 := ⟨rfl, rfl, rfl, rfl⟩

theorem Moves.trans (h : Moves s s₁ m n) (h' : Moves s₁ s' m' n') :
    Moves s s' (m + m') (n + n') where
  read := by rw [h'.read, h.read, Nat.add_assoc]
  readCurrent := by rw [h'.readCurrent, h.readCurrent, Nat.add_assoc]
  write := by rw [h'.write, h.write, Nat.add_assoc]
  writeCurrent := by rw [h'.writeCurrent, h.writeCurrent, Nat.add_assoc]

/-- Marks that are in order are so afterwards. -/
theorem MarksFollow.marksOk (h : MarksFollow s s') : MarksOk s' :=
  ⟨h.low_le.trans (Nat.min_le_right ..), h.high ▸ Nat.le_max_right ..⟩

/-- Nothing happens to the marks while the number of tuples stays the same. -/
theorem MarksOk.follow (h : MarksOk s) (hnum : s'.poolnum = s.poolnum)
    (hlow : s'.tuplesLow = s.tuplesLow) (hhigh : s'.tuplesHigh = s.tuplesHigh) :
    MarksFollow s s' where
  high := by
    rw [hhigh, hnum, max_eq_left h.high]
  low_le := by
    rw [hlow, hnum, min_eq_left h.low]
  le_low := by
    rw [hlow]
    exact Nat.min_le_left ..

/-- **A sweep**, if it returns. -/
theorem expire_moves (h : HasLayout cfg s) {tao : ℤ} (hok : tupleExpire cfg s tao = .ok s') :
    Moves s s' 0 1 ∧ s'.tuplesHigh = max s.tuplesHigh s'.poolnum ∧
      s'.tuplesLow = min s.tuplesLow s'.poolnum ∧ s'.poolnum ≤ s.poolnum := by
  obtain ⟨live, free, top, hl⟩ := h
  rw [tupleExpire_inv hl hok]
  have hswept : Swept cfg tao s (sweptStore cfg tao s top) := swept_sweptStore tao hl.liveSlots
  have hnum : (sweptStore cfg tao s top).poolnum ≤ s.poolnum := by
    rw [poolnum_sweptStore hl]
    exact Nat.sub_le _ _
  generalize sweptStore cfg tao s top = s₁ at hswept hnum
  have hrest := hswept.rest
  have hread := congrArg TupleSpace.tuplesRead hrest
  have hreadCurrent := congrArg TupleSpace.tuplesReadCucurrent hrest
  have hwrite := congrArg TupleSpace.tuplesWrite hrest
  have hwriteCurrent := congrArg TupleSpace.tuplesWriteCucurrent hrest
  have hhigh := congrArg TupleSpace.tuplesHigh hrest
  have hlow := congrArg TupleSpace.tuplesLow hrest
  exact ⟨⟨hread, hreadCurrent, hwrite, hwriteCurrent⟩, hhigh, hlow, hnum⟩

/-- **An allocation**, if it returns, leaves the marks where the tuple will be added. -/
theorem allocate_moves (h : HasLayout cfg s) {clock : ℤ} {p : ℕ}
    (hok : tupleAllocate cfg s clock = .ok (p, s')) :
    (∃ writes, Moves s s' 0 writes) ∧
      (MarksOk s → s'.tuplesHigh = s.tuplesHigh ∧ s'.tuplesLow ≤ min s.tuplesLow s'.poolnum ∧
        min s.tuplesLow s'.poolnum ≤ s'.tuplesLow) := by
  rw [tupleAllocate] at hok
  obtain ⟨_, -, hok⟩ := bind_eq_ok.mp hok
  by_cases hfull : s.poolnum = cfg.poolmax
  · rw [if_pos hfull] at hok
    obtain ⟨s₁, hexpire, hok⟩ := bind_eq_ok.mp hok
    obtain ⟨hmoves, hhigh, hlow, hnum⟩ := expire_moves h hexpire
    have hsame : MarksOk s → s₁.tuplesHigh = s.tuplesHigh := fun hmarks => by
      rw [hhigh, max_eq_left (hnum.trans hmarks.high)]
    split_ifs at hok with hstill
    · -- the store starts over
      cases hok
      refine ⟨⟨1, hmoves.read, hmoves.readCurrent, hmoves.write, hmoves.writeCurrent⟩,
        fun hmarks => ⟨hsame hmarks, Nat.zero_le _, ?_⟩⟩
      exact Nat.min_le_right ..
    · cases hok
      exact ⟨⟨1, hmoves⟩, fun hmarks => ⟨hsame hmarks, hlow.le, hlow.ge⟩⟩
  · rw [if_neg hfull] at hok
    cases hok
    refine ⟨⟨0, moves_self s⟩, fun hmarks => ⟨rfl, ?_, Nat.min_le_left ..⟩⟩
    exact le_min (le_refl _) hmarks.low

/-- **An insertion** after an allocation. -/
theorem newSlot_moves (h : HasLayout cfg s) {tuple : Tuple} {clock : ℤ} {idx : ℕ}
    (hnew : NewSlot cfg s tuple clock idx s₁) (t : Tuple) (idx' : ℕ) :
    (∃ writes, Moves s (insertedStore s₁ t idx') 1 writes) ∧
      (MarksOk s → MarksFollow s (insertedStore s₁ t idx')) := by
  have hread : HasLayout cfg s.countRead := by
    obtain ⟨live, free, top, hl⟩ := h
    exact ⟨live, free, top, hl.countRead⟩
  obtain ⟨⟨writes, hmoves⟩, hmarks⟩ := allocate_moves hread hnew.allocate
  have hcount : Moves s s.countRead 1 0 := ⟨rfl, rfl, rfl, rfl⟩
  have hadd : Moves s₁ (insertedStore s₁ t idx') 0 1 := ⟨rfl, rfl, rfl, rfl⟩
  refine ⟨⟨_, (hcount.trans hmoves).trans hadd⟩, fun hok => ?_⟩
  obtain ⟨hhigh, hlow, hlow'⟩ := hmarks ⟨hok.low, hok.high⟩
  have hhigh' : s₁.tuplesHigh = s.tuplesHigh := hhigh
  exact
    { high := by
        change max s₁.tuplesHigh (s₁.poolnum + 1) = max s.tuplesHigh (s₁.poolnum + 1)
        rw [hhigh']
      low_le := hlow.trans (min_le_min_left _ (Nat.le_succ _))
      le_low := hlow' }

/-- **A request for a verdict**, if it returns. -/
theorem check_moves (h : HasLayout cfg s) {tuple : Tuple} {cmd : Cmd} {now clock : ℤ}
    {r : ℤ × Reason} (hok : typeGreylistCheckTuple cfg s tuple cmd now clock = .ok (r, s')) :
    (∃ writes, Moves s s' 1 writes) ∧ (MarksOk s → MarksFollow s s') := by
  obtain ⟨live, free, top, hl⟩ := h
  rcases typeGreylistCheckTuple_inv hl hok with ⟨p, hp, -, rfl⟩ | ⟨idx, s₁, hnew, rfl⟩
  · rw [hitStore_eq (HasLayout.lt_of_mem_live ⟨live, free, top, hl⟩ hp)]
    exact ⟨⟨0, rfl, rfl, rfl, rfl⟩, fun hmarks => hmarks.follow rfl rfl rfl⟩
  · obtain ⟨⟨writes, hmoves⟩, hfollow⟩ := newSlot_moves ⟨live, free, top, hl⟩ hnew
      (missTuple cmd tuple) (insertIndex s₁ idx)
    obtain ⟨live₁, free₁, top₁, hl₁⟩ := hnew.layout
    rw [missStore_eq hl₁ hnew.room]
    exact ⟨⟨writes, hmoves.read, hmoves.readCurrent, hmoves.write, hmoves.writeCurrent⟩,
      fun hmarks => ⟨(hfollow hmarks).high, (hfollow hmarks).low_le, (hfollow hmarks).le_low⟩⟩

/-- **A removal.** -/
theorem remove_moves (h : HasLayout cfg s) (tuple : Tuple) :
    Moves s (tupleRemove s tuple) 1 0 ∧ (MarksOk s → MarksFollow s (tupleRemove s tuple)) := by
  obtain ⟨live, free, top, hl⟩ := h
  rcases tupleSearch_cases hl tuple with ⟨p, idx, hsearch, -, -⟩ | ⟨idx, hsearch, -⟩
  · rw [tupleRemove, hsearch]
    exact ⟨⟨rfl, rfl, rfl, rfl⟩, fun hmarks => hmarks.follow rfl rfl rfl⟩
  · rw [tupleRemove, hsearch]
    exact ⟨⟨rfl, rfl, rfl, rfl⟩, fun hmarks => hmarks.follow rfl rfl rfl⟩

/-- **A line of the whitelist file**, if it is loaded. -/
theorem line_moves (h : HasLayout cfg s) {cgi : CgiLib} {now : ℤ} {line : WhiteLine}
    (hok : whitelistLoadLine cgi cfg now s line = .ok s') : ∃ reads writes,
      Moves s s' reads writes := by
  rcases whitelistLoadLine_inv hok with rfl | ⟨tuple, -, hload⟩
  · exact ⟨0, 0, moves_self _⟩
  · obtain ⟨live, free, top, hl⟩ := h
    rcases whitelistLoadTuple_inv hl hload with ⟨p, -, -, rfl⟩ | ⟨idx, s₁, hnew, rfl⟩
    · refine ⟨1, 0, ?_⟩
      rw [confirm]
      split_ifs <;> exact ⟨rfl, rfl, rfl, rfl⟩
    · obtain ⟨⟨writes, hmoves⟩, -⟩ := newSlot_moves ⟨live, free, top, hl⟩ hnew
        (tuple.setFlag fWhitelist) idx
      exact ⟨1, writes, hmoves.read, hmoves.readCurrent, hmoves.write, hmoves.writeCurrent⟩

/-- The loop of `whitelist_load`, if it returns. -/
theorem lines_moves {cgi : CgiLib} {now : ℤ} {lines : List WhiteLine} (h : HasLayout cfg s)
    (hok : lines.foldlM (whitelistLoadLine cgi cfg now) s = .ok s') :
    ∃ reads writes, Moves s s' reads writes := by
  induction lines generalizing s with
  | nil =>
      cases hok
      exact ⟨0, 0, moves_self _⟩
  | cons line lines ih =>
      rw [List.foldlM_cons] at hok
      obtain ⟨s₁, hline, hok⟩ := bind_eq_ok.mp hok
      obtain ⟨m, n, hfirst⟩ := line_moves h hline
      obtain ⟨m', n', hrest⟩ := ih (h.line hline) hok
      exact ⟨_, _, hfirst.trans hrest⟩

end Operations

/-! ### What a step counts -/

/-- `g_requests` and what belongs to it. -/
def Server.requestCounter (srv : Server) : Counter where
  total := srv.requests
  current := srv.reqCucurrent
  last := srv.reqCu
  peak := srv.reqCumax

/-- `g_tuples_read` and what belongs to it. -/
def Server.readCounter (srv : Server) : Counter where
  total := srv.store.tuplesRead
  current := srv.store.tuplesReadCucurrent
  last := srv.tuplesReadCu
  peak := srv.tuplesReadCumax

/-- `g_tuples_write` and what belongs to it. -/
def Server.writeCounter (srv : Server) : Counter where
  total := srv.store.tuplesWrite
  current := srv.store.tuplesWriteCucurrent
  last := srv.tuplesWriteCu
  peak := srv.tuplesWriteCumax

/-- What is counted by a step within a period. -/
structure Counts (srv srv' : Server) (requests reads writes : ℕ) : Prop where
  request : srv'.requestCounter = srv.requestCounter.add requests
  read : srv'.readCounter = srv.readCounter.add reads
  write : srv'.writeCounter = srv.writeCounter.add writes
  cleanup : srv'.cleanupCount = srv.cleanupCount

/-- A request that asks for a verdict and is accepted. -/
def Request.Asks (req : Request) (type : Option Cmd) : Prop :=
  (type = some .greylist ∨ type = some .whitelist) ∧ req.Accepts

instance (req : Request) (type : Option Cmd) : Decidable (req.Asks type) :=
  inferInstanceAs (Decidable (_ ∧ _))

/-- What an input means for the ledger of the requests. -/
def ledgerStep (l : Ledger) : Action → Ledger
  | .request req _ type => l.count (if req.Asks type then 1 else 0)
  | .sigalrm _ => l.turn
  | _ => l

/-- The ledger of the requests, by the inputs: every request that is accepted is counted in the
period in which it comes, and a regular cleanup ends the period. -/
def requestLedger (actions : List Action) : Ledger := actions.foldl ledgerStep Ledger.empty

section Steps

variable {cgi : CgiLib} {cfg : Config} {srv srv' : Server}

theorem counts_self (srv : Server) : Counts srv srv 0 0 0 := ⟨rfl, rfl, rfl, rfl⟩

/-- A step that only concerns the store. -/
theorem Moves.counts {s : TupleSpace} {m n : ℕ} (h : Moves srv.store s m n) :
    Counts srv { srv with store := s } 0 m n where
  request := rfl
  read := Counter.ext h.read h.readCurrent rfl rfl
  write := Counter.ext h.write h.writeCurrent rfl rfl
  cleanup := rfl

theorem Counts.setStore {n : ℕ} (h : Counts srv srv' n 0 0) {s : TupleSpace} {m k : ℕ}
    (hmoves : Moves srv.store s m k) : Counts srv { srv' with store := s } n m k := by
  have hreadLast : srv'.tuplesReadCu = srv.tuplesReadCu := congrArg Counter.last h.read
  have hreadPeak : srv'.tuplesReadCumax = srv.tuplesReadCumax := congrArg Counter.peak h.read
  have hwriteLast : srv'.tuplesWriteCu = srv.tuplesWriteCu := congrArg Counter.last h.write
  have hwritePeak : srv'.tuplesWriteCumax = srv.tuplesWriteCumax :=
    congrArg Counter.peak h.write
  exact ⟨h.request, Counter.ext hmoves.read hmoves.readCurrent hreadLast hreadPeak,
    Counter.ext hmoves.write hmoves.writeCurrent hwriteLast hwritePeak, h.cleanup⟩

/-- **The filter** counts its request. -/
theorem filterTuple_counts {tuple : Tuple} {verdict : Option (ℤ × Reason)}
    (h : filterTuple cfg srv tuple = .ok (verdict, srv')) :
    Counts srv srv' 1 0 0 ∧ srv'.store = srv.store := by
  rw [filterTuple] at h
  obtain ⟨⟨rc, tree⟩, -, h⟩ := bind_eq_ok.mp h
  obtain ⟨cnt, -, h⟩ := bind_eq_ok.mp h
  dsimp only at h
  split_ifs at h with hrc
  · cases h
    exact ⟨⟨rfl, rfl, rfl, rfl⟩, rfl⟩
  · obtain ⟨⟨sender, fromL, fromdL⟩, -, h⟩ := bind_eq_ok.mp h
    cases sender with
    | some stage =>
        cases h
        exact ⟨⟨rfl, rfl, rfl, rfl⟩, rfl⟩
    | none =>
        obtain ⟨⟨recipient, toL, todL⟩, -, h⟩ := bind_eq_ok.mp h
        cases h
        exact ⟨⟨rfl, rfl, rfl, rfl⟩, rfl⟩

/-- **A request for a verdict** is counted when it is accepted. -/
theorem typeGreylist_counts (h : HasLayout cfg srv.store) {req req' : Request}
    {cmd response : Cmd} {out : List Output}
    (hok : typeGreylist cfg srv req cmd response = .ok (out, srv', req')) :
    ∃ reads writes, Counts srv srv' (if req.Accepts then 1 else 0) reads writes := by
  by_cases hacc : req.Accepts
  · rw [typeGreylist_filterTuple cfg srv hacc] at hok
    obtain ⟨⟨verdict, srv₁⟩, hfilter, hok⟩ := bind_eq_ok.mp hok
    obtain ⟨hcounts, hstore⟩ := filterTuple_counts hfilter
    rw [if_pos hacc]
    cases verdict with
    | some stage =>
        obtain ⟨out', -, hok⟩ := bind_eq_ok.mp hok
        cases hok
        exact ⟨0, 0, hcounts⟩
    | none =>
        obtain ⟨⟨⟨rc, why⟩, s⟩, hcheck, hok⟩ := bind_eq_ok.mp hok
        obtain ⟨out', -, hok⟩ := bind_eq_ok.mp hok
        cases hok
        rw [hstore] at hcheck
        obtain ⟨⟨writes, hmoves⟩, -⟩ := check_moves h hcheck
        exact ⟨1, writes, hcounts.setStore hmoves⟩
  · rw [typeGreylist_of_not_accepts cfg srv hacc] at hok
    cases hok
    rw [if_neg hacc]
    exact ⟨0, 0, counts_self _⟩

/-- **A request of any type**, if it returns. -/
theorem dispatch_counts (h : HasLayout cfg srv.store) {req req' : Request} {canReport : Bool}
    {type : Option Cmd} {out : List Output}
    (hok : dispatch cfg srv req canReport type = .ok (out, srv', req')) :
    ∃ reads writes, Counts srv srv' (if req.Asks type then 1 else 0) reads writes := by
  by_cases hgrey : type = some .greylist
  · subst hgrey
    simpa [Request.Asks] using typeGreylist_counts h hok
  by_cases hwhite : type = some .whitelist
  · subst hwhite
    simpa [Request.Asks] using typeGreylist_counts h hok
  rw [if_neg fun hasks => hasks.1.elim hgrey hwhite]
  have hstep := dispatch_inv hok
  cases hstep with
  | same => exact ⟨0, 0, counts_self _⟩
  | check whitelist =>
      cases whitelist with
      | false => exact absurd rfl hgrey
      | true => exact absurd rfl hwhite
  | remove hacc => exact ⟨1, 0, (remove_moves h _).1.counts⟩
  | iplist l => exact ⟨0, 0, rfl, rfl, rfl, rfl⟩
  | tofrom name text l => exact ⟨0, 0, by cases name <;> exact ⟨rfl, rfl, rfl, rfl⟩⟩

/-- **One step** other than a regular cleanup. -/
theorem actionStep_counts (h : HasLayout cfg srv.store) {a : Action} {out : List Output}
    (hnot : ∀ now, a ≠ .sigalrm now) (hok : actionStep cgi cfg srv a = .ok (srv', out)) :
    ∃ requests reads writes, Counts srv srv' requests reads writes ∧
      ∀ l : Ledger, (ledgerStep l a).counter = l.counter.add requests ∧
        (ledgerStep l a).closed = l.closed := by
  cases a with
  | sigalrm now => exact absurd rfl (hnot now)
  | iplistRead ip lines =>
      obtain ⟨⟨l, whole⟩, -, hok⟩ := bind_eq_ok.mp hok
      cases hok
      exact ⟨0, 0, 0, ⟨rfl, rfl, rfl, rfl⟩, fun l => ⟨rfl, rfl⟩⟩
  | tofromRead name lines =>
      obtain ⟨srv₁, hlist, hok⟩ := bind_eq_ok.mp hok
      cases hok
      obtain ⟨l, -, hlist⟩ := bind_eq_ok.mp hlist
      cases hlist
      exact ⟨0, 0, 0, by cases name <;> exact ⟨rfl, rfl, rfl, rfl⟩, fun l => ⟨rfl, rfl⟩⟩
  | whitelistLoad now lines =>
      obtain ⟨store, hload, hok⟩ := bind_eq_ok.mp hok
      cases hok
      obtain ⟨s, hlines, hload⟩ := bind_eq_ok.mp hload
      cases hload
      obtain ⟨reads, writes, hmoves⟩ := lines_moves h hlines
      have hloaded : Moves srv.store (whitelistLoaded s) reads writes :=
        ⟨hmoves.read, hmoves.readCurrent, hmoves.write, hmoves.writeCurrent⟩
      exact ⟨0, reads, writes, hloaded.counts, fun l => ⟨rfl, rfl⟩⟩
  | request req canReport type =>
      obtain ⟨⟨out', srv₁, req'⟩, hdispatch, hok⟩ := bind_eq_ok.mp hok
      cases hok
      obtain ⟨reads, writes, hcounts⟩ := dispatch_counts h hdispatch
      exact ⟨_, reads, writes, hcounts, fun l => ⟨Ledger.counter_count .., rfl⟩⟩
  | sigusr2 now =>
      obtain ⟨srv₁, hsweep, hok⟩ := bind_eq_ok.mp hok
      cases hok
      obtain ⟨store, hexpire, hsweep⟩ := bind_eq_ok.mp hsweep
      cases hsweep
      exact ⟨0, 0, 1, (expire_moves h hexpire).1.counts, fun l => ⟨rfl, rfl⟩⟩

/-- **A regular cleanup** ends the period. Its own write belongs to the next one. -/
theorem sigalrm_counts (h : HasLayout cfg srv.store) {now : ℤ} {out : List Output}
    (hok : actionStep cgi cfg srv (.sigalrm now) = .ok (srv', out)) :
    srv'.requestCounter = srv.requestCounter.close ∧
      srv'.readCounter = srv.readCounter.close ∧
      srv'.writeCounter = srv.writeCounter.close.add 1 ∧
      srv'.cleanupCount = srv.cleanupCount + 1 := by
  obtain ⟨srv₁, hsweep, hok⟩ := bind_eq_ok.mp hok
  cases hok
  obtain ⟨s, hexpire, hsweep⟩ := bind_eq_ok.mp hsweep
  cases hsweep
  have hreset : HasLayout cfg { srv.store with
      tuplesReadCucurrent := 0, tuplesWriteCucurrent := 0 } := h.congr rfl rfl rfl
  obtain ⟨hmoves, -⟩ := expire_moves hreset hexpire
  exact ⟨rfl, Counter.ext hmoves.read hmoves.readCurrent rfl rfl,
    Counter.ext hmoves.write hmoves.writeCurrent rfl rfl, rfl⟩

end Steps

/-! ### Runs -/

/-- The counters of a server are those of three ledgers with a period for each regular
cleanup. -/
structure Kept (srv : Server) (requests reads writes : Ledger) : Prop where
  request : srv.requestCounter = requests.counter
  read : srv.readCounter = reads.counter
  write : srv.writeCounter = writes.counter
  requestPeriods : requests.closed.length = srv.cleanupCount
  readPeriods : reads.closed.length = srv.cleanupCount
  writePeriods : writes.closed.length = srv.cleanupCount

/-- The average that is reported is the mean of the periods that are over. -/
theorem Kept.average {srv : Server} {requests reads writes : Ledger}
    (h : Kept srv requests reads writes) : srv.requestsAverage = requests.mean := by
  have htotal : srv.requests = requests.closed.sum + requests.current :=
    congrArg Counter.total h.request
  have hcurrent : srv.reqCucurrent = requests.current := congrArg Counter.current h.request
  rw [Server.requestsAverage, Ledger.mean, h.requestPeriods, htotal, hcurrent,
    Nat.add_sub_cancel]

section Runs

variable {cgi : CgiLib} {cfg : Config} {srv srv' : Server}

/-- **One step** keeps the ledgers. -/
theorem Kept.actionStep {requests reads writes : Ledger} (h : Kept srv requests reads writes)
    (hlayout : HasLayout cfg srv.store) {a : Action} {out : List Output}
    (hok : actionStep cgi cfg srv a = .ok (srv', out)) :
    ∃ reads' writes', Kept srv' (ledgerStep requests a) reads' writes' := by
  by_cases halarm : ∃ now, a = .sigalrm now
  · obtain ⟨now, rfl⟩ := halarm
    obtain ⟨hrequest, hread, hwrite, hcleanup⟩ := sigalrm_counts hlayout hok
    refine ⟨reads.turn, writes.turn.count 1, ?_, ?_, ?_, ?_, ?_, ?_⟩
    · rw [hrequest, h.request]
      exact (Ledger.counter_turn requests).symm
    · rw [hread, h.read, Ledger.counter_turn]
    · rw [hwrite, h.write, Ledger.counter_count, Ledger.counter_turn]
    · rw [hcleanup, ← h.requestPeriods]
      rfl
    · rw [hcleanup, ← h.readPeriods]
      rfl
    · rw [hcleanup, ← h.writePeriods]
      rfl
  · obtain ⟨n, m, k, hcounts, hledger⟩ :=
      actionStep_counts hlayout (fun now hnow => halarm ⟨now, hnow⟩) hok
    obtain ⟨hcounter, hclosed⟩ := hledger requests
    refine ⟨reads.count m, writes.count k, ?_, ?_, ?_, ?_, ?_, ?_⟩
    · rw [hcounts.request, h.request, hcounter]
    · rw [hcounts.read, h.read, Ledger.counter_count]
    · rw [hcounts.write, h.write, Ledger.counter_count]
    · rw [hclosed, hcounts.cleanup, h.requestPeriods]
    · rw [hcounts.cleanup]
      exact h.readPeriods
    · rw [hcounts.cleanup]
      exact h.writePeriods

end Runs

/-- **The statistics by periods.** After any run of the server the counters of the requests are
those of the ledger that is read off the inputs: the total, the count of the current period and
of the last one, and the highest count of any. The average that is reported is the rounded mean
of the periods that are over, and so within one half of the exact one. The counters of reads and
writes are those of a ledger with the same periods. -/
theorem run_periods (cgi : CgiLib) (cfg : Config) (starttime : ℤ) (actions : List Action)
    (srv : Server) (outs : List (List Output))
    (hrun : run (actionStep cgi cfg) (Server.init cfg starttime) actions = .ok (srv, outs)) :
    (∃ reads writes, Kept srv (requestLedger actions) reads writes) ∧
      srv.requestsAverage = (requestLedger actions).mean ∧
      ((requestLedger actions).closed ≠ [] →
        (requestLedger actions).NearMean srv.requestsAverage) := by
  have hstep : ∀ past srv a srv' out,
      (HasLayout cfg (Server.store srv) ∧
        ∃ reads writes, Kept srv (requestLedger past) reads writes) →
      actionStep cgi cfg srv a = .ok (srv', out) →
      HasLayout cfg srv'.store ∧
        ∃ reads writes, Kept srv' (requestLedger (past ++ [a])) reads writes := by
    rintro past srv a srv' out ⟨hlayout, reads, writes, hkept⟩ hok
    rw [requestLedger, List.foldl_append]
    exact ⟨actionStep_hasLayout hlayout hok, hkept.actionStep hlayout hok⟩
  have hinit : Kept (Server.init cfg starttime) (requestLedger []) Ledger.empty Ledger.empty :=
    ⟨rfl, rfl, rfl, rfl, rfl, rfl⟩
  have h : HasLayout cfg srv.store ∧
      ∃ reads writes, Kept srv (requestLedger ([] ++ actions)) reads writes :=
    run_history hstep ⟨hasLayout_init cfg, _, _, hinit⟩ hrun
  obtain ⟨reads, writes, hkept⟩ := h.2
  refine ⟨⟨reads, writes, hkept⟩, hkept.average, fun hclosed => ?_⟩
  rw [hkept.average]
  exact Ledger.nearMean_mean _ hclosed

/-- Two letters in one period, and a third one in the next. -/
theorem run_periods_letters : ∃ srv : Server, srv.requests = 3 ∧
    srv.requestsAverage = (requestLedger
      [.request (letterRequest 97 98 0) false (some .greylist),
        .request (letterRequest 97 99 1) false (some .greylist), .sigalrm 60,
        .request (letterRequest 97 98 61) false (some .greylist)]).mean := by
  obtain ⟨⟨srv, outs⟩, hrun, htest⟩ := exists_of_okAnd
    (run (actionStep plainCgi smallConfig) (Server.init smallConfig 0)
      [.request (letterRequest 97 98 0) false (some .greylist),
        .request (letterRequest 97 99 1) false (some .greylist), .sigalrm 60,
        .request (letterRequest 97 98 61) false (some .greylist)])
    (fun r => decide (r.1.requests = 3)) (by decide +kernel)
  exact ⟨srv, of_decide_eq_true htest, (run_periods plainCgi smallConfig 0 _ srv outs hrun).2.1⟩

/-! ### The marks -/

/-- What a request does to the store follows the marks. -/
theorem StoreStep.marks {cfg : Config} {s s' : TupleSpace} {req : Request}
    {type : Option Cmd} (hstep : StoreStep cfg s req type s') (h : HasLayout cfg s)
    (hmarks : MarksOk s) : MarksFollow s s' := by
  cases hstep with
  | same => exact hmarks.follow rfl rfl rfl
  | check whitelist r s' hacc hok => exact (check_moves h hok).2 hmarks
  | remove hacc => exact (remove_moves h _).2 hmarks

/-- **One step** other than a load of the whitelist. -/
theorem actionStep_marks {cgi : CgiLib} {cfg : Config} {srv srv' : Server}
    (h : HasLayout cfg srv.store) (hmarks : MarksOk srv.store) {a : Action} {out : List Output}
    (hnot : ∀ now lines, a ≠ .whitelistLoad now lines)
    (hok : actionStep cgi cfg srv a = .ok (srv', out)) : MarksFollow srv.store srv'.store := by
  have hsame : MarksFollow srv.store srv.store := hmarks.follow rfl rfl rfl
  have hexpired {s s' : TupleSpace} {tao : ℤ} (h : HasLayout cfg s) (hmarks : MarksOk s)
      (hok : tupleExpire cfg s tao = .ok s') : MarksFollow s s' := by
    obtain ⟨-, hhigh, hlow, -⟩ := expire_moves h hok
    refine ⟨hhigh, hlow.le, ?_⟩
    rw [hlow]
    exact min_le_min_left _ (Nat.sub_le _ _)
  cases a with
  | whitelistLoad now lines => exact absurd rfl (hnot now lines)
  | iplistRead ip lines =>
      obtain ⟨⟨l, whole⟩, -, hok⟩ := bind_eq_ok.mp hok
      cases hok
      exact hsame
  | tofromRead name lines =>
      obtain ⟨srv₁, hlist, hok⟩ := bind_eq_ok.mp hok
      cases hok
      obtain ⟨l, -, hlist⟩ := bind_eq_ok.mp hlist
      cases hlist
      rw [store_setList]
      exact hsame
  | request req canReport type =>
      obtain ⟨⟨out', srv₁, req'⟩, hdispatch, hok⟩ := bind_eq_ok.mp hok
      cases hok
      exact (dispatch_store hdispatch).marks h hmarks
  | sigalrm now =>
      obtain ⟨srv₁, hsweep, hok⟩ := bind_eq_ok.mp hok
      cases hok
      obtain ⟨s, hexpire, hsweep⟩ := bind_eq_ok.mp hsweep
      cases hsweep
      have hreset : HasLayout cfg { srv.store with
          tuplesReadCucurrent := 0, tuplesWriteCucurrent := 0 } := h.congr rfl rfl rfl
      have hfollow := hexpired hreset ⟨hmarks.low, hmarks.high⟩ hexpire
      exact ⟨hfollow.high, hfollow.low_le, hfollow.le_low⟩
  | sigusr2 now =>
      obtain ⟨srv₁, hsweep, hok⟩ := bind_eq_ok.mp hok
      cases hok
      obtain ⟨s, hexpire, hsweep⟩ := bind_eq_ok.mp hsweep
      cases hsweep
      exact hexpired h hmarks hexpire

/-- The marks of a run whose steps all follow them, from a state in which they are in order. -/
theorem marks_run {cgi : CgiLib} {cfg : Config} {srv srv' : Server} {actions : List Action}
    {outs : List (List Output)} (h : HasLayout cfg srv.store) (hmarks : MarksOk srv.store)
    (hnot : ∀ a ∈ actions, ∀ now lines, a ≠ .whitelistLoad now lines)
    (hrun : run (actionStep cgi cfg) srv actions = .ok (srv', outs)) :
    (srv'.store.tuplesHigh = srv.store.tuplesHigh ∨
        ∃ u ∈ states (actionStep cgi cfg) srv actions,
          srv'.store.tuplesHigh = u.store.poolnum) ∧
      srv.store.tuplesHigh ≤ srv'.store.tuplesHigh ∧
      (srv.store.tuplesLow ≤ srv'.store.tuplesLow ∨
        ∃ u ∈ states (actionStep cgi cfg) srv actions,
          u.store.poolnum - 1 ≤ srv'.store.tuplesLow) ∧
      srv'.store.tuplesLow ≤ srv.store.tuplesLow ∧
      ∀ u ∈ states (actionStep cgi cfg) srv actions,
        srv'.store.tuplesLow ≤ u.store.poolnum ∧ u.store.poolnum ≤ srv'.store.tuplesHigh := by
  induction actions generalizing srv outs with
  | nil =>
      cases hrun
      refine ⟨Or.inl rfl, le_refl _, Or.inl (le_refl _), le_refl _, fun u hu => ?_⟩
      rw [states, List.mem_singleton] at hu
      subst hu
      exact ⟨hmarks.low, hmarks.high⟩
  | cons a actions ih =>
      obtain ⟨srv₁, out, outs', hok, hrest, rfl⟩ := run_cons_inv hrun
      obtain ⟨hnota, hnot⟩ := List.forall_mem_cons.mp hnot
      have hstep := actionStep_marks h hmarks hnota hok
      obtain ⟨hhigh, hgrow, hlow, hfall, hall⟩ :=
        ih (actionStep_hasLayout h hok) hstep.marksOk hnot hrest
      rw [states_cons_of_ok actions hok]
      have hstart : srv₁ ∈ states (actionStep cgi cfg) srv₁ actions := by
        cases actions <;> simp [states]
      have hhigh₁ : srv.store.tuplesHigh ≤ srv₁.store.tuplesHigh :=
        hstep.high ▸ Nat.le_max_left ..
      have hlow₁ : srv₁.store.tuplesLow ≤ srv.store.tuplesLow :=
        hstep.low_le.trans (Nat.min_le_left ..)
      refine ⟨?_, hhigh₁.trans hgrow, ?_, hfall.trans hlow₁, fun u hu => ?_⟩
      · rcases hhigh with hhigh | ⟨u, hu, hhigh⟩
        · rcases max_choice srv.store.tuplesHigh srv₁.store.poolnum with hmax | hmax
          · exact Or.inl (hhigh.trans (hstep.high.trans hmax))
          · exact Or.inr ⟨srv₁, List.mem_cons_of_mem _ hstart,
              hhigh.trans (hstep.high.trans hmax)⟩
        · exact Or.inr ⟨u, List.mem_cons_of_mem _ hu, hhigh⟩
      · rcases hlow with hlow | ⟨u, hu, hlow⟩
        · rcases min_choice srv.store.tuplesLow (srv₁.store.poolnum - 1) with hmin | hmin
          · exact Or.inl (hmin ▸ hstep.le_low.trans hlow)
          · exact Or.inr ⟨srv₁, List.mem_cons_of_mem _ hstart,
              hmin ▸ hstep.le_low.trans hlow⟩
        · exact Or.inr ⟨u, List.mem_cons_of_mem _ hu, hlow⟩
      · rcases List.mem_cons.mp hu with rfl | hu
        · exact ⟨(hfall.trans hlow₁).trans hmarks.low, hmarks.high.trans (hhigh₁.trans hgrow)⟩
        · exact hall u hu

/-- A load of the whitelist sets both marks to the number of tuples. -/
theorem whitelistLoad_marks {cgi : CgiLib} {cfg : Config} {srv srv' : Server} {now : ℤ}
    {lines : List WhiteLine} {out : List Output}
    (hok : actionStep cgi cfg srv (.whitelistLoad now lines) = .ok (srv', out)) :
    srv'.store.tuplesLow = srv'.store.poolnum ∧ srv'.store.tuplesHigh = srv'.store.poolnum := by
  obtain ⟨store, hload, hok⟩ := bind_eq_ok.mp hok
  cases hok
  obtain ⟨s, -, hload⟩ := bind_eq_ok.mp hload
  cases hload
  exact ⟨rfl, rfl⟩

/-- **The marks over a run.** Let the whitelist be loaded in any state of the server, and let
any run follow in which it is not loaded again. Then the high mark is the highest number of
tuples between two steps of that run, and no number of tuples was under the low mark, which is
the lowest of them or one less. -/
theorem run_waterMarks (cgi : CgiLib) (cfg : Config) (starttime : ℤ) (before after : List Action)
    (now : ℤ) (lines : List WhiteLine) (srv₁ srv₀ srv : Server) (outs₁ outs : List (List Output))
    (out : List Output)
    (hbefore : run (actionStep cgi cfg) (Server.init cfg starttime) before = .ok (srv₁, outs₁))
    (hload : actionStep cgi cfg srv₁ (.whitelistLoad now lines) = .ok (srv₀, out))
    (hnot : ∀ a ∈ after, ∀ now lines, a ≠ .whitelistLoad now lines)
    (hrun : run (actionStep cgi cfg) srv₀ after = .ok (srv, outs)) :
    (∀ u ∈ states (actionStep cgi cfg) srv₀ after,
      srv.store.tuplesLow ≤ u.store.poolnum ∧ u.store.poolnum ≤ srv.store.tuplesHigh) ∧
    (∃ u ∈ states (actionStep cgi cfg) srv₀ after, srv.store.tuplesHigh = u.store.poolnum) ∧
    ∃ u ∈ states (actionStep cgi cfg) srv₀ after, u.store.poolnum - 1 ≤ srv.store.tuplesLow := by
  have hlayout := actionStep_hasLayout (run_hasLayout hbefore) hload
  obtain ⟨hlow₀, hhigh₀⟩ := whitelistLoad_marks hload
  have hstart : srv₀ ∈ states (actionStep cgi cfg) srv₀ after := by
    cases after <;> simp [states]
  obtain ⟨hhigh, -, hlow, -, hall⟩ :=
    marks_run hlayout ⟨hlow₀.le, hhigh₀.ge⟩ hnot hrun
  refine ⟨hall, ?_, ?_⟩
  · rcases hhigh with hhigh | hhigh
    · exact ⟨srv₀, hstart, hhigh.trans hhigh₀⟩
    · exact hhigh
  · rcases hlow with hlow | hlow
    · exact ⟨srv₀, hstart, (Nat.sub_le _ _).trans (hlow₀ ▸ hlow)⟩
    · exact hlow

/-- Two letters after a start without a whitelist. -/
theorem run_waterMarks_letters : ∃ srv₀ srv : Server, srv.store.tuplesHigh = 2 ∧
    ∀ u ∈ states (actionStep plainCgi smallConfig) srv₀
      [.request (letterRequest 97 98 0) false (some .greylist),
        .request (letterRequest 97 99 1) false (some .greylist)],
      srv.store.tuplesLow ≤ u.store.poolnum ∧ u.store.poolnum ≤ srv.store.tuplesHigh := by
  obtain ⟨⟨srv₀, out⟩, hload, htest⟩ := exists_of_okAnd
    (actionStep plainCgi smallConfig (Server.init smallConfig 0) (.whitelistLoad 0 []))
    (fun r => okAnd (run (actionStep plainCgi smallConfig) r.1
      [.request (letterRequest 97 98 0) false (some .greylist),
        .request (letterRequest 97 99 1) false (some .greylist)]) fun r' =>
          decide (r'.1.store.tuplesHigh = 2)) (by decide +kernel)
  obtain ⟨⟨srv, outs⟩, hrun, hhigh⟩ := exists_of_okAnd _ _ htest
  have hnot : ∀ a ∈ [Action.request (letterRequest 97 98 0) false (some .greylist),
      .request (letterRequest 97 99 1) false (some .greylist)], ∀ now lines,
      a ≠ .whitelistLoad now lines := by
    simp
  exact ⟨srv₀, srv, of_decide_eq_true hhigh, (run_waterMarks plainCgi smallConfig 0 [] _ 0 []
    _ srv₀ srv [] outs out rfl hload hnot hrun).1⟩

end XGrey
