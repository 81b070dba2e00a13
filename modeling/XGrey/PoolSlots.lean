import XGrey.RequestSteps
import XGrey.RuleRun
import XGrey.StoreSafety

/-!
# The Slots of the Pool

What every run of the server keeps of the tuple space, whatever else goes wrong: the array
has a layout (`HasLayout`), so that it points to every record of the pool exactly once. The
store need not be sorted for this, and a step that fails in any way ends the run.

## Main results

* `typeGreylistCheckTuple_inv`, `whitelistLoadTuple_inv`: what a request and a line of the
  whitelist file did to the store, if they returned.
* `dispatch_store`: what a request of any type did to the store.
* `run_slots`: the array is a permutation of the pool in every state of every run.
-/

open CRuntime StepRun

namespace XGrey

/-- The pointer array of the store has a layout. -/
def HasLayout (cfg : Config) (s : TupleSpace) : Prop :=
  ∃ live free top, Layout cfg s live free top

theorem hasLayout_init (cfg : Config) : HasLayout cfg (TupleSpace.init cfg) :=
  ⟨[], [], 0, layout_init cfg⟩

section Operations

variable {cfg : Config} {s s' : TupleSpace} {live free : List ℕ} {top : ℕ}

/-! ### The operations, if they return -/

/-- A sweep that returns leaves the store that it should. -/
theorem tupleExpire_inv (h : Layout cfg s live free top) {tao : ℤ}
    (hok : tupleExpire cfg s tao = .ok s') : s' = sweptStore cfg tao s top := by
  by_cases hroom : cfg.ndebug = true ∨ top < cfg.poolmax ∨
      (free = [] ∧ ∀ t ∈ s.liveTuples, due cfg tao t = false)
  · rw [tupleExpire_eq tao h hroom] at hok
    cases hok
    rfl
  · rw [not_or, not_or] at hroom
    obtain ⟨hcheck, htop, hsome⟩ := hroom
    have hle := h.top_le
    rw [tupleExpire_error tao h (Bool.eq_false_iff.mpr hcheck) (by omega) hsome] at hok
    cases hok

/-- An allocation that returns leaves a store with room in it, and no tuple that was not
there before. -/
theorem tupleAllocate_inv (h : Layout cfg s live free top) {clock : ℤ} {p : ℕ}
    (hok : tupleAllocate cfg s clock = .ok (p, s')) :
    p = s'.slot s'.poolnum ∧ s'.poolnum < cfg.poolmax ∧ HasLayout cfg s' ∧
      s'.liveTuples ⊆ s.liveTuples := by
  by_cases halloc : Allocates cfg s clock
  · obtain ⟨heq, hlt⟩ := tupleAllocate_eq h halloc
    obtain ⟨live', free', top', hl⟩ := layout_allocatedStore clock h
    rw [heq] at hok
    cases hok
    exact ⟨rfl, hlt, ⟨live', free', top', hl⟩, (sublist_allocatedStore clock h).subset⟩
  · rw [tupleAllocate_of_not_allocates h halloc] at hok
    cases hok

/-- An insertion that returns was one inside the live part. -/
theorem tupleAdd_inv {rec idx : ℕ} (hok : tupleAdd cfg s rec idx = .ok s') :
    idx ≤ s.poolnum ∧ (cfg.ndebug = true ∨ (s.deref rec).pad = decafbad) := by
  rw [tupleAdd] at hok
  obtain ⟨_, -, hok⟩ := bind_eq_ok.mp hok
  obtain ⟨_, -, hok⟩ := bind_eq_ok.mp hok
  obtain ⟨_, -, hok⟩ := bind_eq_ok.mp hok
  obtain ⟨_, hpad, hok⟩ := bind_eq_ok.mp hok
  refine ⟨?_, cassert_eq_ok.mp hpad⟩
  by_contra hidx
  rw [if_neg (show ¬ idx ≤ s.countWrite.poolnum from hidx)] at hok
  cases hok

/-- A tuple is new, and the allocation for it has left a store with room. -/
structure NewSlot (cfg : Config) (s : TupleSpace) (tuple : Tuple) (clock : ℤ) (idx : ℕ)
    (s₁ : TupleSpace) : Prop where
  search : tupleSearch s tuple = (none, idx, s.countRead)
  allocate : tupleAllocate cfg s.countRead clock = .ok (s₁.slot s₁.poolnum, s₁)
  layout : HasLayout cfg s₁
  room : s₁.poolnum < cfg.poolmax
  subset : s₁.liveTuples ⊆ s.liveTuples

/-- What a request did to the tuples: it found the one at `p`, or it inserted a new one
into the store that the allocation had left. -/
theorem typeGreylistCheckTuple_inv (h : Layout cfg s live free top) {tuple : Tuple}
    {cmd : Cmd} {now clock : ℤ} {r : ℤ × Reason}
    (hok : typeGreylistCheckTuple cfg s tuple cmd now clock = .ok (r, s')) :
    (∃ p ∈ s.live, (tupleSearch s tuple).1 = some p ∧ s' = hitStore cfg s p cmd now) ∨
      ∃ idx s₁, NewSlot cfg s tuple clock idx s₁ ∧ s' = missStore s₁ tuple idx cmd := by
  rcases tupleSearch_cases h tuple with ⟨p, idx, hsearch, hp, -⟩ | ⟨idx, hsearch, -⟩
  · rw [typeGreylistCheckTuple_hit hsearch (h.lt_length_pool hp)] at hok
    cases hok
    exact Or.inl ⟨p, hp, by rw [hsearch], rfl⟩
  · have hinner := hok
    rw [typeGreylistCheckTuple, hsearch] at hinner
    dsimp only at hinner
    obtain ⟨⟨p, s₁⟩, halloc, hinner⟩ := bind_eq_ok.mp hinner
    obtain ⟨s₂, hadd, -⟩ := bind_eq_ok.mp hinner
    obtain ⟨rfl, hlt, ⟨live', free', top', hl⟩, hsub⟩ := tupleAllocate_inv h.countRead halloc
    obtain ⟨hidx, hpad⟩ := tupleAdd_inv hadd
    rw [TupleSpace.deref_write_self _ (hl.length_pool ▸ hl.next_lt hlt)] at hpad
    rw [typeGreylistCheckTuple_miss hsearch halloc hl hlt hpad hidx] at hok
    cases hok
    exact Or.inr ⟨idx, s₁, ⟨hsearch, halloc, ⟨live', free', top', hl⟩, hlt, hsub⟩, rfl⟩

/-- What a line of the whitelist file did to the store. -/
theorem whitelistLoadTuple_inv (h : Layout cfg s live free top) {tuple : Tuple}
    {now clock : ℤ} (hok : whitelistLoadTuple cfg s tuple now clock = .ok s') :
    (∃ p ∈ s.live, (tupleSearch s tuple).1 = some p ∧
        s' = confirm (s.countRead.write p ((s.deref p).touch now)) p) ∨
      ∃ idx s₁, NewSlot cfg s tuple clock idx s₁ ∧
        s' = { insertedStore s₁ (tuple.setFlag fWhitelist) idx with
          whitelisted := s₁.whitelisted + 1 } := by
  rcases tupleSearch_cases h tuple with ⟨p, idx, hsearch, hp, -⟩ | ⟨idx, hsearch, -⟩
  · rw [whitelistLoadTuple_hit hsearch] at hok
    cases hok
    exact Or.inl ⟨p, hp, by rw [hsearch], rfl⟩
  · have hinner := hok
    rw [whitelistLoadTuple, hsearch] at hinner
    dsimp only at hinner
    obtain ⟨⟨p, s₁⟩, halloc, hinner⟩ := bind_eq_ok.mp hinner
    obtain ⟨s₂, hadd, -⟩ := bind_eq_ok.mp hinner
    obtain ⟨rfl, hlt, ⟨live', free', top', hl⟩, hsub⟩ := tupleAllocate_inv h.countRead halloc
    obtain ⟨hidx, hpad⟩ := tupleAdd_inv hadd
    have hnext : s₁.slot s₁.poolnum <
        (s₁.write (s₁.slot s₁.poolnum) tuple).pool.length := by
      rw [TupleSpace.length_pool_write, hl.length_pool]
      exact hl.next_lt hlt
    rw [TupleSpace.deref_write_self _ hnext, TupleSpace.deref_write_self _
      (hl.length_pool ▸ hl.next_lt hlt)] at hpad
    rw [whitelistLoadTuple_miss hsearch halloc hl hlt hpad hidx] at hok
    cases hok
    exact Or.inr ⟨idx, s₁, ⟨hsearch, halloc, ⟨live', free', top', hl⟩, hlt, hsub⟩, rfl⟩

end Operations

/-! ### What keeps a layout -/

namespace HasLayout

variable {cfg : Config} {s s' : TupleSpace}

/-- Only the array, the number of live entries and the records matter. -/
theorem congr (h : HasLayout cfg s) (hpool : s'.pool = s.pool)
    (hspace : s'.tuplespace = s.tuplespace) (hnum : s'.poolnum = s.poolnum) :
    HasLayout cfg s' := by
  obtain ⟨live, free, top, hl⟩ := h
  have hderef := TupleSpace.deref_congr hpool
  exact ⟨live, free, top, hl.congr (by rw [hpool]) hspace hnum fun p _ => by rw [hderef]⟩

/-- Writing a live record keeps the layout. -/
theorem write (h : HasLayout cfg s) {p : ℕ} (hp : p ∈ s.live) (t : Tuple) :
    HasLayout cfg (s.write p t) := by
  obtain ⟨live, free, top, hl⟩ := h
  exact ⟨live, free, top, hl.write (hl.live_eq ▸ hp) t⟩

/-- The live records are records of the pool. -/
theorem lt_of_mem_live (h : HasLayout cfg s) {p : ℕ} (hp : p ∈ s.live) :
    p < s.pool.length := by
  obtain ⟨live, free, top, hl⟩ := h
  exact hl.lt_length_pool hp

theorem insertedStore (h : HasLayout cfg s) (hlt : s.poolnum < cfg.poolmax) (t : Tuple)
    (idx : ℕ) : HasLayout cfg (insertedStore s t idx) := by
  obtain ⟨live, free, top, hl⟩ := h
  obtain ⟨free', top', hl', -⟩ := layout_insertedStore hl hlt t idx
  exact ⟨_, free', top', hl'⟩

/-- A request for a known tuple. -/
theorem hitStore (h : HasLayout cfg s) {p : ℕ} (hp : p ∈ s.live) (cmd : Cmd) (now : ℤ) :
    HasLayout cfg (hitStore cfg s p cmd now) := by
  have hread : HasLayout cfg s.countRead := h.congr rfl rfl rfl
  rw [hitStore_eq (h.lt_of_mem_live hp)]
  exact (hread.write hp (hitTuple cfg cmd now (s.deref p))).congr rfl rfl rfl

/-- A request for a new tuple. -/
theorem missStore (h : HasLayout cfg s) (hlt : s.poolnum < cfg.poolmax) (tuple : Tuple)
    (idx : ℕ) (cmd : Cmd) : HasLayout cfg (missStore s tuple idx cmd) := by
  obtain ⟨live, free, top, hl⟩ := h
  rw [missStore_eq hl hlt]
  exact (insertedStore ⟨live, free, top, hl⟩ hlt (missTuple cmd tuple) _).congr rfl rfl rfl

/-- **A sweep**, if it returns. -/
theorem expire (h : HasLayout cfg s) {tao : ℤ} (hok : tupleExpire cfg s tao = .ok s') :
    HasLayout cfg s' := by
  obtain ⟨live, free, top, hl⟩ := h
  rw [tupleExpire_inv hl hok]
  exact ⟨_, _, top, layout_sweptStore tao hl⟩

/-- **A request for a verdict**, if it returns. -/
theorem check (h : HasLayout cfg s) {tuple : Tuple} {cmd : Cmd} {now clock : ℤ}
    {r : ℤ × Reason} (hok : typeGreylistCheckTuple cfg s tuple cmd now clock = .ok (r, s')) :
    HasLayout cfg s' := by
  obtain ⟨live, free, top, hl⟩ := h
  rcases typeGreylistCheckTuple_inv hl hok with ⟨p, hp, -, rfl⟩ | ⟨idx, s₁, hnew, rfl⟩
  · exact hitStore ⟨live, free, top, hl⟩ hp cmd now
  · exact hnew.layout.missStore hnew.room tuple idx cmd

/-- **A removal.** -/
theorem remove (h : HasLayout cfg s) (tuple : Tuple) : HasLayout cfg (tupleRemove s tuple) := by
  obtain ⟨live, free, top, hl⟩ := h
  have hcount : HasLayout cfg s.countRead := ⟨live, free, top, hl.countRead⟩
  rcases tupleSearch_cases hl tuple with ⟨p, idx, hsearch, hp, -⟩ | ⟨idx, hsearch, -⟩
  · rw [tupleRemove, hsearch]
    exact hcount.write hp _
  · rw [tupleRemove, hsearch]
    exact hcount

/-- **A line of the whitelist file**, if it is loaded. -/
theorem line (h : HasLayout cfg s) {cgi : CgiLib} {now : ℤ} {line : WhiteLine}
    (hok : whitelistLoadLine cgi cfg now s line = .ok s') : HasLayout cfg s' := by
  rcases whitelistLoadLine_inv hok with rfl | ⟨tuple, -, hok⟩
  · exact h
  · obtain ⟨live, free, top, hl⟩ := h
    rcases whitelistLoadTuple_inv hl hok with ⟨p, hp, -, rfl⟩ | ⟨idx, s₁, hnew, rfl⟩
    · have htouch : HasLayout cfg (s.countRead.write p ((s.deref p).touch now)) :=
        write ⟨live, free, top, hl.countRead⟩ hp _
      rw [confirm]
      split_ifs
      · exact htouch
      · exact (htouch.write hp _).congr rfl rfl rfl
    · exact (hnew.layout.insertedStore hnew.room (tuple.setFlag fWhitelist) idx).congr rfl rfl
        rfl

end HasLayout

/-! ### The requests -/

section Requests

variable {cfg : Config} {srv srv' : Server} {req req' : Request} {out : List Output}

@[simp] theorem store_setList (srv : Server) (l : AddrList) (name : ListName) :
    (srv.setList l name).store = srv.store := by
  cases name <;> rfl

/-- What a request can do to the tuples: nothing, look one up for a verdict, or mark one
for removal. -/
inductive StoreStep (cfg : Config) (s : TupleSpace) (req : Request) :
    Option Cmd → TupleSpace → Prop
  | same (type : Option Cmd) : StoreStep cfg s req type s
  | check (whitelist : Bool) (r : ℤ × Reason) (s' : TupleSpace) (hacc : req.Accepts)
      (hok : typeGreylistCheckTuple cfg s (req.tuple cfg) (checkCmd whitelist) req.now
        req.clock = .ok (r, s')) : StoreStep cfg s req (some (checkCmd whitelist)) s'
  | remove (hacc : req.Accepts) :
      StoreStep cfg s req (some .tupleRemove) (tupleRemove s (req.tuple cfg))

/-- **A request of any type**, if it returns. -/
theorem dispatch_store {canReport : Bool} {type : Option Cmd}
    (h : dispatch cfg srv req canReport type = .ok (out, srv', req')) :
    StoreStep cfg srv.store req type srv'.store := by
  cases dispatch_inv h with
  | same => exact .same _
  | check whitelist _ hacc rc tree hmatch hiplist hstore =>
      rcases hstore with hsame | ⟨r, hcheck⟩
      · rw [hsame]
        exact .same _
      · exact .check whitelist r _ hacc hcheck
  | remove hacc => exact .remove hacc
  | iplist l hsize hok => exact .same _
  | tofrom name text l htext hok =>
      rw [store_setList]
      exact .same _

end Requests

/-! ### Runs -/

section Runs

variable {cgi : CgiLib} {cfg : Config} {srv srv' : Server}

/-- A request keeps the layout, if it returns. -/
theorem StoreStep.hasLayout {s s' : TupleSpace} {req : Request} {type : Option Cmd}
    (hstep : StoreStep cfg s req type s') (h : HasLayout cfg s) : HasLayout cfg s' := by
  cases hstep with
  | same => exact h
  | check whitelist r s' hacc hok => exact h.check hok
  | remove hacc => exact h.remove _

/-- The loop of `whitelist_load`, if it returns. -/
theorem foldlM_hasLayout {now : ℤ} {lines : List WhiteLine} {s s' : TupleSpace}
    (h : HasLayout cfg s)
    (hok : lines.foldlM (whitelistLoadLine cgi cfg now) s = .ok s') : HasLayout cfg s' := by
  have hline : ∀ s, ∀ line ∈ lines, HasLayout cfg s →
      Ensures (whitelistLoadLine cgi cfg now s line) (HasLayout cfg) :=
    fun s line _ hs => (ensures_self _).mono fun s' hs' => hs.line hs'
  exact (guarantees_foldlM hline h).ok s' hok

/-- **One step** of the server keeps the layout, if it returns. -/
theorem actionStep_hasLayout (h : HasLayout cfg srv.store) {a : Action} {out : List Output}
    (hok : actionStep cgi cfg srv a = .ok (srv', out)) : HasLayout cfg srv'.store := by
  have hstep := actionStep_inv hok
  cases hstep with
  | iplistRead => exact h
  | whitelistLoad now lines s hlines => exact (foldlM_hasLayout h hlines).congr rfl rfl rfl
  | tofromRead name =>
      rw [store_setList]
      exact h
  | request req canReport type srv' out req' hdispatch =>
      exact (dispatch_store hdispatch).hasLayout h
  | sweep a now ha srv' s hspace hnum hpool hexpire =>
      exact (h.congr hpool hspace hnum).expire hexpire

/-- **A run** from startup on, as far as it gets, leaves a layout. -/
theorem run_hasLayout {starttime : ℤ} {actions : List Action} {outs : List (List Output)}
    (hrun : run (actionStep cgi cfg) (Server.init cfg starttime) actions = .ok (srv, outs)) :
    HasLayout cfg srv.store := by
  have hstep : ∀ srv a srv' out, HasLayout cfg (Server.store srv) → True →
      actionStep cgi cfg srv a = .ok (srv', out) → HasLayout cfg srv'.store :=
    fun _ _ _ _ h _ hok => actionStep_hasLayout h hok
  exact run_invariant hstep (hasLayout_init cfg)
    (along_of_forall (fun _ _ => trivial) _ actions) hrun

end Runs

/-! ### What the layout is for -/

/-- The pointer array accounts for the slots of the pool. -/
structure SlotsOk (cfg : Config) (s : TupleSpace) : Prop where
  /-- Every slot stands in the array, and none stands there twice. -/
  perm : s.tuplespace.Perm (List.range cfg.poolmax)
  /-- No two live tuples share their storage. -/
  nodup_live : s.live.Nodup
  /-- Every live tuple has a slot of the pool. -/
  live_lt : ∀ p ∈ s.live, p < s.pool.length
  /-- An allocation hands out a slot of the pool that no live tuple has. -/
  allocate : ∀ clock p s', tupleAllocate cfg s clock = .ok (p, s') →
    p < cfg.poolmax ∧ p ∉ s'.live
  /-- The slots of the tuples that a sweep drops are free after it. -/
  reclaim : ∀ tao s', tupleExpire cfg s tao = .ok s' →
    ∀ p ∈ s.live, p ∉ s'.live → p ∈ s'.tuplespace.drop s'.poolnum

/-- A permutation of the pool. -/
theorem Layout.perm_tuplespace {cfg : Config} {s : TupleSpace} {live free : List ℕ} {top : ℕ}
    (h : Layout cfg s live free top) : s.tuplespace.Perm (List.range cfg.poolmax) := by
  have htop : cfg.poolmax = top + (cfg.poolmax - top) := by
    have := h.top_le
    omega
  have hrange : List.range cfg.poolmax =
      List.range top ++ List.range' top (cfg.poolmax - top) := by
    conv_lhs => rw [htop, List.range_add]
    rw [List.range'_eq_map_range]
  rw [h.tuplespace_eq, hrange]
  exact h.perm.append_right _

/-- **A layout accounts for all slots.** -/
theorem HasLayout.slotsOk {cfg : Config} {s : TupleSpace} (h : HasLayout cfg s) :
    SlotsOk cfg s := by
  obtain ⟨live, free, top, hl⟩ := h
  refine ⟨hl.perm_tuplespace, hl.live_eq ▸ hl.nodup_live,
    fun p hp => lt_of_mem_live ⟨live, free, top, hl⟩ hp, ?_, ?_⟩
  · intro clock p s' hok
    obtain ⟨rfl, hlt, ⟨live', free', top', hl'⟩, -⟩ := tupleAllocate_inv hl hok
    exact ⟨hl'.next_lt hlt, hl'.next_notMem hlt⟩
  · intro tao s' hok p hp hdropped
    obtain ⟨live', free', top', hl'⟩ := expire ⟨live, free, top, hl⟩ hok
    have hmem : p ∈ s'.tuplespace := by
      rw [hl'.perm_tuplespace.mem_iff, List.mem_range]
      exact hl.lt_of_mem_live (hl.live_eq ▸ hp)
    rw [← List.take_append_drop s'.poolnum s'.tuplespace, List.mem_append] at hmem
    exact hmem.resolve_left hdropped

/-- **No slot is lost and none is given out twice.** In every state that the server reaches
from startup on, whatever it reads, is asked and sweeps, with or without assertions, the
array is a permutation of the pool. -/
theorem run_slots (cgi : CgiLib) (cfg : Config) (starttime : ℤ) (actions : List Action)
    (srv : Server) (outs : List (List Output))
    (hrun : run (actionStep cgi cfg) (Server.init cfg starttime) actions = .ok (srv, outs)) :
    SlotsOk cfg srv.store :=
  (run_hasLayout hrun).slotsOk

/-- A pool of one place in which a second tuple makes the store start over. -/
theorem run_slots_tiny :
    ∃ srv outs, run (actionStep plainCgi tinyConfig) (Server.init tinyConfig 0)
        [.request (letterRequest 97 98 0) false (some .greylist),
          .request (letterRequest 99 98 10) false (some .greylist)] = .ok (srv, outs) ∧
      SlotsOk tinyConfig srv.store := by
  obtain ⟨⟨srv, outs⟩, hrun, -⟩ := exists_of_okAnd
    (run (actionStep plainCgi tinyConfig) (Server.init tinyConfig 0)
      [.request (letterRequest 97 98 0) false (some .greylist),
        .request (letterRequest 99 98 10) false (some .greylist)])
    (fun _ => true) (by decide +kernel)
  exact ⟨srv, outs, hrun, run_slots plainCgi tinyConfig 0 _ srv outs hrun⟩

end XGrey
