import XGrey.LiveTuples
import XGrey.StageCounts

/-!
# The Count of Whitelisted Tuples

`g_whitelisted` is counted up when a tuple is whitelisted and down when a sweep drops one.
`tuple_allocate` does not count it down when it starts over, although all live tuples are
gone then: those that were whitelisted stay in the count for good. So the count is never too low,
and it is right as long as no start-over loses a whitelisted tuple (`Action.Forgets`).

## Main results

* `check_excess`, `line_excess`, `expire_excess`: what the operations do to the difference
  between the count and the tuples.
* `run_whitelisted_iff`: the exact condition, for every run.
-/

open CRuntime StepRun ArrayShift

namespace XGrey

/-- How many of the live tuples are whitelisted. -/
def TupleSpace.whiteCount (s : TupleSpace) : ℕ := s.liveTuples.countP Tuple.whitelisted

/-- How many tuples are counted that are not there. -/
def excess (s : TupleSpace) : ℤ := s.whitelisted - s.whiteCount

/-- The allocation for a new tuple starts over: the pool is full and nothing is due. -/
def StartsOver (cfg : Config) (s : TupleSpace) (clock : ℤ) : Prop :=
  s.poolnum = cfg.poolmax ∧ ∀ t ∈ s.liveTuples, due cfg clock t = false

/-- A tuple is new, and the start-over for it loses a whitelisted one. -/
def Forgets (cfg : Config) (s : TupleSpace) (tuple : Tuple) (clock : ℤ) : Prop :=
  (tupleSearch s tuple).1 = none ∧ StartsOver cfg s clock ∧
    ∃ t ∈ s.liveTuples, t.whitelisted = true

section Operations

variable {cfg : Config} {s s' : TupleSpace} {live free : List ℕ} {top : ℕ}

/-! ### Changing one tuple -/

/-- The count of the live tuples with a property, after one of them was written. -/
theorem countP_liveTuples_write (h : Layout cfg s live free top) {p : ℕ} (hp : p ∈ s.live)
    (t : Tuple) (q : Tuple → Bool) :
    (s.write p t).liveTuples.countP q + (q (s.deref p)).toNat =
      s.liveTuples.countP q + (q t).toNat := by
  obtain ⟨before, after, hlive⟩ := List.append_of_mem hp
  have hnd : s.live.Nodup := h.live_eq ▸ h.nodup_live
  rw [hlive] at hnd
  have hbefore : ∀ r ∈ before, (s.write p t).deref r = s.deref r := by
    intro r hr
    refine TupleSpace.deref_write_ne t ?_
    rintro rfl
    exact (List.nodup_append.mp hnd).2.2 _ hr _ List.mem_cons_self rfl
  have hafter : ∀ r ∈ after, (s.write p t).deref r = s.deref r := by
    intro r hr
    refine TupleSpace.deref_write_ne t ?_
    rintro rfl
    exact (List.nodup_cons.mp (List.nodup_append.mp hnd).2.1).1 hr
  have hself : (s.write p t).deref p = t :=
    TupleSpace.deref_write_self t (h.lt_length_pool hp)
  rw [TupleSpace.liveTuples, TupleSpace.live_write, TupleSpace.liveTuples, hlive]
  simp only [List.map_append, List.map_cons, List.countP_append, List.countP_cons, hself,
    List.map_congr_left hbefore, List.map_congr_left hafter]
  cases q t <;> cases q (s.deref p) <;> simp <;> omega

/-- A record that was not whitelisted is whitelisted and counted, one that was stays so. -/
theorem hit_excess (h : Layout cfg s live free top) {p : ℕ} (hp : p ∈ s.live) (cmd : Cmd)
    (now : ℤ) : excess (hitStore cfg s p cmd now) = excess s := by
  have hcount := countP_liveTuples_write h.countRead (p := p) hp
    (hitTuple cfg cmd now (s.deref p)) Tuple.whitelisted
  rw [hitStore_eq (h.lt_length_pool hp)]
  change (s.whitelisted + _ : ℤ) - ((s.countRead.write p _).liveTuples.countP _ : ℕ) = _
  change _ = s.whitelisted - (s.countRead.liveTuples.countP _ : ℕ)
  rw [TupleSpace.deref_countRead] at hcount
  rw [hitTuple] at hcount ⊢
  cases hw : (s.deref p).whitelisted <;> cases hpass : passes cfg cmd now (s.deref p) <;>
    simp [hw, hpass] at hcount ⊢ <;> omega

/-- A removal only marks a tuple. -/
theorem remove_excess (h : Layout cfg s live free top) (tuple : Tuple) :
    excess (tupleRemove s tuple) = excess s := by
  rcases tupleSearch_cases h tuple with ⟨p, idx, hsearch, hp, -⟩ | ⟨idx, hsearch, -⟩
  · have hcount := countP_liveTuples_write h.countRead (p := p) hp
      ((s.deref p).setFlag fRemove) Tuple.whitelisted
    rw [TupleSpace.deref_countRead, Tuple.whitelisted_setFlag_remove] at hcount
    rw [tupleRemove, hsearch]
    change (s.whitelisted : ℤ) - ((s.countRead.write p _).liveTuples.countP _ : ℕ) =
      s.whitelisted - (s.countRead.liveTuples.countP _ : ℕ)
    rw [TupleSpace.deref_countRead]
    omega
  · rw [tupleRemove, hsearch]
    rfl

/-! ### Dropping tuples -/

/-- What has a property is kept or dropped. -/
theorem countP_eq_kept_add (q d : Tuple → Bool) (ts : List Tuple) :
    ts.countP q = (ts.filter fun t => !d t).countP q + ts.countP fun t => d t && q t := by
  induction ts with
  | nil => rfl
  | cons t ts ih =>
      rw [List.countP_cons, List.countP_cons, List.filter_cons, ih]
      cases hd : d t <;> cases hq : q t <;> simp [hq] <;> omega

/-- **A sweep** counts down what it drops. -/
theorem Swept.excess {tao : ℤ} (h : Swept cfg tao s s') : excess s' = XGrey.excess s := by
  have hcount := countP_eq_kept_add Tuple.whitelisted (due cfg tao) s.liveTuples
  rw [← h.liveTuples_eq] at hcount
  have hwhite : s'.whitelisted = s.whitelisted - dueWhite cfg tao s.liveTuples := by
    rw [h.rest]
  rw [XGrey.excess, XGrey.excess, TupleSpace.whiteCount, TupleSpace.whiteCount, hwhite, hcount,
    dueWhite]
  omega

theorem expire_excess (h : Layout cfg s live free top) {tao : ℤ}
    (hok : tupleExpire cfg s tao = .ok s') : excess s' = excess s := by
  rw [tupleExpire_inv h hok]
  exact (swept_sweptStore tao h.liveSlots).excess

/-- **An allocation** counts down what it drops, unless it starts over. -/
theorem allocate_excess (h : Layout cfg s live free top) {clock : ℤ} {p : ℕ}
    (hok : tupleAllocate cfg s clock = .ok (p, s')) :
    (¬ StartsOver cfg s clock ∧ excess s' = excess s) ∨
      (StartsOver cfg s clock ∧ s'.liveTuples = [] ∧ excess s' = excess s + s.whiteCount) := by
  by_cases hstart : StartsOver cfg s clock
  · obtain ⟨hfull, hkeep⟩ := hstart
    refine Or.inr ⟨⟨hfull, hkeep⟩, ?_⟩
    rw [tupleAllocate_of_full h hfull hkeep] at hok
    cases hok
    refine ⟨rfl, ?_⟩
    have hnone : dueWhite cfg clock s.liveTuples = 0 :=
      List.countP_eq_zero.mpr fun t ht => by simp [hkeep t ht]
    have hwhite : (sweptStore cfg clock s top).whitelisted = s.whitelisted := by
      rw [(swept_sweptStore clock h.liveSlots).rest, hnone]
      exact Int.sub_zero _
    have hgone : (restartedStore cfg (sweptStore cfg clock s top)).whiteCount = 0 := rfl
    rw [excess, excess, hgone]
    change (sweptStore cfg clock s top).whitelisted - 0 = _
    rw [hwhite]
    omega
  · refine Or.inl ⟨hstart, ?_⟩
    by_cases hfull : s.poolnum = cfg.poolmax
    · have hdue : ∃ t ∈ s.liveTuples, due cfg clock t = true := by
        by_contra hnone
        exact hstart ⟨hfull, not_exists_due_iff.mp hnone⟩
      cases hcheck : cfg.ndebug with
      | true =>
          rw [(tupleAllocate_of_due h hfull hcheck hdue).1] at hok
          cases hok
          exact (swept_sweptStore clock h.liveSlots).excess
      | false =>
          rw [tupleAllocate_error h hfull hcheck hdue] at hok
          cases hok
    · rw [tupleAllocate_of_lt (lt_of_le_of_ne h.poolnum_le hfull)] at hok
      cases hok
      rfl

/-- Inserting a tuple and counting it if it is whitelisted. -/
theorem inserted_excess (h : Layout cfg s live free top) (hlt : s.poolnum < cfg.poolmax)
    (t : Tuple) (idx : ℕ) :
    (insertedStore s t idx).whiteCount = s.whiteCount + t.whitelisted.toNat := by
  rw [TupleSpace.whiteCount, liveTuples_insertedStore h hlt,
    (insertAt_perm s.liveTuples idx t).countP_eq, List.countP_cons, TupleSpace.whiteCount]
  cases t.whitelisted <;> rfl

/-- What the allocation for a new tuple does to the count. -/
theorem NewSlot.excess {tuple : Tuple} {clock : ℤ} {idx : ℕ} {s₁ : TupleSpace}
    (h : NewSlot cfg s tuple clock idx s₁) (hl : HasLayout cfg s) :
    XGrey.excess s ≤ XGrey.excess s₁ ∧
      (XGrey.excess s = XGrey.excess s₁ ↔ ¬ Forgets cfg s tuple clock) := by
  obtain ⟨live, free, top, hl⟩ := hl
  have hnew : (tupleSearch s tuple).1 = none := by rw [h.search]
  rcases allocate_excess hl.countRead h.allocate with ⟨hstart, heq⟩ | ⟨hstart, -, heq⟩
  · have hsame : XGrey.excess s₁ = XGrey.excess s := heq
    rw [hsame]
    exact ⟨le_refl _, fun _ hforgets => hstart hforgets.2.1, fun _ => rfl⟩
  · have hsum : XGrey.excess s₁ = XGrey.excess s + s.whiteCount := heq
    rw [hsum]
    refine ⟨by omega, fun hsame hforgets => ?_, fun hkeeps => ?_⟩
    · have hpos : 0 < s.whiteCount := List.countP_pos_iff.mpr hforgets.2.2
      omega
    · have hzero : s.whiteCount = 0 := by
        refine List.countP_eq_zero.mpr fun t ht hwhite => hkeeps ⟨hnew, hstart, t, ht, hwhite⟩
      rw [hzero]
      omega

/-- **A request for a verdict**, if it returns. -/
theorem check_excess (h : HasLayout cfg s) {tuple : Tuple}
    (hfresh : tuple.whitelisted = false) {cmd : Cmd} {now clock : ℤ} {r : ℤ × Reason}
    (hok : typeGreylistCheckTuple cfg s tuple cmd now clock = .ok (r, s')) :
    excess s ≤ excess s' ∧ (excess s = excess s' ↔ ¬ Forgets cfg s tuple clock) := by
  have hl := h
  obtain ⟨live, free, top, h⟩ := h
  rcases typeGreylistCheckTuple_inv h hok with ⟨p, hp, hfound, rfl⟩ | ⟨idx, s₁, hnew, rfl⟩
  · rw [hit_excess h hp]
    refine ⟨le_refl _, fun _ hforgets => ?_, fun _ => rfl⟩
    exact Option.some_ne_none p (hfound.symm.trans hforgets.1)
  · obtain ⟨live₁, free₁, top₁, hl₁⟩ := hnew.layout
    have hsame : excess (missStore s₁ tuple idx cmd) = excess s₁ := by
      rw [missStore_eq hl₁ hnew.room]
      change (s₁.whitelisted + _ : ℤ) - ((insertedStore s₁ _ _).whiteCount : ℕ) = _
      rw [inserted_excess hl₁ hnew.room, excess, missTuple]
      by_cases hcmd : cmd = .whitelist
      · simp [hcmd]
      · simp [hcmd, hfresh]
    rw [hsame]
    exact hnew.excess hl

/-- A line that is loaded. -/
theorem lineTuple_excess (h : HasLayout cfg s) {tuple : Tuple} {now clock : ℤ}
    (hok : whitelistLoadTuple cfg s tuple now clock = .ok s') :
    excess s ≤ excess s' ∧ (excess s = excess s' ↔ ¬ Forgets cfg s tuple clock) := by
  have hl := h
  obtain ⟨live, free, top, h⟩ := h
  rcases whitelistLoadTuple_inv h hok with ⟨p, hp, hfound, rfl⟩ | ⟨idx, s₁, hnew, rfl⟩
  · -- what a request for a whitelisting does to a known tuple, too
    have hhit : confirm (s.countRead.write p ((s.deref p).touch now)) p =
        hitStore cfg s p .whitelist now := by
      rw [hitStore, if_pos]
      simp [passes]
    rw [hhit, hit_excess h hp]
    refine ⟨le_refl _, fun _ hforgets => ?_, fun _ => rfl⟩
    exact Option.some_ne_none p (hfound.symm.trans hforgets.1)
  · obtain ⟨live₁, free₁, top₁, hl₁⟩ := hnew.layout
    have hsame : excess { insertedStore s₁ (tuple.setFlag fWhitelist) idx with
        whitelisted := s₁.whitelisted + 1 } = excess s₁ := by
      change (s₁.whitelisted + 1 : ℤ) - ((insertedStore s₁ _ _).whiteCount : ℕ) = _
      rw [inserted_excess hl₁ hnew.room, excess, Tuple.whitelisted_setFlag_whitelist]
      simp
    rw [hsame]
    exact hnew.excess hl

end Operations

/-! ### Steps -/

section Steps

variable {cgi : CgiLib} {cfg : Config} {srv srv' : Server}

/-- A line of the whitelist file makes the store lose a whitelisted tuple. -/
def WhiteLine.Forgets (cgi : CgiLib) (cfg : Config) (now : ℤ) (s : TupleSpace)
    (line : WhiteLine) : Prop :=
  cgi.emptyString line.text = false ∧
    ∃ t, line.tuple cgi cfg.ndebug now = .ok (some t) ∧ XGrey.Forgets cfg s t line.clock

/-- A line of the whitelist file as a step of a run. -/
def lineStep (cgi : CgiLib) (cfg : Config) (now : ℤ) (s : TupleSpace) (line : WhiteLine) :
    Exec (TupleSpace × Unit) :=
  (whitelistLoadLine cgi cfg now s line).map fun s' => (s', ())

/-- A step of the server makes the store lose a whitelisted tuple: a request that gets to
the tuples, or one of the lines of the whitelist file in the state in which it is loaded. -/
def Action.Forgets (cgi : CgiLib) (cfg : Config) (srv : Server) : Action → Prop
  | .whitelistLoad now lines =>
      ¬ Along (lineStep cgi cfg now) (fun s line => ¬ line.Forgets cgi cfg now s) srv.store lines
  | .request req canReport type =>
      (Action.request req canReport type).reaches cfg srv = true ∧
        XGrey.Forgets cfg srv.store (req.tuple cfg) req.clock
  | _ => False

/-- **A line of the whitelist file**, if it is loaded. -/
theorem line_excess {now : ℤ} {s s' : TupleSpace} {line : WhiteLine} (h : HasLayout cfg s)
    (hok : whitelistLoadLine cgi cfg now s line = .ok s') :
    excess s ≤ excess s' ∧ (excess s = excess s' ↔ ¬ line.Forgets cgi cfg now s) := by
  rw [whitelistLoadLine] at hok
  by_cases hempty : cgi.emptyString line.text = true
  · rw [if_pos hempty] at hok
    cases hok
    refine ⟨le_refl _, fun _ hforgets => ?_, fun _ => rfl⟩
    rw [hforgets.1] at hempty
    cases hempty
  rw [if_neg hempty] at hok
  obtain ⟨found, hfound, hok⟩ := bind_eq_ok.mp hok
  cases found with
  | none =>
      cases hok
      refine ⟨le_refl _, fun _ hforgets => ?_, fun _ => rfl⟩
      obtain ⟨-, t, ht, -⟩ := hforgets
      rw [hfound] at ht
      cases ht
  | some t =>
      obtain ⟨hle, hiff⟩ := lineTuple_excess h hok
      refine ⟨hle, hiff.trans (not_congr ⟨fun hforgets => ?_, fun hforgets => ?_⟩)⟩
      · exact ⟨Bool.eq_false_iff.mpr hempty, t, hfound, hforgets⟩
      · obtain ⟨-, t', ht', hforgets⟩ := hforgets
        rw [hfound] at ht'
        cases ht'
        exact hforgets

/-- **The whitelist file**, if it is loaded. -/
theorem lines_excess {now : ℤ} {s s' : TupleSpace} {lines : List WhiteLine}
    (h : HasLayout cfg s) (hok : lines.foldlM (whitelistLoadLine cgi cfg now) s = .ok s') :
    excess s ≤ excess s' ∧ (excess s = excess s' ↔
      Along (lineStep cgi cfg now) (fun s line => ¬ line.Forgets cgi cfg now s) s lines) := by
  have hstep : ∀ s line s' u, HasLayout cfg s → lineStep cgi cfg now s line = .ok (s', u) →
      HasLayout cfg s' ∧ excess s ≤ excess s' ∧
        (excess s = excess s' ↔ ¬ line.Forgets cgi cfg now s) := by
    intro s line s' u hs hline
    have hload : whitelistLoadLine cgi cfg now s line = .ok s' := by
      rw [lineStep] at hline
      cases hload : whitelistLoadLine cgi cfg now s line with
      | error e =>
          rw [hload] at hline
          cases hline
      | ok s₁ =>
          rw [hload] at hline
          cases hline
          rfl
    exact ⟨hs.line hload, line_excess hs hload⟩
  exact run_le_iff hstep h (run_of_foldlM hok)

/-- The filter leaves the tuples alone. -/
theorem filterTuple_store {tuple : Tuple} {verdict : Option (ℤ × Reason)}
    (h : filterTuple cfg srv tuple = .ok (verdict, srv')) : srv'.store = srv.store := by
  rw [filterTuple] at h
  obtain ⟨⟨rc, tree⟩, -, h⟩ := bind_eq_ok.mp h
  obtain ⟨ipCmdcnt, -, h⟩ := bind_eq_ok.mp h
  dsimp only at h
  by_cases hrc : rc ≠ Ift.greylist
  · rw [if_pos hrc] at h
    cases h
    rfl
  rw [if_neg hrc] at h
  obtain ⟨⟨sender, fromL, fromdL⟩, -, h⟩ := bind_eq_ok.mp h
  cases sender with
  | some verdict' =>
      cases h
      rfl
  | none =>
      obtain ⟨⟨recipient, toL, todL⟩, -, h⟩ := bind_eq_ok.mp h
      cases h
      rfl

/-- **A request for a verdict**, whether it gets to the tuples or not. -/
theorem typeGreylist_excess (h : HasLayout cfg srv.store) {req req' : Request}
    {cmd response : Cmd} {out : List Output}
    (hok : typeGreylist cfg srv req cmd response = .ok (out, srv', req')) :
    excess srv.store ≤ excess srv'.store ∧ (excess srv.store = excess srv'.store ↔
      ¬ (req.reaches cfg srv = true ∧ Forgets cfg srv.store (req.tuple cfg) req.clock)) := by
  -- a request that does not get to the tuples leaves them alone
  have hquiet : req.reaches cfg srv = false → srv'.store = srv.store →
      excess srv.store ≤ excess srv'.store ∧ (excess srv.store = excess srv'.store ↔
        ¬ (req.reaches cfg srv = true ∧ Forgets cfg srv.store (req.tuple cfg) req.clock)) := by
    intro hnot hstore
    rw [hstore, hnot]
    exact ⟨le_refl _, fun _ hforgets => Bool.false_ne_true hforgets.1, fun _ => rfl⟩
  by_cases hacc : req.Accepts
  swap
  · have hnot : req.reaches cfg srv = false := by
      rw [Request.reaches, greylistSanitizeReq_of_not_accepts cfg hacc]
    rw [typeGreylist_of_not_accepts cfg srv hacc] at hok
    cases hok
    exact hquiet hnot rfl
  rw [typeGreylist_filterTuple cfg srv hacc] at hok
  obtain ⟨⟨verdict, srv₁⟩, hfilter, hok⟩ := bind_eq_ok.mp hok
  have hstore := filterTuple_store hfilter
  have hreaches : req.reaches cfg srv = verdict.isNone := by
    rw [Request.reaches, greylistSanitizeReq_of_accepts cfg hacc]
    dsimp only
    rw [hfilter]
    cases verdict <;> rfl
  cases verdict with
  | some verdict =>
      obtain ⟨-, rfl, -⟩ := sendReply_converted_inv hok
      exact hquiet hreaches hstore
  | none =>
      obtain ⟨⟨⟨rc, why⟩, store⟩, hcheck, hok⟩ := bind_eq_ok.mp hok
      obtain ⟨-, rfl, -⟩ := sendReply_converted_inv hok
      rw [hstore] at hcheck
      rw [hreaches]
      simpa using check_excess h (freshTuple_requestTuple cfg req).whitelisted hcheck

/-- **A request of any type**, if it returns. -/
theorem dispatch_excess (h : HasLayout cfg srv.store) {req req' : Request} {canReport : Bool}
    {type : Option Cmd} {out : List Output}
    (hok : dispatch cfg srv req canReport type = .ok (out, srv', req')) :
    excess srv.store ≤ excess srv'.store ∧ (excess srv.store = excess srv'.store ↔
      ¬ (Action.request req canReport type).Forgets cgi cfg srv) := by
  by_cases hgrey : type = some .greylist
  · subst hgrey
    exact typeGreylist_excess h hok
  by_cases hwhite : type = some .whitelist
  · subst hwhite
    exact typeGreylist_excess h hok
  have hnot : ¬ (Action.request req canReport type).Forgets cgi cfg srv := by
    rw [Action.Forgets, Action.reaches.eq_def]
    split <;> simp_all
  have hsame : excess srv'.store = excess srv.store := by
    have hstore := dispatch_store hok
    generalize srv'.store = s' at hstore
    cases hstore with
    | same => rfl
    | check whitelist => cases whitelist <;> contradiction
    | remove hacc =>
        obtain ⟨live, free, top, hl⟩ := h
        exact remove_excess hl _
  exact ⟨hsame.ge, fun _ => hnot, fun _ => hsame.symm⟩

/-- **One step** of the server, if it returns. -/
theorem actionStep_excess (h : HasLayout cfg srv.store) {a : Action} {out : List Output}
    (hok : actionStep cgi cfg srv a = .ok (srv', out)) :
    excess srv.store ≤ excess srv'.store ∧
      (excess srv.store = excess srv'.store ↔ ¬ a.Forgets cgi cfg srv) := by
  cases a with
  | iplistRead ip lines =>
      obtain ⟨⟨l, whole⟩, -, hok⟩ := bind_eq_ok.mp hok
      cases hok
      exact ⟨le_refl _, fun _ => id, fun _ => rfl⟩
  | whitelistLoad now lines =>
      obtain ⟨store, hload, hok⟩ := bind_eq_ok.mp hok
      cases hok
      obtain ⟨s, hlines, hload⟩ := bind_eq_ok.mp hload
      cases hload
      have hexcess := lines_excess h hlines
      rw [Action.Forgets, not_not]
      exact hexcess
  | tofromRead name lines =>
      obtain ⟨srv₁, hread, hok⟩ := bind_eq_ok.mp hok
      cases hok
      obtain ⟨l, -, hread⟩ := bind_eq_ok.mp hread
      cases hread
      rw [store_setList]
      exact ⟨le_refl _, fun _ => id, fun _ => rfl⟩
  | request req canReport type =>
      obtain ⟨⟨out₁, srv₁, req'⟩, hdispatch, hok⟩ := bind_eq_ok.mp hok
      cases hok
      exact dispatch_excess h hdispatch
  | sigalrm now =>
      obtain ⟨srv₁, hsweep, hok⟩ := bind_eq_ok.mp hok
      cases hok
      obtain ⟨store, hexpire, hsweep⟩ := bind_eq_ok.mp hsweep
      cases hsweep
      obtain ⟨live, free, top, hl⟩ := h
      have hreset : Layout cfg { srv.store with
          tuplesReadCucurrent := 0, tuplesWriteCucurrent := 0 } live free top :=
        hl.congr rfl rfl rfl fun _ _ => rfl
      have hexpired := expire_excess hreset hexpire
      have hsame : excess store = excess srv.store := hexpired
      exact ⟨hsame.ge, fun _ => id, fun _ => hsame.symm⟩
  | sigusr2 now =>
      obtain ⟨srv₁, hsweep, hok⟩ := bind_eq_ok.mp hok
      cases hok
      obtain ⟨store, hexpire, hsweep⟩ := bind_eq_ok.mp hsweep
      cases hsweep
      obtain ⟨live, free, top, hl⟩ := h
      have hsame : excess store = excess srv.store := expire_excess hl hexpire
      exact ⟨hsame.ge, fun _ => id, fun _ => hsame.symm⟩

end Steps

/-! ### Runs -/

/-- **The count of whitelisted tuples** is that of the live tuples that are whitelisted,
exactly as long as no step of the run has made the store start over while a live tuple was
whitelisted. -/
theorem run_whitelisted_iff (cgi : CgiLib) (cfg : Config) (starttime : ℤ)
    (actions : List Action) {srv : Server} {outs : List (List Output)}
    (hrun : run (actionStep cgi cfg) (Server.init cfg starttime) actions = .ok (srv, outs)) :
    srv.store.whitelisted = srv.store.whiteCount ↔
      Along (actionStep cgi cfg) (fun srv a => ¬ a.Forgets cgi cfg srv)
        (Server.init cfg starttime) actions := by
  have hstep : ∀ srv a srv' out, HasLayout cfg (Server.store srv) →
      actionStep cgi cfg srv a = .ok (srv', out) →
      HasLayout cfg srv'.store ∧ excess srv.store ≤ excess srv'.store ∧
        (excess srv.store = excess srv'.store ↔ ¬ a.Forgets cgi cfg srv) :=
    fun _ _ _ _ h hok => ⟨actionStep_hasLayout h hok, actionStep_excess h hok⟩
  obtain ⟨-, hiff⟩ := run_le_iff hstep (hasLayout_init cfg) hrun
  have hzero : excess (Server.init cfg starttime).store = 0 := rfl
  rw [← hiff, hzero, excess]
  omega

/-- Two requests for a pool of one tuple: the second one starts it over, and the tuple that
the first one has whitelisted is still counted. -/
theorem run_whitelisted_two :
    ∃ srv outs, run (actionStep plainCgi tinyConfig) (Server.init tinyConfig 0)
        [.request (letterRequest 97 98 0) false (some .whitelist),
          .request (letterRequest 99 98 0) false (some .greylist)] = .ok (srv, outs) ∧
      srv.store.whitelisted = 1 ∧ srv.store.whiteCount = 0 := by
  obtain ⟨⟨srv, outs⟩, hrun, htest⟩ := exists_of_okAnd
    (run (actionStep plainCgi tinyConfig) (Server.init tinyConfig 0)
      [.request (letterRequest 97 98 0) false (some .whitelist),
        .request (letterRequest 99 98 0) false (some .greylist)])
    (fun r => decide (r.1.store.whitelisted = 1 ∧ r.1.store.whiteCount = 0))
    (by decide +kernel)
  exact ⟨srv, outs, hrun, of_decide_eq_true htest⟩

/-- The first of them alone keeps the count right. -/
theorem run_whitelisted_one :
    ∃ srv outs, run (actionStep plainCgi tinyConfig) (Server.init tinyConfig 0)
        [.request (letterRequest 97 98 0) false (some .whitelist)] = .ok (srv, outs) ∧
      srv.store.whitelisted = 1 ∧
      (srv.store.whitelisted = srv.store.whiteCount ↔
        Along (actionStep plainCgi tinyConfig) (fun srv a => ¬ a.Forgets plainCgi tinyConfig srv)
          (Server.init tinyConfig 0)
          [.request (letterRequest 97 98 0) false (some .whitelist)]) := by
  obtain ⟨⟨srv, outs⟩, hrun, htest⟩ := exists_of_okAnd
    (run (actionStep plainCgi tinyConfig) (Server.init tinyConfig 0)
      [.request (letterRequest 97 98 0) false (some .whitelist)])
    (fun r => decide (r.1.store.whitelisted = 1)) (by decide +kernel)
  exact ⟨srv, outs, hrun, of_decide_eq_true htest,
    run_whitelisted_iff plainCgi tinyConfig 0 _ hrun⟩

end XGrey
