import XGrey.PoolSlots

/-!
# What the Live Tuples Keep

A tuple is made once, from a request or from a line of the whitelist file, and from then on
only its time of access and two of its flags change. So a property that depends on none of
them (`Lasting`) holds of every live tuple, in any state that the server reaches, if it holds of
every tuple that is made (`run_liveTuples`). The store need not be sorted for this, and a
step that fails ends the run.
-/

open CRuntime StepRun ArrayShift

namespace XGrey

/-- A property of tuples that outlasts a change of the time of access, and of the two flags
that are set later than the tuple is made. -/
structure Lasting (P : Tuple → Prop) : Prop where
  setFlag : ∀ t flag, flag = fWhitelist ∨ flag = fRemove → P t → P (t.setFlag flag)
  touch : ∀ t now, P t → P (t.touch now)

section Operations

variable {P : Tuple → Prop} {cfg : Config} {s s' : TupleSpace}

/-! ### The operations -/

/-- The live tuples after a record was written. -/
theorem mem_liveTuples_write {p : ℕ} {t u : Tuple} (hu : u ∈ (s.write p t).liveTuples) :
    u = t ∨ u ∈ s.liveTuples := by
  obtain ⟨q, hq, rfl⟩ := List.mem_map.mp hu
  by_cases hpq : p = q
  · rw [← hpq]
    by_cases hp : p < s.pool.length
    · exact Or.inl (TupleSpace.deref_write_self t hp)
    · have hpool : (s.write p t).pool = s.pool := List.set_eq_of_length_le (not_lt.mp hp)
      refine Or.inr (List.mem_map.mpr ⟨p, hpq ▸ hq, ?_⟩)
      rw [TupleSpace.deref, TupleSpace.deref, hpool]
  · rw [TupleSpace.deref_write_ne t hpq]
    exact Or.inr (List.mem_map_of_mem hq)

/-- The live tuples after an insertion. -/
theorem HasLayout.mem_liveTuples_insertedStore (h : HasLayout cfg s)
    (hlt : s.poolnum < cfg.poolmax) {t u : Tuple} {idx : ℕ}
    (hu : u ∈ (XGrey.insertedStore s t idx).liveTuples) : u = t ∨ u ∈ s.liveTuples := by
  obtain ⟨live, free, top, hl⟩ := h
  rwa [liveTuples_insertedStore hl hlt, mem_insertAt] at hu

namespace Lasting

theorem write (hP : ∀ t ∈ s.liveTuples, P t) {p : ℕ} {t : Tuple} (ht : P t) :
    ∀ u ∈ (s.write p t).liveTuples, P u := by
  intro u hu
  rcases mem_liveTuples_write hu with rfl | hu
  · exact ht
  · exact hP u hu

theorem insertedStore (h : HasLayout cfg s) (hlt : s.poolnum < cfg.poolmax)
    (hP : ∀ t ∈ s.liveTuples, P t) {t : Tuple} (ht : P t) (idx : ℕ) :
    ∀ u ∈ (XGrey.insertedStore s t idx).liveTuples, P u := by
  intro u hu
  rcases h.mem_liveTuples_insertedStore hlt hu with rfl | hu
  · exact ht
  · exact hP u hu

/-- A live record has the property. -/
theorem deref (hP : ∀ t ∈ s.liveTuples, P t) {p : ℕ} (hp : p ∈ s.live) : P (s.deref p) :=
  hP _ (List.mem_map_of_mem hp)

/-- **A request for a verdict**, if it returns. -/
theorem check (hlast : Lasting P) (h : HasLayout cfg s) (hP : ∀ t ∈ s.liveTuples, P t)
    {tuple : Tuple} (ht : P tuple) {cmd : Cmd} {now clock : ℤ} {r : ℤ × Reason}
    (hok : typeGreylistCheckTuple cfg s tuple cmd now clock = .ok (r, s')) :
    ∀ t ∈ s'.liveTuples, P t := by
  obtain ⟨live, free, top, hl⟩ := h
  rcases typeGreylistCheckTuple_inv hl hok with
    ⟨p, hp, -, rfl⟩ | ⟨idx, s₁, ⟨-, -, hs₁, hlt, hsub⟩, rfl⟩
  · have hhit : P (hitTuple cfg cmd now (s.deref p)) := by
      have htouch := hlast.touch _ now (deref hP hp)
      rw [hitTuple]
      split_ifs
      · exact hlast.setFlag _ _ (Or.inl rfl) htouch
      · exact htouch
    rw [hitStore_eq (HasLayout.lt_of_mem_live ⟨live, free, top, hl⟩ hp)]
    exact write (s := s.countRead) hP hhit
  · have hmiss : P (missTuple cmd tuple) := by
      rw [missTuple]
      split_ifs
      · exact hlast.setFlag _ _ (Or.inl rfl) ht
      · exact ht
    have hP₁ : ∀ t ∈ s₁.liveTuples, P t := fun t ht => hP t (hsub ht)
    obtain ⟨live₁, free₁, top₁, hl₁⟩ := hs₁
    rw [missStore_eq hl₁ hlt]
    exact insertedStore ⟨live₁, free₁, top₁, hl₁⟩ hlt hP₁ hmiss _

/-- **A removal.** -/
theorem remove (hlast : Lasting P) (h : HasLayout cfg s) (hP : ∀ t ∈ s.liveTuples, P t)
    (tuple : Tuple) : ∀ t ∈ (tupleRemove s tuple).liveTuples, P t := by
  obtain ⟨live, free, top, hl⟩ := h
  rcases tupleSearch_cases hl tuple with ⟨p, idx, hsearch, hp, -⟩ | ⟨idx, hsearch, -⟩
  · rw [tupleRemove, hsearch]
    exact write (s := s.countRead) hP (hlast.setFlag _ _ (Or.inr rfl) (deref hP hp))
  · rw [tupleRemove, hsearch]
    exact hP

/-- **A sweep**, if it returns. -/
theorem expire (h : HasLayout cfg s) (hP : ∀ t ∈ s.liveTuples, P t) {tao : ℤ}
    (hok : tupleExpire cfg s tao = .ok s') : ∀ t ∈ s'.liveTuples, P t := by
  obtain ⟨live, free, top, hl⟩ := h
  rw [tupleExpire_inv hl hok, (swept_sweptStore tao hl.liveSlots).liveTuples_eq]
  exact fun t ht => hP t (List.mem_of_mem_filter ht)

/-- **A line of the whitelist file**, if it is loaded. -/
theorem line (hlast : Lasting P) (h : HasLayout cfg s) (hP : ∀ t ∈ s.liveTuples, P t)
    {cgi : CgiLib} {now : ℤ} {line : WhiteLine}
    (ht : ∀ t, line.tuple cgi cfg.ndebug now = .ok (some t) → P t)
    (hok : whitelistLoadLine cgi cfg now s line = .ok s') : ∀ t ∈ s'.liveTuples, P t := by
  rcases whitelistLoadLine_inv hok with rfl | ⟨tuple, htuple, hok⟩
  · exact hP
  · obtain ⟨live, free, top, hl⟩ := h
    rcases whitelistLoadTuple_inv hl hok with
      ⟨p, hp, -, rfl⟩ | ⟨idx, s₁, ⟨-, -, hs₁, hlt, hsub⟩, rfl⟩
    · have htouch : P ((s.deref p).touch now) := hlast.touch _ now (deref hP hp)
      have hP' := write (s := s.countRead) (p := p) hP htouch
      rw [confirm]
      split_ifs
      · exact hP'
      · exact write hP' (hlast.setFlag _ _ (Or.inl rfl) (deref hP' hp))
    · have hP₁ : ∀ t ∈ s₁.liveTuples, P t := fun t ht => hP t (hsub ht)
      exact insertedStore hs₁ hlt hP₁ (hlast.setFlag _ _ (Or.inl rfl) (ht tuple htuple)) idx

end Lasting

end Operations

/-! ### Runs -/

section Runs

variable {P : Tuple → Prop} {cgi : CgiLib} {cfg : Config} {srv srv' : Server}

/-- The loop of `whitelist_load`, if it returns. -/
theorem Lasting.foldlM (hlast : Lasting P) {now : ℤ} {lines : List WhiteLine}
    (hlines : ∀ line ∈ lines, ∀ t, line.tuple cgi cfg.ndebug now = .ok (some t) → P t)
    {s s' : TupleSpace} (h : HasLayout cfg s) (hP : ∀ t ∈ s.liveTuples, P t)
    (hok : lines.foldlM (whitelistLoadLine cgi cfg now) s = .ok s') :
    ∀ t ∈ s'.liveTuples, P t := by
  have hline : ∀ s, ∀ line ∈ lines, (HasLayout cfg s ∧ ∀ t ∈ s.liveTuples, P t) →
      Ensures (whitelistLoadLine cgi cfg now s line)
        (fun s => HasLayout cfg s ∧ ∀ t ∈ s.liveTuples, P t) :=
    fun s line hmem hs => (ensures_self _).mono fun s' hs' =>
      ⟨hs.1.line hs', hlast.line hs.1 hs.2 (hlines line hmem) hs'⟩
  exact ((guarantees_foldlM hline ⟨h, hP⟩).ok s' hok).2

/-- A step that makes tuples with the property only. -/
def Action.Makes (cgi : CgiLib) (cfg : Config) (P : Tuple → Prop) : Action → Prop
  | .whitelistLoad now lines =>
      ∀ line ∈ lines, ∀ t, line.tuple cgi cfg.ndebug now = .ok (some t) → P t
  | .request req _ _ => req.Accepts → P (req.tuple cfg)
  | _ => True

/-- **One step** of the server, if it returns. -/
theorem Lasting.actionStep (hlast : Lasting P) (h : HasLayout cfg srv.store)
    (hP : ∀ t ∈ srv.store.liveTuples, P t) {a : Action} (ha : a.Makes cgi cfg P)
    {out : List Output} (hok : actionStep cgi cfg srv a = .ok (srv', out)) :
    ∀ t ∈ srv'.store.liveTuples, P t := by
  have hstep := actionStep_inv hok
  cases hstep with
  | iplistRead => exact hP
  | whitelistLoad now lines s hlines =>
      have hloaded : ∀ t ∈ s.liveTuples, P t := hlast.foldlM ha h hP hlines
      exact hloaded
  | tofromRead name =>
      rw [store_setList]
      exact hP
  | request req canReport type srv' out req' hdispatch =>
      have hstep := dispatch_store hdispatch
      generalize srv'.store = s' at hstep ⊢
      cases hstep with
      | same => exact hP
      | check whitelist r s' hacc hcheck => exact hlast.check h hP (ha hacc) hcheck
      | remove hacc => exact hlast.remove h hP _
  | sweep a now _ srv' s hspace hnum hpool hexpire =>
      rw [← TupleSpace.liveTuples_congr hspace hnum hpool] at hP
      exact Lasting.expire (h.congr hpool hspace hnum) hP hexpire

/-- **A run** from startup on, as far as it gets. -/
theorem run_liveTuples (hlast : Lasting P) {starttime : ℤ} {actions : List Action}
    (hmakes : ∀ a ∈ actions, a.Makes cgi cfg P) {outs : List (List Output)}
    (hrun : run (actionStep cgi cfg) (Server.init cfg starttime) actions = .ok (srv, outs)) :
    ∀ t ∈ srv.store.liveTuples, P t := by
  have hstep : ∀ srv a srv' out,
      (HasLayout cfg (Server.store srv) ∧ ∀ t ∈ srv.store.liveTuples, P t) →
      a.Makes cgi cfg P → actionStep cgi cfg srv a = .ok (srv', out) →
      HasLayout cfg srv'.store ∧ ∀ t ∈ srv'.store.liveTuples, P t :=
    fun _ _ _ _ h ha hok => ⟨actionStep_hasLayout h.1 hok, hlast.actionStep h.1 h.2 ha hok⟩
  have hinit : ∀ t ∈ (Server.init cfg starttime).store.liveTuples, P t :=
    fun t ht => absurd ht List.not_mem_nil
  exact (run_invariant hstep ⟨hasLayout_init cfg, hinit⟩ (along_of_mem hmakes _) hrun).2

end Runs

end XGrey
