import XGrey.TupleLayout

/-!
# The Sweep of the Tuple Space

`tuple_expire` runs over the live records once, compacting the array in place
(`expireStep`), and then over the whole pool, collecting what carries `F_REMOVE`
(`reclaimStep`). The invariant of the first loop is `Marked`.

## Main results

* `tupleExpire_eq`: on a store with a layout the sweep drops exactly the records that are
  due, keeps the others in order, and rebuilds the layout.
* `tupleExpire_error`: its bound check fails when the records that are live or reclaimed
  make up the whole pool and some of them are to be reclaimed.
-/

open CRuntime

namespace XGrey

/-! ### The loop over the live records -/

/-- Whether a sweep at time `tao` drops a live record: it is marked or it has expired. -/
def due (cfg : Config) (tao : ℤ) (t : Tuple) : Bool := t.removed || expired cfg tao t

@[simp] theorem removed_expireMark (cfg : Config) (tao : ℤ) (t : Tuple) :
    (expireMark cfg tao t).removed = due cfg tao t := by
  rw [expireMark, due]
  cases expired cfg tao t <;> simp

@[simp] theorem whitelisted_expireMark (cfg : Config) (tao : ℤ) (t : Tuple) :
    (expireMark cfg tao t).whitelisted = t.whitelisted := by
  rw [expireMark]
  split_ifs <;> simp

@[simp] theorem key_expireMark (cfg : Config) (tao : ℤ) (t : Tuple) :
    (expireMark cfg tao t).key = t.key := by
  rw [expireMark]
  split_ifs <;> rfl

/-- A record that is not due is not touched by the sweep. -/
theorem expireMark_of_not_due {cfg : Config} {tao : ℤ} {t : Tuple}
    (h : due cfg tao t = false) : expireMark cfg tao t = t := by
  have hexp : expired cfg tao t = false := (Bool.or_eq_false_iff.mp h).2
  simp [expireMark, hexp]

/-- How many of some records a sweep drops from the whitelist. -/
def dueWhite (cfg : Config) (tao : ℤ) (ts : List Tuple) : ℕ :=
  ts.countP fun t => due cfg tao t && t.whitelisted

/-- How many of some records a sweep drops that are not whitelisted. -/
def dueGrey (cfg : Config) (tao : ℤ) (ts : List Tuple) : ℕ :=
  ts.countP fun t => due cfg tao t && !t.whitelisted

/-- The pointers to those of the first `i` live records that a sweep keeps. -/
def kept (cfg : Config) (tao : ℤ) (s : TupleSpace) (i : ℕ) : List ℕ :=
  (s.live.take i).filter fun p => !due cfg tao (s.deref p)

theorem length_kept_le (cfg : Config) (tao : ℤ) (s : TupleSpace) (i : ℕ) :
    (kept cfg tao s i).length ≤ i :=
  (List.length_filter_le _ _).trans (List.length_take_le _ _)

theorem take_succ_live {s : TupleSpace} {i : ℕ} (hi : i < s.live.length) :
    s.live.take (i + 1) = s.live.take i ++ [s.live[i]] := by
  rw [List.take_add_one, List.getElem?_eq_getElem hi, Option.toList_some]

theorem kept_succ_of_due {cfg : Config} {tao : ℤ} {s : TupleSpace} {i : ℕ}
    (hi : i < s.live.length) (hdue : due cfg tao (s.deref s.live[i]) = true) :
    kept cfg tao s (i + 1) = kept cfg tao s i := by
  rw [kept, take_succ_live hi, List.filter_append]
  simp [kept, hdue]

theorem kept_succ_of_not_due {cfg : Config} {tao : ℤ} {s : TupleSpace} {i : ℕ}
    (hi : i < s.live.length) (hdue : due cfg tao (s.deref s.live[i]) = false) :
    kept cfg tao s (i + 1) = kept cfg tao s i ++ [s.live[i]] := by
  rw [kept, take_succ_live hi, List.filter_append]
  simp [kept, hdue]

/-- How the count of dropped records grows with one more live record. -/
theorem countP_succ_live {s : TupleSpace} {i : ℕ} (q : Tuple → Bool)
    (hi : i < s.live.length) :
    ((s.live.take (i + 1)).map s.deref).countP q =
      ((s.live.take i).map s.deref).countP q + (q (s.deref s.live[i])).toNat := by
  rw [take_succ_live hi, List.map_append, List.countP_append]
  cases hq : q (s.deref s.live[i]) <;> simp [hq]

/-- The state of the first loop of the sweep after the first `i` live records: those that
stay stand at the front of the array, whose rest is untouched, and those that were read
carry their flags. -/
structure Marked (cfg : Config) (tao : ℤ) (s : TupleSpace) (i : ℕ)
    (st : TupleSpace × ℕ) : Prop where
  index : st.2 = (kept cfg tao s i).length
  tuplespace : st.1.tuplespace =
    kept cfg tao s i ++ s.tuplespace.drop (kept cfg tao s i).length
  length_pool : st.1.pool.length = s.pool.length
  deref_mem : ∀ p ∈ s.live.take i, st.1.deref p = expireMark cfg tao (s.deref p)
  deref_notMem : ∀ p, p ∉ s.live.take i → st.1.deref p = s.deref p
  rest : st.1 = { s with
    pool := st.1.pool
    tuplespace := st.1.tuplespace
    whitelisted := s.whitelisted - dueWhite cfg tao ((s.live.take i).map s.deref)
    whitelistExpired := s.whitelistExpired + dueWhite cfg tao ((s.live.take i).map s.deref)
    greylistExpired := s.greylistExpired + dueGrey cfg tao ((s.live.take i).map s.deref) }

/-- The entry the first loop reads next has not been overwritten. -/
theorem Marked.slot_eq {cfg : Config} {tao : ℤ} {s : TupleSpace} {i : ℕ}
    {st : TupleSpace × ℕ} (h : Marked cfg tao s i st) (hi : i < s.live.length) :
    st.1.slot i = s.live[i] := by
  have hle := length_kept_le cfg tao s i
  have hlive : i < s.tuplespace.length := by
    simp only [TupleSpace.live, List.length_take] at hi
    omega
  have hget : st.1.tuplespace[i]? = s.tuplespace[i]? := by
    rw [h.tuplespace, List.getElem?_append_right hle, List.getElem?_drop]
    congr 1
    omega
  simp [TupleSpace.slot, hget, TupleSpace.live, hlive]

/-- The next live tuple is not one of those before. -/
theorem getElem_live_notMem_take {s : TupleSpace} {i : ℕ} (hi : i < s.live.length)
    (hnd : s.live.Nodup) : s.live[i] ∉ s.live.take i := by
  intro hmem
  obtain ⟨k, hk, heq⟩ := List.mem_take_iff_getElem.mp hmem
  have := (List.Nodup.getElem_inj_iff hnd).mp heq
  omega

/-- What marking one more live tuple does to the records, whichever branch is taken. -/
theorem Marked.write {cfg : Config} {tao : ℤ} {s s' : TupleSpace} {i : ℕ}
    {st : TupleSpace × ℕ} (h : Marked cfg tao s i st) (hi : i < s.live.length)
    (hnd : s.live.Nodup) (hpool : ∀ p ∈ s.live, p < s.pool.length)
    (hs' : s' = st.1.write s.live[i] (expireMark cfg tao (s.deref s.live[i]))) :
    s'.pool.length = s.pool.length ∧
      (∀ q ∈ s.live.take (i + 1), s'.deref q = expireMark cfg tao (s.deref q)) ∧
      ∀ q, q ∉ s.live.take (i + 1) → s'.deref q = s.deref q := by
  have htake := take_succ_live hi
  have hpnot := getElem_live_notMem_take hi hnd
  have hplt : s.live[i] < st.1.pool.length :=
    h.length_pool ▸ hpool _ (List.getElem_mem hi)
  subst hs'
  refine ⟨?_, ?_, ?_⟩
  · rw [TupleSpace.length_pool_write, h.length_pool]
  · intro q hq
    rcases List.mem_append.mp (htake ▸ hq) with hq | hq
    · have hpq : s.live[i] ≠ q := fun heq => hpnot (heq.symm ▸ hq)
      rw [TupleSpace.deref_write_ne _ hpq, h.deref_mem q hq]
    · rw [List.mem_singleton.mp hq]
      exact TupleSpace.deref_write_self _ hplt
  · intro q hq
    rw [htake, List.mem_append, List.mem_singleton, not_or] at hq
    rw [TupleSpace.deref_write_ne _ (Ne.symm hq.2), h.deref_notMem q hq.1]

/-- One step of the first loop. -/
theorem Marked.step {cfg : Config} {tao : ℤ} {s : TupleSpace} {i : ℕ} {st : TupleSpace × ℕ}
    (h : Marked cfg tao s i st) (hi : i < s.live.length) (hnd : s.live.Nodup)
    (hpool : ∀ p ∈ s.live, p < s.pool.length) :
    Marked cfg tao s (i + 1) (expireStep cfg tao st i) := by
  have hslot := h.slot_eq hi
  have hpnot := getElem_live_notMem_take hi hnd
  have hderef : st.1.deref s.live[i] = s.deref s.live[i] := h.deref_notMem _ hpnot
  obtain ⟨hlen, hmem, hnot⟩ := h.write hi hnd hpool rfl
  have hrest := h.rest
  unfold expireStep
  dsimp only
  rw [hslot, hderef, removed_expireMark, whitelisted_expireMark]
  cases hdue : due cfg tao (s.deref s.live[i]) with
  | true =>
      have hkept := kept_succ_of_due hi hdue
      cases hw : (s.deref s.live[i]).whitelisted <;>
        exact
          { index := hkept ▸ h.index
            tuplespace := hkept ▸ h.tuplespace
            length_pool := hlen
            deref_mem := hmem
            deref_notMem := hnot
            rest := by
              rw [hrest]
              simp only [TupleSpace.write, dueWhite, dueGrey, countP_succ_live _ hi, hdue, hw]
              simp [Int.sub_sub, Nat.add_assoc] }
  | false =>
      have hkept := kept_succ_of_not_due hi hdue
      have hle := length_kept_le cfg tao s i
      have hlive : i < s.tuplespace.length := by
        simp only [TupleSpace.live, List.length_take] at hi
        omega
      exact
        { index := by simp [hkept, h.index]
          tuplespace := by
            simp only [Bool.false_eq_true, if_false, TupleSpace.tuplespace_write]
            rw [h.tuplespace, hkept, h.index, set_append_drop _ _ _ (by omega),
              List.length_append, List.length_singleton]
          length_pool := hlen
          deref_mem := hmem
          deref_notMem := hnot
          rest := by
            rw [hrest]
            simp only [TupleSpace.write, dueWhite, dueGrey, countP_succ_live _ hi, hdue]
            simp }

/-- The first loop of the sweep. -/
theorem marked_foldl {cfg : Config} {tao : ℤ} {s : TupleSpace} (hnd : s.live.Nodup)
    (hpool : ∀ p ∈ s.live, p < s.pool.length) {i : ℕ} (hi : i ≤ s.live.length) :
    Marked cfg tao s i ((List.range i).foldl (expireStep cfg tao) (s, 0)) := by
  induction i with
  | zero =>
      exact
        { index := rfl
          tuplespace := by simp [kept]
          length_pool := rfl
          deref_mem := by simp
          deref_notMem := fun _ _ => rfl
          rest := by simp [dueWhite, dueGrey] }
  | succ i ih =>
      rw [List.range_succ, List.foldl_append]
      exact (ih (by omega)).step (by omega) hnd hpool

/-! ### Rebuilding the free part -/

/-- Those of some records that carry `F_REMOVE`. -/
def flagged (s : TupleSpace) (is : List ℕ) : List ℕ :=
  is.filter fun i => (s.deref i).removed

@[simp] theorem flagged_withSpace (s : TupleSpace) (a is : List ℕ) :
    flagged (s.withSpace a) is = flagged s is := rfl

theorem flagged_cons (s : TupleSpace) (i : ℕ) (is : List ℕ) :
    flagged s (i :: is) =
      if (s.deref i).removed then i :: flagged s is else flagged s is := by
  rw [flagged, List.filter_cons]
  rfl

theorem mem_flagged {s : TupleSpace} {is : List ℕ} {p : ℕ} :
    p ∈ flagged s is ↔ p ∈ is ∧ (s.deref p).removed = true :=
  List.mem_filter

/-- A record that carries the flag goes behind those collected before it, if the
assertion after it passes. -/
theorem reclaimStep_of_removed {cfg : Config} {s : TupleSpace} {pre orig : List ℕ} {i : ℕ}
    (hspace : s.tuplespace = pre ++ orig.drop pre.length) (hfit : pre.length < orig.length)
    (hi : (s.deref i).removed = true) :
    reclaimStep cfg (s, pre.length) i =
      (cassert cfg.ndebug (pre.length + 1 < cfg.poolmax) >>= fun _ =>
        .ok (s.withSpace (pre ++ [i] ++ orig.drop (pre.length + 1)), pre.length + 1)) := by
  have hlen : pre.length < s.tuplespace.length := by
    rw [hspace, List.length_append, List.length_drop]
    omega
  simp only [reclaimStep, hi, if_true, hlen]
  rw [hspace, set_append_drop _ _ _ hfit]
  rfl

/-- The second loop of the sweep collects the flagged records in the order of the pool,
behind the entries that stay. -/
theorem reclaim_eq {cfg : Config} {s : TupleSpace} {pre orig : List ℕ} (is : List ℕ)
    (hspace : s.tuplespace = pre ++ orig.drop pre.length)
    (hfit : pre.length + (flagged s is).length ≤ orig.length)
    (hroom : cfg.ndebug = true ∨ flagged s is = [] ∨
      pre.length + (flagged s is).length < cfg.poolmax) :
    is.foldlM (reclaimStep cfg) (s, pre.length) =
      .ok (s.withSpace
          (pre ++ flagged s is ++ orig.drop (pre.length + (flagged s is).length)),
        pre.length + (flagged s is).length) := by
  induction is generalizing s pre with
  | nil =>
      simp only [flagged, List.filter_nil, List.foldlM_nil, List.append_nil, List.length_nil,
        Nat.add_zero, ← hspace]
      rfl
  | cons i is ih =>
      rw [List.foldlM_cons]
      rw [flagged_cons] at hfit hroom ⊢
      cases hi : (s.deref i).removed with
      | false =>
          simp only [hi, Bool.false_eq_true, if_false] at hfit hroom ⊢
          have hstep : reclaimStep cfg (s, pre.length) i = .ok (s, pre.length) := by
            simp [reclaimStep, hi]
          rw [hstep, ok_bind, ih hspace hfit hroom]
      | true =>
          simp only [hi, if_true, List.length_cons] at hfit hroom ⊢
          have hassert : cassert cfg.ndebug (pre.length + 1 < cfg.poolmax) = .ok () := by
            refine cassert_eq_ok.mpr (hroom.imp_right fun h => ?_)
            rcases h with h | h
            · cases h
            · omega
          rw [reclaimStep_of_removed hspace (by omega) hi, hassert, ok_bind, ok_bind]
          have hlen : (pre ++ [i]).length = pre.length + 1 := by simp
          have hsum : pre.length + 1 + (flagged s is).length =
              pre.length + ((flagged s is).length + 1) := by omega
          have hfit' : (pre ++ [i]).length + (flagged s is).length ≤ orig.length := by
            rw [hlen, hsum]
            exact hfit
          have hroom' : cfg.ndebug = true ∨ flagged s is = [] ∨
              (pre ++ [i]).length + (flagged s is).length < cfg.poolmax := by
            rw [hlen, hsum]
            refine hroom.imp_right fun h => Or.inr ?_
            rcases h with h | h
            · cases h
            · exact h
          have hih := ih (s := s.withSpace (pre ++ [i] ++ orig.drop (pre.length + 1)))
            (by rw [hlen]; rfl) hfit' hroom'
          rw [hlen] at hih
          rw [hih]
          simp [hsum]

/-- The second loop fails its bound check when the entries that stay and those collected
fill the array, if any are collected. -/
theorem reclaim_error {cfg : Config} {s : TupleSpace} {pre orig is : List ℕ}
    (hcheck : cfg.ndebug = false) (hspace : s.tuplespace = pre ++ orig.drop pre.length)
    (hfit : pre.length + (flagged s is).length ≤ orig.length)
    (hsome : flagged s is ≠ [])
    (hfull : cfg.poolmax ≤ pre.length + (flagged s is).length) :
    is.foldlM (reclaimStep cfg) (s, pre.length) = .error .assertion := by
  induction is generalizing s pre with
  | nil => exact absurd rfl hsome
  | cons i is ih =>
      rw [List.foldlM_cons]
      rw [flagged_cons] at hfit hsome hfull
      cases hi : (s.deref i).removed with
      | false =>
          simp only [hi, Bool.false_eq_true, if_false] at hfit hsome hfull
          have hstep : reclaimStep cfg (s, pre.length) i = .ok (s, pre.length) := by
            simp [reclaimStep, hi]
          rw [hstep, ok_bind, ih hspace hfit hsome hfull]
      | true =>
          simp only [hi, if_true, List.length_cons] at hfit hfull
          rw [reclaimStep_of_removed hspace (by omega) hi, hcheck]
          by_cases hlast : pre.length + 1 < cfg.poolmax
          · rw [cassert_of hlast, ok_bind, ok_bind]
            have hlen : (pre ++ [i]).length = pre.length + 1 := by simp
            have hmore : flagged s is ≠ [] := by
              intro hnil
              rw [hnil, List.length_nil] at hfull
              omega
            have hfit' : (pre ++ [i]).length + (flagged s is).length ≤ orig.length := by
              omega
            have hfull' : cfg.poolmax ≤ (pre ++ [i]).length + (flagged s is).length := by
              omega
            have hih := ih (s := s.withSpace (pre ++ [i] ++ orig.drop (pre.length + 1)))
              (by rw [hlen]; rfl) hfit' hmore hfull'
            rwa [hlen] at hih
          · rw [cassert_false_of_not hlast, error_bind, error_bind]

/-! ### The sweep as a whole -/

/-- What a sweep at time `tao` has done to the store. -/
structure Swept (cfg : Config) (tao : ℤ) (s s' : TupleSpace) : Prop where
  live_eq : s'.live = s.live.filter fun p => !due cfg tao (s.deref p)
  deref_mem : ∀ p ∈ s.live, s'.deref p = expireMark cfg tao (s.deref p)
  deref_notMem : ∀ p, p ∉ s.live → s'.deref p = s.deref p
  rest : s' = { s with
    pool := s'.pool
    tuplespace := s'.tuplespace
    poolnum := s'.poolnum
    whitelisted := s.whitelisted - dueWhite cfg tao s.liveTuples
    whitelistExpired := s.whitelistExpired + dueWhite cfg tao s.liveTuples
    greylistExpired := s.greylistExpired + dueGrey cfg tao s.liveTuples
    tuplesWrite := s.tuplesWrite + 1
    tuplesWriteCucurrent := s.tuplesWriteCucurrent + 1
    tuplesLow := min s.tuplesLow s'.poolnum
    tuplesHigh := max s.tuplesHigh s'.poolnum }

namespace Swept

variable {cfg : Config} {tao : ℤ} {s s' : TupleSpace}

/-- A record that stays is unchanged. -/
theorem deref_kept (h : Swept cfg tao s s') {p : ℕ} (hp : p ∈ s'.live) :
    s'.deref p = s.deref p := by
  rw [h.live_eq, List.mem_filter] at hp
  rw [h.deref_mem p hp.1, expireMark_of_not_due (by simpa using hp.2)]

/-- The tuples that stay, in their order. -/
theorem liveTuples_eq (h : Swept cfg tao s s') :
    s'.liveTuples = s.liveTuples.filter fun t => !due cfg tao t := by
  have hmap : s'.liveTuples = s'.live.map s.deref :=
    List.map_congr_left fun p hp => h.deref_kept hp
  rw [hmap, h.live_eq, TupleSpace.liveTuples, List.filter_map]
  rfl

/-- A sweep keeps a sorted store sorted. -/
theorem pairwise_keys (h : Swept cfg tao s s') (hs : s.keys.Pairwise (· < ·)) :
    s'.keys.Pairwise (· < ·) := by
  rw [TupleSpace.keys, h.liveTuples_eq]
  exact hs.sublist (List.filter_sublist.map _)

end Swept

/-- The pointers that a sweep keeps, and those that it finds flagged afterwards, are the
two parts of the used records again. -/
theorem Layout.perm_swept {cfg : Config} {s s' : TupleSpace} {live free kept : List ℕ}
    {top : ℕ} (h : Layout cfg s live free top) (hsub : kept.Sublist live)
    (hflag : ∀ p < cfg.poolmax, (s'.deref p).removed = true ↔ p < top ∧ p ∉ kept) :
    (kept ++ flagged s' (List.range cfg.poolmax)).Perm (List.range top) := by
  have htop := h.top_le
  have hmem : ∀ p, p ∈ flagged s' (List.range cfg.poolmax) ↔ p < top ∧ p ∉ kept := by
    intro p
    rw [mem_flagged, List.mem_range]
    constructor
    · rintro ⟨hp, hr⟩
      exact (hflag p hp).mp hr
    · rintro ⟨hp, hk⟩
      exact ⟨by omega, (hflag p (by omega)).mpr ⟨hp, hk⟩⟩
  have hnd : (kept ++ flagged s' (List.range cfg.poolmax)).Nodup := by
    refine List.nodup_append.mpr
      ⟨h.nodup_live.sublist hsub, List.nodup_range.filter _, fun p hp q hq hpq => ?_⟩
    exact ((hmem q).mp hq).2 (hpq ▸ hp)
  refine (List.perm_ext_iff_of_nodup hnd List.nodup_range).mpr fun p => ?_
  rw [List.mem_append, hmem, List.mem_range]
  constructor
  · rintro (hp | hp)
    · exact (h.mem_iff p).mp (Or.inl (hsub.subset hp))
    · exact hp.1
  · intro hp
    exact (em (p ∈ kept)).imp_right fun hk => ⟨hp, hk⟩

section Expire

variable {cfg : Config} {tao : ℤ} {s : TupleSpace} {live free : List ℕ} {top : ℕ}

/-- The store between the two loops of the sweep. -/
def halfSwept (cfg : Config) (tao : ℤ) (s : TupleSpace) : TupleSpace :=
  let st := (List.range s.poolnum).foldl (expireStep cfg tao) (s.countWrite, 0)
  { st.1 with poolnum := st.2 }

/-- The sweep in terms of its two loops. -/
theorem tupleExpire_eq_bind (cfg : Config) (s : TupleSpace) (tao : ℤ) :
    tupleExpire cfg s tao =
      (List.range cfg.poolmax).foldlM (reclaimStep cfg)
          (halfSwept cfg tao s, (halfSwept cfg tao s).poolnum) >>= fun st =>
        .ok { st.1 with
          tuplesLow := min st.1.tuplesLow st.1.poolnum
          tuplesHigh := max st.1.tuplesHigh st.1.poolnum } := by
  rw [tupleExpire, halfSwept]
  dsimp only
  congr 1
  funext st
  split_ifs <;> simp_all <;> omega

/-- The pointers that the sweep keeps. -/
def keepers (cfg : Config) (tao : ℤ) (s : TupleSpace) : List ℕ :=
  s.live.filter fun p => !due cfg tao (s.deref p)

theorem mem_keepers {p : ℕ} :
    p ∈ keepers cfg tao s ↔ p ∈ s.live ∧ due cfg tao (s.deref p) = false := by
  rw [keepers, List.mem_filter, Bool.not_eq_true']

variable (tao)

/-- The first loop, in terms of the store that the sweep started from. -/
theorem marked_halfSwept (h : LiveSlots cfg s) :
    ∃ st, Marked cfg tao s.countWrite s.live.length st ∧
      halfSwept cfg tao s = { st.1 with poolnum := st.2 } := by
  have hnodup : s.countWrite.live.Nodup := h.nodup
  refine ⟨_, marked_foldl hnodup (fun p hp => ?_) (Nat.le_refl _), ?_⟩
  · exact (h.lt_poolmax p hp).trans_eq h.length_pool.symm
  · rw [h.length_live]
    rfl

/-- The live records carry their flags then, and the others are as they were. -/
theorem deref_halfSwept (h : LiveSlots cfg s) (p : ℕ) :
    (halfSwept cfg tao s).deref p =
      if p ∈ s.live then expireMark cfg tao (s.deref p) else s.deref p := by
  obtain ⟨st, hm, hhalf⟩ := marked_halfSwept tao h
  have hmem := hm.deref_mem
  have hnot := hm.deref_notMem
  simp only [TupleSpace.live_countWrite, List.take_length, TupleSpace.deref_countWrite]
    at hmem hnot
  have hderef : (halfSwept cfg tao s).deref p = st.1.deref p := by rw [hhalf]; rfl
  rw [hderef]
  split_ifs with hp
  · exact hmem p hp
  · exact hnot p hp

/-- Which records are flagged between the two loops: those that were used and do not
stay. -/
theorem removed_halfSwept (h : Layout cfg s live free top) (p : ℕ) (hp : p < cfg.poolmax) :
    ((halfSwept cfg tao s).deref p).removed = true ↔ p < top ∧ p ∉ keepers cfg tao s := by
  rw [deref_halfSwept tao h.liveSlots]
  rcases lt_or_ge p top with htop | htop
  · rcases (h.mem_iff p).mpr htop with hl | hf
    · have hl' : p ∈ s.live := h.live_eq ▸ hl
      simp [mem_keepers, hl', htop]
    · have hl' : p ∉ s.live := fun hl => h.disjoint (h.live_eq ▸ hl) hf
      simp [mem_keepers, hl', htop, h.reclaimed p hf]
  · have hl' : p ∉ s.live := fun hl =>
      absurd ((h.mem_iff p).mp (Or.inl (h.live_eq ▸ hl))) (not_lt.mpr htop)
    simp [hl', not_lt.mpr htop, h.unused p htop hp]

/-- The free part of the array after the sweep. -/
def reclaimed (cfg : Config) (tao : ℤ) (s : TupleSpace) : List ℕ :=
  flagged (halfSwept cfg tao s) (List.range cfg.poolmax)

/-- What stays is not collected, and nothing is collected twice. -/
theorem nodup_keepers_reclaimed (h : LiveSlots cfg s) :
    (keepers cfg tao s ++ reclaimed cfg tao s).Nodup := by
  refine List.nodup_append.mpr
    ⟨h.nodup.sublist List.filter_sublist, List.nodup_range.filter _, ?_⟩
  rintro p hp q hq rfl
  obtain ⟨hlive, hdue⟩ := mem_keepers.mp hp
  have hflag := (mem_flagged.mp hq).2
  rw [deref_halfSwept tao h, if_pos hlive, removed_expireMark, hdue] at hflag
  cases hflag

/-- So the array has room for both. -/
theorem length_keepers_add_reclaimed_le (h : LiveSlots cfg s) :
    (keepers cfg tao s).length + (reclaimed cfg tao s).length ≤ cfg.poolmax := by
  have hsub : keepers cfg tao s ++ reclaimed cfg tao s ⊆ List.range cfg.poolmax := by
    intro p hp
    rcases List.mem_append.mp hp with hp | hp
    · exact List.mem_range.mpr (h.lt_poolmax p (mem_keepers.mp hp).1)
    · exact (mem_flagged.mp hp).1
  simpa using (nodup_keepers_reclaimed tao h).length_le_of_subset hsub

/-- What stays and what is collected are the used records again. -/
theorem perm_keepers_reclaimed (h : Layout cfg s live free top) :
    (keepers cfg tao s ++ reclaimed cfg tao s).Perm (List.range top) :=
  h.perm_swept (h.live_eq ▸ List.filter_sublist) (removed_halfSwept tao h)

theorem length_keepers_add_reclaimed (h : Layout cfg s live free top) :
    (keepers cfg tao s).length + (reclaimed cfg tao s).length = top := by
  simpa using (perm_keepers_reclaimed tao h).length_eq

/-- Nothing is collected when nothing was free and nothing is due. -/
theorem reclaimed_eq_nil_iff (h : Layout cfg s live free top) :
    reclaimed cfg tao s = [] ↔
      free = [] ∧ ∀ t ∈ s.liveTuples, due cfg tao t = false := by
  have hk := length_keepers_add_reclaimed tao h
  have hl := h.length_live_add_free
  have hall : (∀ t ∈ s.liveTuples, due cfg tao t = false) ↔
      (keepers cfg tao s).length = live.length := by
    rw [← h.live_eq, keepers, List.length_filter_eq_length_iff]
    simp [TupleSpace.liveTuples]
  have hle : (keepers cfg tao s).length ≤ live.length :=
    h.live_eq ▸ List.length_filter_le _ _
  rw [hall, ← List.length_eq_zero_iff, ← List.length_eq_zero_iff]
  omega

/-- The first loop keeps what the sweep keeps. -/
theorem kept_countWrite : kept cfg tao s.countWrite s.live.length = keepers cfg tao s := by
  change (s.live.take s.live.length).filter _ = _
  rw [List.take_length]
  rfl

/-- The array between the two loops. -/
theorem tuplespace_halfSwept (h : LiveSlots cfg s) :
    (halfSwept cfg tao s).tuplespace =
      keepers cfg tao s ++ s.tuplespace.drop (keepers cfg tao s).length := by
  obtain ⟨st, hm, hhalf⟩ := marked_halfSwept tao h
  have hspace := hm.tuplespace
  rw [kept_countWrite] at hspace
  rw [hhalf]
  exact hspace

theorem poolnum_halfSwept (h : LiveSlots cfg s) :
    (halfSwept cfg tao s).poolnum = (keepers cfg tao s).length := by
  obtain ⟨st, hm, hhalf⟩ := marked_halfSwept tao h
  rw [hhalf, ← kept_countWrite]
  exact hm.index

/-- The store after the sweep. -/
def sweptStore (cfg : Config) (tao : ℤ) (s : TupleSpace) (top : ℕ) : TupleSpace :=
  let s' := (halfSwept cfg tao s).withSpace
    (keepers cfg tao s ++ reclaimed cfg tao s ++ s.tuplespace.drop top)
  { s' with
    tuplesLow := min s'.tuplesLow s'.poolnum
    tuplesHigh := max s'.tuplesHigh s'.poolnum }

theorem live_sweptStore (h : LiveSlots cfg s) :
    (sweptStore cfg tao s top).live = keepers cfg tao s := by
  refine TupleSpace.live_eq_of_append (List.append_assoc _ _ _) ?_
  exact (poolnum_halfSwept tao h).symm

theorem swept_sweptStore (h : LiveSlots cfg s) :
    Swept cfg tao s (sweptStore cfg tao s top) := by
  obtain ⟨st, hm, hhalf⟩ := marked_halfSwept tao h
  have hrest := hm.rest
  simp only [TupleSpace.live_countWrite, List.take_length] at hrest
  have hderef : ∀ p, (sweptStore cfg tao s top).deref p =
      if p ∈ s.live then expireMark cfg tao (s.deref p) else s.deref p :=
    deref_halfSwept tao h
  exact
    { live_eq := live_sweptStore tao h
      deref_mem := fun p hp => (hderef p).trans (if_pos hp)
      deref_notMem := fun p hp => (hderef p).trans (if_neg hp)
      rest := by
        rw [sweptStore, hhalf, hrest]
        rfl }

theorem layout_sweptStore (h : Layout cfg s live free top) :
    Layout cfg (sweptStore cfg tao s top) (keepers cfg tao s) (reclaimed cfg tao s) top := by
  have hflag := removed_halfSwept tao h
  obtain ⟨st, hm, hhalf⟩ := marked_halfSwept tao h.liveSlots
  exact
    { length_pool := by
        change (halfSwept cfg tao s).pool.length = _
        rw [hhalf]
        exact hm.length_pool.trans h.length_pool
      tuplespace_eq := by
        have hfront : (live ++ free).length = top := by
          rw [List.length_append, h.length_live_add_free]
        change _ ++ s.tuplespace.drop top = _
        rw [h.tuplespace_eq, ← hfront, List.drop_left]
      length_live := (poolnum_halfSwept tao h.liveSlots).symm
      perm := perm_keepers_reclaimed tao h
      top_le := h.top_le
      reclaimed := fun p hp => (mem_flagged.mp hp).2
      unused := fun p hp hlt => by
        refine Bool.eq_false_iff.mpr fun hr => ?_
        exact absurd ((hflag p hlt).mp hr).1 (not_lt.mpr hp) }

/-- The sweep passes its bound check when nothing is collected, or when what stays and what
is collected leave an entry of the array free. -/
theorem tupleExpire_eq_sweptStore (h : LiveSlots cfg s)
    (hroom : cfg.ndebug = true ∨ reclaimed cfg tao s = [] ∨
      (keepers cfg tao s).length + (reclaimed cfg tao s).length < cfg.poolmax) :
    tupleExpire cfg s tao = .ok (sweptStore cfg tao s
      ((keepers cfg tao s).length + (reclaimed cfg tao s).length)) := by
  have hle := length_keepers_add_reclaimed_le tao h
  have hrec := reclaim_eq (List.range cfg.poolmax) (tuplespace_halfSwept tao h)
    (by rw [h.length_tuplespace]; exact hle) hroom
  rw [tupleExpire_eq_bind, poolnum_halfSwept tao h, hrec, ok_bind]
  rfl

/-- It fails it otherwise. -/
theorem tupleExpire_eq_error (h : LiveSlots cfg s) (hcheck : cfg.ndebug = false)
    (hsome : reclaimed cfg tao s ≠ [])
    (hfull : cfg.poolmax ≤ (keepers cfg tao s).length + (reclaimed cfg tao s).length) :
    tupleExpire cfg s tao = .error .assertion := by
  have hle := length_keepers_add_reclaimed_le tao h
  have hfit : (keepers cfg tao s).length + (reclaimed cfg tao s).length ≤ s.tuplespace.length :=
    h.length_tuplespace ▸ hle
  have hrec := reclaim_error hcheck (tuplespace_halfSwept tao h) hfit hsome hfull
  rw [tupleExpire_eq_bind, poolnum_halfSwept tao h, hrec, error_bind]

/-- **The sweep.** Unless its bound check fails, it drops exactly the records that are
due and leaves the others in place and in order. -/
theorem tupleExpire_eq (h : Layout cfg s live free top)
    (hroom : cfg.ndebug = true ∨ top < cfg.poolmax ∨
      (free = [] ∧ ∀ t ∈ s.liveTuples, due cfg tao t = false)) :
    tupleExpire cfg s tao = .ok (sweptStore cfg tao s top) := by
  have hcount := length_keepers_add_reclaimed tao h
  rw [← reclaimed_eq_nil_iff tao h] at hroom
  rw [← hcount]
  refine tupleExpire_eq_sweptStore tao h.liveSlots (hroom.imp_right fun hroom => ?_)
  rw [hcount]
  exact hroom.symm

/-- **The bound check of the sweep fails** in the other cases. -/
theorem tupleExpire_error (h : Layout cfg s live free top) (hcheck : cfg.ndebug = false)
    (htop : top = cfg.poolmax)
    (hsome : ¬ (free = [] ∧ ∀ t ∈ s.liveTuples, due cfg tao t = false)) :
    tupleExpire cfg s tao = .error .assertion := by
  have hcount := length_keepers_add_reclaimed tao h
  rw [← reclaimed_eq_nil_iff tao h] at hsome
  exact tupleExpire_eq_error tao h.liveSlots hcheck hsome (htop.symm.trans_le hcount.ge)

end Expire

end XGrey
