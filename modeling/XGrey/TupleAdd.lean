import XGrey.TupleExpire

/-!
# Searching and Inserting Tuples

What `tuple_search`, `tuple_allocate` and `tuple_add` do to a store with a layout. A
sorted store is one whose keys, in the order of the array, increase strictly.

## Main results

* `tupleSearch_spec`: on a sorted store a tuple is found exactly when its key is live,
  and otherwise the index is its insertion point.
* `tupleAllocate_of_lt`, `tupleAllocate_of_full`, `tupleAllocate_of_due`: the three cases
  of an allocation.
* `tupleAdd_eq`: the insertion of the next free record, and the layout after it.
-/

open CRuntime SortedSeq ArrayShift

namespace XGrey

/-! ### Searching -/

/-- The entries of the array that the search reads are the live ones. -/
theorem slot_eq_getElem_live {s : TupleSpace} {i : ℕ} (hi : i < s.live.length) :
    s.slot i = s.live[i] := by
  have hlt : i < s.tuplespace.length := by
    simp only [TupleSpace.live, List.length_take] at hi
    omega
  simp [TupleSpace.slot, TupleSpace.live, hlt]

@[simp] theorem length_keys (s : TupleSpace) : s.keys.length = s.live.length := by
  simp [TupleSpace.keys, TupleSpace.liveTuples]

theorem getElem_keys {s : TupleSpace} {i : ℕ} (hi : i < s.keys.length) :
    s.keys[i] = (s.deref (s.slot i)).key := by
  rw [slot_eq_getElem_live (by simpa using hi)]
  simp [TupleSpace.keys, TupleSpace.liveTuples]

theorem mem_keys {s : TupleSpace} {k : Key} :
    k ∈ s.keys ↔ ∃ p ∈ s.live, (s.deref p).key = k := by
  simp [TupleSpace.keys, TupleSpace.liveTuples]

/-- The search in terms of `bisearch`. -/
theorem tupleSearch_eq {s : TupleSpace} {key : Tuple} {n : ℕ} {item : Found}
    (hn : s.poolnum = n)
    (h : bisearch (fun i => tupleLookIft key (s.deref (s.slot i))) n = item) :
    tupleSearch s key = (item.datum.map s.slot, item.idx, s.countRead) := by
  subst hn h
  rfl

/-- **The search** on a sorted store. -/
theorem tupleSearch_spec {s : TupleSpace} (hlen : s.live.length = s.poolnum)
    (hs : s.keys.Pairwise (· < ·)) (key : Tuple) :
    (∃ p ∈ s.live, ∃ idx, (s.deref p).key = key.key ∧
        tupleSearch s key = (some p, idx, s.countRead)) ∨
      ∃ idx, SplitsAt key.key s.keys idx ∧
        tupleSearch s key = (none, idx, s.countRead) := by
  have hcmp : ∀ i (hi : i < s.keys.length),
      (tupleLookIft key (s.deref (s.slot i))).Compares key.key s.keys[i] := by
    intro i hi
    rw [getElem_keys hi]
    exact tupleLookIft_compares key _
  have hnum : s.poolnum = s.keys.length := by rw [length_keys, hlen]
  rcases bisearch_spec hs hcmp with ⟨i, hi, hfound, heq⟩ | ⟨idx, hmiss, hsplit⟩
  · left
    have hi' : i < s.live.length := by simpa using hi
    refine ⟨s.slot i, ?_, i, ?_, tupleSearch_eq hnum hfound⟩
    · rw [slot_eq_getElem_live hi']
      exact List.getElem_mem hi'
    · rw [← getElem_keys hi, heq]
  · right
    exact ⟨idx, hsplit, tupleSearch_eq hnum hmiss⟩

/-- Whatever the order of the array, a tuple that is found is live and has the key, and
the index lies in the live part or at its end. -/
theorem tupleSearch_bounds {s : TupleSpace} (hlen : s.live.length = s.poolnum)
    (key : Tuple) :
    (tupleSearch s key).2.2 = s.countRead ∧ (tupleSearch s key).2.1 ≤ s.poolnum ∧
      ∀ p, (tupleSearch s key).1 = some p → p ∈ s.live ∧ (s.deref p).key = key.key := by
  obtain ⟨hidx, hdatum⟩ := bisearchLoop_bounds
    (fun i => tupleLookIft key (s.deref (s.slot i))) 0 s.poolnum
  refine ⟨rfl, hidx.trans_eq (Nat.zero_add _), fun p hp => ?_⟩
  obtain ⟨i, hi, rfl⟩ := Option.map_eq_some_iff.mp hp
  obtain ⟨-, hlt, heq⟩ := hdatum i hi
  have hcmp := tupleLookIft_compares key (s.deref (s.slot i))
  rw [heq] at hcmp
  have hi' : i < s.live.length := by omega
  refine ⟨?_, Eq.symm hcmp⟩
  change s.slot i ∈ s.live
  rw [slot_eq_getElem_live hi']
  exact List.getElem_mem hi'

/-! ### The next free record -/

section Insert

variable {cfg : Config} {s : TupleSpace} {live free : List ℕ} {top : ℕ}

/-- The entry behind the live ones is the first reclaimed record or, when there is none,
the first unused one. -/
theorem Layout.next_free (h : Layout cfg s live free top) (hlt : s.poolnum < cfg.poolmax) :
    (∃ free', free = s.slot s.poolnum :: free') ∨
      (free = [] ∧ s.slot s.poolnum = top ∧ top < cfg.poolmax) := by
  have hspace := h.tuplespace_eq
  have hcount := h.length_live_add_free
  have hlen := h.length_live
  cases free with
  | cons p free' =>
      refine Or.inl ⟨free', ?_⟩
      simp [TupleSpace.slot, hspace, ← hlen]
  | nil =>
      have htop : top < cfg.poolmax := by
        simp only [List.length_nil] at hcount
        omega
      obtain ⟨n, hn⟩ : ∃ n, cfg.poolmax - top = n + 1 := ⟨cfg.poolmax - top - 1, by omega⟩
      refine Or.inr ⟨rfl, ?_, htop⟩
      simp [TupleSpace.slot, hspace, ← hlen, hn, List.range'_succ]

/-- The array around the entry behind the live ones. -/
theorem Layout.tuplespace_split (h : Layout cfg s live free top)
    (hlt : s.poolnum < cfg.poolmax) :
    s.tuplespace =
      s.live ++ s.slot s.poolnum :: s.tuplespace.drop (s.poolnum + 1) := by
  have hlen : s.poolnum < s.tuplespace.length := by rwa [h.length_tuplespace]
  have hslot : s.slot s.poolnum = s.tuplespace[s.poolnum] := by
    simp [TupleSpace.slot, hlen]
  rw [hslot, List.getElem_cons_drop hlen, TupleSpace.live, List.take_append_drop]

/-- The next free record is not live. -/
theorem Layout.next_notMem (h : Layout cfg s live free top) (hlt : s.poolnum < cfg.poolmax) :
    s.slot s.poolnum ∉ s.live := by
  rw [h.live_eq]
  intro hmem
  rcases h.next_free hlt with ⟨free', hfree⟩ | ⟨-, heq, -⟩
  · exact h.disjoint hmem (hfree ▸ List.mem_cons_self)
  · have := (h.mem_iff _).mp (Or.inl hmem)
    omega

/-- The next free record is one of the pool. -/
theorem Layout.next_lt (h : Layout cfg s live free top) (hlt : s.poolnum < cfg.poolmax) :
    s.slot s.poolnum < cfg.poolmax := by
  have htop := h.top_le
  rcases h.next_free hlt with ⟨free', hfree⟩ | ⟨-, heq, hlt'⟩
  · have := (h.mem_iff (s.slot s.poolnum)).mp (Or.inr (hfree ▸ List.mem_cons_self))
    omega
  · omega

/-! ### Allocation -/

/-- In a full pool every record is live. -/
theorem Layout.full (h : Layout cfg s live free top) (hfull : s.poolnum = cfg.poolmax) :
    top = cfg.poolmax ∧ free = [] := by
  have hcount := h.length_live_add_free
  have hlen := h.length_live
  have htop := h.top_le
  refine ⟨by omega, List.length_eq_zero_iff.mp (by omega)⟩

/-- How many tuples a sweep leaves. -/
theorem poolnum_sweptStore (h : Layout cfg s live free top) (tao : ℤ) :
    (sweptStore cfg tao s top).poolnum =
      s.poolnum - s.liveTuples.countP (due cfg tao) := by
  have hlen : s.liveTuples.length = s.poolnum := by
    rw [TupleSpace.liveTuples, List.length_map, h.live_eq, h.length_live]
  have hsplit := List.length_eq_countP_add_countP (l := s.liveTuples) (due cfg tao)
  have hnum : (sweptStore cfg tao s top).poolnum =
      s.liveTuples.countP fun t => !due cfg tao t := by
    have hswept : Swept cfg tao s (sweptStore cfg tao s top) := swept_sweptStore tao h.liveSlots
    rw [List.countP_eq_length_filter, ← hswept.liveTuples_eq, TupleSpace.liveTuples,
      List.length_map, live_sweptStore _ h.liveSlots]
    exact poolnum_halfSwept _ h.liveSlots
  have hneg : (s.liveTuples.countP fun t => !due cfg tao t) =
      s.liveTuples.countP fun t => ¬ due cfg tao t = true := by
    congr 1
    funext t
    cases due cfg tao t <;> rfl
  omega

/-- The store started over, after a sweep of a full pool that dropped nothing. -/
def restartedStore (cfg : Config) (s : TupleSpace) : TupleSpace :=
  { s with poolnum := 0, tuplesLow := 0, tuplespace := List.range cfg.poolmax }

/-- As long as there is room, the next free record is handed out. -/
theorem tupleAllocate_of_lt (hlt : s.poolnum < cfg.poolmax) (clock : ℤ) :
    tupleAllocate cfg s clock = .ok (s.slot s.poolnum, s) := by
  rw [tupleAllocate, cassert_of (le_of_lt hlt), ok_bind, if_neg (ne_of_lt hlt)]

/-- In a full pool in which some tuples are due, these are dropped first. -/
theorem tupleAllocate_of_due (h : Layout cfg s live free top)
    (hfull : s.poolnum = cfg.poolmax) {clock : ℤ} (hcheck : cfg.ndebug = true)
    (hdue : ∃ t ∈ s.liveTuples, due cfg clock t = true) :
    tupleAllocate cfg s clock =
        .ok ((sweptStore cfg clock s top).slot (sweptStore cfg clock s top).poolnum,
          sweptStore cfg clock s top) ∧
      (sweptStore cfg clock s top).poolnum < cfg.poolmax := by
  have hpos : 0 < s.liveTuples.countP (due cfg clock) := List.countP_pos_iff.mpr hdue
  have hle : s.liveTuples.countP (due cfg clock) ≤ s.poolnum := by
    refine List.countP_le_length.trans_eq ?_
    rw [TupleSpace.liveTuples, List.length_map, h.live_eq, h.length_live]
  have hlt : (sweptStore cfg clock s top).poolnum < cfg.poolmax := by
    rw [poolnum_sweptStore h]
    omega
  refine ⟨?_, hlt⟩
  rw [tupleAllocate, cassert_of (le_of_eq hfull), ok_bind, if_pos hfull,
    tupleExpire_eq _ h (Or.inl hcheck), ok_bind, if_neg (ne_of_lt hlt)]

/-- In a full pool in which nothing is due, the store starts over. -/
theorem tupleAllocate_of_full (h : Layout cfg s live free top)
    (hfull : s.poolnum = cfg.poolmax) {clock : ℤ}
    (hkeep : ∀ t ∈ s.liveTuples, due cfg clock t = false) :
    tupleAllocate cfg s clock =
      .ok ((restartedStore cfg (sweptStore cfg clock s top)).slot 0,
        restartedStore cfg (sweptStore cfg clock s top)) := by
  have hzero : s.liveTuples.countP (due cfg clock) = 0 :=
    List.countP_eq_zero.mpr fun t ht => by simp [hkeep t ht]
  have hnum : (sweptStore cfg clock s top).poolnum = cfg.poolmax := by
    rw [poolnum_sweptStore h, hzero, Nat.sub_zero, hfull]
  rw [tupleAllocate, cassert_of (le_of_eq hfull), ok_bind, if_pos hfull,
    tupleExpire_eq _ h (Or.inr (Or.inr ⟨(h.full hfull).2, hkeep⟩)), ok_bind, if_pos hnum]
  rfl

/-- With assertions compiled in, a full pool in which some tuples are due ends the
process. -/
theorem tupleAllocate_error (h : Layout cfg s live free top)
    (hfull : s.poolnum = cfg.poolmax) {clock : ℤ} (hcheck : cfg.ndebug = false)
    (hdue : ∃ t ∈ s.liveTuples, due cfg clock t = true) :
    tupleAllocate cfg s clock = .error .assertion := by
  have hsome : ¬ (free = [] ∧ ∀ t ∈ s.liveTuples, due cfg clock t = false) := by
    rintro ⟨-, hall⟩
    obtain ⟨t, ht, hd⟩ := hdue
    rw [hall t ht] at hd
    cases hd
  rw [tupleAllocate, cassert_of (le_of_eq hfull), ok_bind, if_pos hfull,
    tupleExpire_error _ h hcheck (h.full hfull).1 hsome, error_bind]

/-- The layout of the store that has started over. -/
theorem layout_restartedStore (h : Layout cfg s live free top)
    (hfull : s.poolnum = cfg.poolmax) {clock : ℤ}
    (hkeep : ∀ t ∈ s.liveTuples, due cfg clock t = false) :
    Layout cfg (restartedStore cfg (sweptStore cfg clock s top)) [] [] 0 where
  length_pool := (layout_sweptStore clock h).length_pool
  tuplespace_eq := by simp [restartedStore, List.range_eq_range']
  length_live := rfl
  perm := List.Perm.refl _
  top_le := Nat.zero_le _
  reclaimed := by simp
  unused p _ hp := by
    have hl := layout_sweptStore clock h
    have hnil : reclaimed cfg clock s = [] :=
      (reclaimed_eq_nil_iff _ h).mpr ⟨(h.full hfull).2, hkeep⟩
    -- every record is live, and none of them was flagged by the sweep
    have hlive : p ∈ (sweptStore cfg clock s top).live := by
      have hmem := (hl.mem_iff p).mpr ((h.full hfull).1.symm ▸ hp)
      rw [hnil] at hmem
      rw [live_sweptStore _ h.liveSlots]
      exact hmem.resolve_right List.not_mem_nil
    have hmem : p ∈ keepers cfg clock s := live_sweptStore _ h.liveSlots ▸ hlive
    have hderef : (sweptStore cfg clock s top).deref p = s.deref p :=
      (swept_sweptStore _ h.liveSlots).deref_kept hlive
    change ((sweptStore cfg clock s top).deref p).removed = false
    rw [hderef]
    exact (Bool.or_eq_false_iff.mp (mem_keepers.mp hmem).2).1

@[simp] theorem keys_restartedStore (cfg : Config) (s : TupleSpace) :
    (restartedStore cfg s).keys = [] := rfl

/-! ### Inserting a tuple -/

/-- The store after a tuple was written to the next free record and inserted. -/
def insertedStore (s : TupleSpace) (t : Tuple) (idx : ℕ) : TupleSpace :=
  { (s.write (s.slot s.poolnum) t).countWrite with
    tuplespace :=
      insertAt s.live idx (s.slot s.poolnum) ++ s.tuplespace.drop (s.poolnum + 1)
    poolnum := s.poolnum + 1
    tuplesHigh := max s.tuplesHigh (s.poolnum + 1) }

/-- **The insertion** of the next free record at an index of the live part. -/
theorem tupleAdd_eq (h : Layout cfg s live free top) (hlt : s.poolnum < cfg.poolmax)
    {t : Tuple} (hpad : cfg.ndebug = true ∨ t.pad = decafbad) {idx : ℕ}
    (hidx : idx ≤ s.poolnum) :
    tupleAdd cfg (s.write (s.slot s.poolnum) t) (s.slot s.poolnum) idx =
      .ok (insertedStore s t idx) := by
  have hp := h.next_lt hlt
  have hderef : (s.write (s.slot s.poolnum) t).deref (s.slot s.poolnum) = t :=
    TupleSpace.deref_write_self t (by rwa [h.length_pool])
  have hpad' : cassert cfg.ndebug
      (((s.write (s.slot s.poolnum) t).deref (s.slot s.poolnum)).pad = decafbad) = .ok () := by
    rw [hderef]
    exact cassert_eq_ok.mpr hpad
  have hlen : s.live.length = s.poolnum := by rw [h.live_eq, h.length_live]
  obtain ⟨a, hmove, hset⟩ := memmove_insertAt s.live (s.tuplespace.drop (s.poolnum + 1))
    (s.slot s.poolnum) (s.slot s.poolnum) (hidx.trans_eq hlen.symm)
  rw [← h.tuplespace_split hlt, hlen] at hmove
  rw [tupleAdd,
    cassert_of (show (s.write (s.slot s.poolnum) t).poolnum < cfg.poolmax from hlt),
    ok_bind, cassert_of (show idx ≤ (s.write (s.slot s.poolnum) t).poolnum from hidx),
    ok_bind, cassert_of hp, ok_bind, hpad', ok_bind]
  rw [if_pos (show idx ≤ (s.write (s.slot s.poolnum) t).countWrite.poolnum from hidx)]
  change (memmove s.tuplespace (idx + 1) idx (s.poolnum - idx) >>= _) = _
  rw [hmove, ok_bind]
  dsimp only
  rw [hset]
  split_ifs with hhigh
  · have hmax : max s.tuplesHigh (s.poolnum + 1) = s.poolnum + 1 :=
      max_eq_right (le_of_lt hhigh)
    rw [insertedStore, hmax]
    rfl
  · have hmax : max s.tuplesHigh (s.poolnum + 1) = s.tuplesHigh :=
      max_eq_left (not_lt.mp hhigh)
    rw [insertedStore, hmax]
    rfl

/-- Without assertions an index beyond the live part makes the block move run away. -/
theorem tupleAdd_error {rec idx : ℕ} (hcheck : cfg.ndebug = true)
    (hidx : s.poolnum < idx) : tupleAdd cfg s rec idx = .error .wrap := by
  simp only [tupleAdd, hcheck, cassert_ndebug, ok_bind]
  exact if_neg (not_le.mpr hidx)

theorem live_insertedStore (hlen : s.live.length = s.poolnum) (t : Tuple) (idx : ℕ) :
    (insertedStore s t idx).live = insertAt s.live idx (s.slot s.poolnum) :=
  TupleSpace.live_eq_of_append rfl (by rw [length_insertAt, hlen]; rfl)

theorem deref_insertedStore_self (h : Layout cfg s live free top)
    (hlt : s.poolnum < cfg.poolmax) (t : Tuple) (idx : ℕ) :
    (insertedStore s t idx).deref (s.slot s.poolnum) = t :=
  TupleSpace.deref_write_self t (h.length_pool ▸ h.next_lt hlt)

theorem deref_insertedStore_ne {p : ℕ} (t : Tuple) (idx : ℕ) (hp : s.slot s.poolnum ≠ p) :
    (insertedStore s t idx).deref p = s.deref p :=
  TupleSpace.deref_write_ne t hp

/-- The live tuples after the insertion. -/
theorem liveTuples_insertedStore (h : Layout cfg s live free top)
    (hlt : s.poolnum < cfg.poolmax) (t : Tuple) (idx : ℕ) :
    (insertedStore s t idx).liveTuples = insertAt s.liveTuples idx t := by
  have hlen : s.live.length = s.poolnum := by rw [h.live_eq, h.length_live]
  have hnot := h.next_notMem hlt
  have hmap : s.live.map (insertedStore s t idx).deref = s.liveTuples := by
    refine List.map_congr_left fun p hp => deref_insertedStore_ne t idx ?_
    rintro rfl
    exact hnot hp
  rw [TupleSpace.liveTuples, live_insertedStore hlen, map_insertAt, hmap,
    deref_insertedStore_self h hlt]

theorem keys_insertedStore (h : Layout cfg s live free top)
    (hlt : s.poolnum < cfg.poolmax) (t : Tuple) (idx : ℕ) :
    (insertedStore s t idx).keys = insertAt s.keys idx t.key := by
  rw [TupleSpace.keys, liveTuples_insertedStore h hlt, map_insertAt]
  rfl

theorem length_pool_insertedStore (h : Layout cfg s live free top) (t : Tuple) (idx : ℕ) :
    (insertedStore s t idx).pool.length = cfg.poolmax := by
  change (s.pool.set _ _).length = _
  rw [List.length_set, h.length_pool]

/-- The pointers after the insertion: the next free one has moved between the live ones. -/
theorem tuplespace_insertedStore (h : Layout cfg s live free top) (t : Tuple) (idx : ℕ)
    {rest : List ℕ} (hrest : s.tuplespace = live ++ s.slot s.poolnum :: rest) :
    (insertedStore s t idx).tuplespace = insertAt live idx (s.slot s.poolnum) ++ rest := by
  have hfront : s.poolnum + 1 = (live ++ [s.slot s.poolnum]).length := by
    rw [List.length_append, h.length_live, List.length_singleton]
  have hdrop : s.tuplespace.drop (s.poolnum + 1) = rest := by
    rw [hfront, hrest, ← List.singleton_append (l := rest), ← List.append_assoc,
      List.drop_left]
  change insertAt s.live idx _ ++ s.tuplespace.drop (s.poolnum + 1) = _
  rw [hdrop, h.live_eq]

theorem insertAt_append_perm (live rest : List ℕ) (idx p : ℕ) :
    (insertAt live idx p ++ rest).Perm (live ++ p :: rest) :=
  ((insertAt_perm live idx p).append_right rest).trans List.perm_middle.symm

/-- The layout after a reclaimed record is used again. -/
theorem layout_insertedStore_reclaimed (h : Layout cfg s live free top) {free' : List ℕ}
    (hfree : free = s.slot s.poolnum :: free') (t : Tuple) (idx : ℕ) :
    Layout cfg (insertedStore s t idx) (insertAt live idx (s.slot s.poolnum)) free' top := by
  have hne : ∀ p ∈ free', s.slot s.poolnum ≠ p := by
    rintro p hp rfl
    have hnd := (List.nodup_append.mp h.nodup).2.1
    rw [hfree] at hnd
    exact (List.nodup_cons.mp hnd).1 hp
  refine ⟨length_pool_insertedStore h t idx, ?_, ?_, ?_, h.top_le, ?_, ?_⟩
  · rw [List.append_assoc]
    refine tuplespace_insertedStore h t idx ?_
    conv_lhs => rw [h.tuplespace_eq, hfree]
    simp
  · rw [length_insertAt, h.length_live]
    rfl
  · exact (insertAt_append_perm live free' idx _).trans (hfree ▸ h.perm)
  · intro p hp
    rw [deref_insertedStore_ne t idx (hne p hp)]
    exact h.reclaimed p (hfree ▸ List.mem_cons_of_mem _ hp)
  · intro p hp hpm
    have hpt : s.slot s.poolnum ≠ p := by
      have := (h.mem_iff (s.slot s.poolnum)).mp (Or.inr (hfree ▸ List.mem_cons_self))
      omega
    rw [deref_insertedStore_ne t idx hpt]
    exact h.unused p hp hpm

/-- The layout after the first unused record is taken into use. -/
theorem layout_insertedStore_unused (h : Layout cfg s live free top) (hfree : free = [])
    (htop : s.slot s.poolnum = top) (hroom : top < cfg.poolmax) (t : Tuple) (idx : ℕ) :
    Layout cfg (insertedStore s t idx) (insertAt live idx (s.slot s.poolnum)) [] (top + 1) := by
  refine ⟨length_pool_insertedStore h t idx, ?_, ?_, ?_, hroom, ?_, ?_⟩
  · rw [List.append_nil]
    refine tuplespace_insertedStore h t idx ?_
    obtain ⟨n, hn⟩ : ∃ n, cfg.poolmax - top = n + 1 := ⟨cfg.poolmax - top - 1, by omega⟩
    have hn' : cfg.poolmax - (top + 1) = n := by omega
    conv_lhs => rw [h.tuplespace_eq, hfree, hn, List.range'_succ, List.append_nil]
    rw [hn', htop]
  · rw [length_insertAt, h.length_live]
    rfl
  · have hperm := h.perm
    rw [hfree, List.append_nil] at hperm
    rw [List.range_succ, htop]
    exact (insertAt_append_perm live [] idx top).trans (hperm.append_right [top])
  · intro p hp
    cases hp
  · intro p hp hpm
    rw [deref_insertedStore_ne t idx (by omega)]
    exact h.unused p (by omega) hpm

/-- The layout after the insertion: the record left the reclaimed ones or the unused
ones. -/
theorem layout_insertedStore (h : Layout cfg s live free top)
    (hlt : s.poolnum < cfg.poolmax) (t : Tuple) (idx : ℕ) :
    ∃ free' top', Layout cfg (insertedStore s t idx)
        (insertAt live idx (s.slot s.poolnum)) free' top' ∧
      top' = max top (s.poolnum + 1) := by
  have hcount := h.length_live_add_free
  have hlen := h.length_live
  rcases h.next_free hlt with ⟨free', hfree⟩ | ⟨hfree, htop, hroom⟩
  · rw [hfree, List.length_cons] at hcount
    exact ⟨free', top, layout_insertedStore_reclaimed h hfree t idx, by omega⟩
  · rw [hfree, List.length_nil] at hcount
    exact ⟨[], top + 1, layout_insertedStore_unused h hfree htop hroom t idx, by omega⟩

end Insert

end XGrey
