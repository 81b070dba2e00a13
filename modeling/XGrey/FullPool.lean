import XGrey.TupleCheck

/-!
# The Pool when it is Full

A new tuple that meets a full pool makes `tuple_allocate` sweep it, and start over if that
drops nothing. The index for the new tuple was searched before. This module says when the
allocation succeeds (`Allocates`), what store it leaves (`allocatedStore`), and when the
index is still the insertion point of the new key: `splitsAt_request` for a request, which
corrects the index for an empty store, and `splitsAt_line` for a line of the whitelist
file, which does not.

## Main results

* `tupleAllocate_eq`, `tupleAllocate_of_not_allocates`: the allocation.
* `typeGreylistCheckTuple_of_fits`, `typeGreylistCheckTuple_of_not_fits`: when the tuple
  check succeeds on a store with a layout, sorted or not.
* `StoreOk.check`, `StoreOk.line`, `StoreOk.expire`: when the store stays in order.
-/

open CRuntime SortedSeq ArrayShift

namespace XGrey

/-! ### Allocation -/

/-- The allocation does not fail: assertions are not compiled in, there is room, or the
sweep has nothing to drop. -/
def Allocates (cfg : Config) (s : TupleSpace) (clock : ℤ) : Prop :=
  cfg.ndebug = true ∨ s.poolnum < cfg.poolmax ∨ ∀ t ∈ s.liveTuples, due cfg clock t = false

/-- The store that the allocation leaves. -/
def allocatedStore (cfg : Config) (s : TupleSpace) (top : ℕ) (clock : ℤ) : TupleSpace :=
  if s.poolnum < cfg.poolmax then s
  else if ∃ t ∈ s.liveTuples, due cfg clock t = true then sweptStore cfg clock s top
  else restartedStore cfg (sweptStore cfg clock s top)

section Allocate

variable {cfg : Config} {s : TupleSpace} {live free : List ℕ} {top : ℕ} {clock : ℤ}

theorem not_exists_due_iff :
    (¬ ∃ t ∈ s.liveTuples, due cfg clock t = true) ↔
      ∀ t ∈ s.liveTuples, due cfg clock t = false := by
  simp

/-- A layout has no more live records than the pool has room for. -/
theorem Layout.full_of_not_lt (h : Layout cfg s live free top)
    (hlt : ¬ s.poolnum < cfg.poolmax) : s.poolnum = cfg.poolmax :=
  le_antisymm h.poolnum_le (not_lt.mp hlt)

/-- **Allocation.** -/
theorem tupleAllocate_eq (h : Layout cfg s live free top) (hok : Allocates cfg s clock) :
    tupleAllocate cfg s clock =
        .ok ((allocatedStore cfg s top clock).slot (allocatedStore cfg s top clock).poolnum,
          allocatedStore cfg s top clock) ∧
      (allocatedStore cfg s top clock).poolnum < cfg.poolmax := by
  rw [allocatedStore]
  by_cases hlt : s.poolnum < cfg.poolmax
  · rw [if_pos hlt]
    exact ⟨tupleAllocate_of_lt hlt clock, hlt⟩
  · have hfull := h.full_of_not_lt hlt
    rw [if_neg hlt]
    by_cases hdue : ∃ t ∈ s.liveTuples, due cfg clock t = true
    · have hcheck : cfg.ndebug = true := by
        rcases hok with hcheck | hlt' | hkeep
        · exact hcheck
        · exact absurd hlt' hlt
        · exact absurd hdue (not_exists_due_iff.mpr hkeep)
      rw [if_pos hdue]
      exact tupleAllocate_of_due h hfull hcheck hdue
    · rw [if_neg hdue]
      exact ⟨tupleAllocate_of_full h hfull (not_exists_due_iff.mp hdue), cfg.poolmax_pos⟩

/-- Otherwise an assertion fails. -/
theorem tupleAllocate_of_not_allocates (h : Layout cfg s live free top)
    (hok : ¬ Allocates cfg s clock) : tupleAllocate cfg s clock = .error .assertion := by
  simp only [Allocates, not_or, ← not_exists_due_iff, not_not] at hok
  exact tupleAllocate_error h (h.full_of_not_lt hok.2.1) (Bool.eq_false_iff.mpr hok.1) hok.2.2

variable (clock)

/-- The allocation leaves a layout. -/
theorem layout_allocatedStore (h : Layout cfg s live free top) :
    ∃ live' free' top', Layout cfg (allocatedStore cfg s top clock) live' free' top' := by
  rw [allocatedStore]
  split_ifs with hlt hdue
  · exact ⟨live, free, top, h⟩
  · exact ⟨_, _, top, layout_sweptStore _ h⟩
  · exact ⟨_, _, 0, layout_restartedStore h (h.full_of_not_lt hlt)
      (not_exists_due_iff.mp hdue)⟩

/-- The tuples that the allocation leaves. -/
theorem liveTuples_allocatedStore (h : Layout cfg s live free top) :
    (allocatedStore cfg s top clock).liveTuples =
      if s.poolnum < cfg.poolmax then s.liveTuples
      else if ∃ t ∈ s.liveTuples, due cfg clock t = true then
        s.liveTuples.filter fun t => !due cfg clock t
      else [] := by
  rw [allocatedStore]
  split_ifs with hlt hdue
  · rfl
  · exact (swept_sweptStore _ h.liveSlots).liveTuples_eq
  · rfl

/-- The allocation makes no tuples. -/
theorem sublist_allocatedStore (h : Layout cfg s live free top) :
    (allocatedStore cfg s top clock).liveTuples.Sublist s.liveTuples := by
  rw [liveTuples_allocatedStore _ h]
  split_ifs
  · exact List.Sublist.refl _
  · exact List.filter_sublist
  · exact List.nil_sublist _

/-- An order of the keys survives the allocation. -/
theorem pairwise_allocatedStore (h : Layout cfg s live free top)
    (hs : s.keys.Pairwise (· < ·)) :
    (allocatedStore cfg s top clock).keys.Pairwise (· < ·) :=
  hs.sublist ((sublist_allocatedStore clock h).map _)

/-- How many tuples a layout has. -/
theorem Layout.length_liveTuples (h : Layout cfg s live free top) :
    s.liveTuples.length = s.poolnum := by
  rw [TupleSpace.liveTuples, List.length_map, h.live_eq, h.length_live]

end Allocate

/-! ### The index after the allocation -/

/-- The condition under which a request for a new key finds the right place: there is
room, everything is dropped, or no smaller key is. -/
def InsertsRequest (cfg : Config) (s : TupleSpace) (clock : ℤ) (k : Key) : Prop :=
  s.poolnum < cfg.poolmax ∨ (∀ t ∈ s.liveTuples, due cfg clock t = true) ∨
    ∀ t ∈ s.liveTuples, t.key < k → due cfg clock t = false

instance (cfg : Config) (s : TupleSpace) (clock : ℤ) (k : Key) :
    Decidable (InsertsRequest cfg s clock k) :=
  inferInstanceAs (Decidable (_ ∨ _))

/-- The condition under which a line of the whitelist file finds it: there is room, no key
is smaller, or something is dropped, but no smaller key. -/
def InsertsLine (cfg : Config) (s : TupleSpace) (clock : ℤ) (k : Key) : Prop :=
  s.poolnum < cfg.poolmax ∨ (∀ t ∈ s.liveTuples, ¬ t.key < k) ∨
    ((∃ t ∈ s.liveTuples, due cfg clock t = true) ∧
      ∀ t ∈ s.liveTuples, t.key < k → due cfg clock t = false)

section Index

variable {cfg : Config} {s : TupleSpace} {live free : List ℕ} {top idx : ℕ} {clock : ℤ}
  {k : Key}

/-- The insertion point of a list without elements. -/
theorem splitsAt_nil (k : Key) : SplitsAt k [] 0 :=
  ⟨Nat.le_refl 0, by simp, by simp⟩

/-- Dropping no smaller tuple leaves the insertion point where it was. -/
theorem splitsAt_filter (hsplit : SplitsAt k s.keys idx)
    (hkeep : ∀ t ∈ s.liveTuples, t.key < k → due cfg clock t = false) :
    SplitsAt k ((s.liveTuples.filter fun t => !due cfg clock t).map Tuple.key) idx :=
  hsplit.filter_map fun t ht hlt => by simp [hkeep t ht hlt]

/-- **The index of a request** after the allocation. -/
theorem splitsAt_request (h : Layout cfg s live free top) (hsplit : SplitsAt k s.keys idx)
    (hins : InsertsRequest cfg s clock k) :
    SplitsAt k (allocatedStore cfg s top clock).keys
      (insertIndex (allocatedStore cfg s top clock) idx) := by
  obtain ⟨live', free', top', hl⟩ := layout_allocatedStore clock h
  have htuples := liveTuples_allocatedStore clock h
  have hlen := hl.length_liveTuples
  rw [insertIndex]
  by_cases hzero : (allocatedStore cfg s top clock).poolnum = 0
  · rw [hzero, List.length_eq_zero_iff] at hlen
    rw [if_pos hzero, TupleSpace.keys, hlen]
    exact splitsAt_nil k
  · rw [if_neg hzero, TupleSpace.keys, htuples]
    rw [htuples] at hlen
    split_ifs at hlen ⊢ with hlt hdue
    · exact hsplit
    · refine splitsAt_filter hsplit ?_
      rcases hins with hlt' | hall | hkeep
      · exact absurd hlt' hlt
      · -- with everything dropped the store would be empty
        rw [List.filter_eq_nil_iff.mpr fun t ht => by simp [hall t ht]] at hlen
        exact absurd hlen.symm hzero
      · exact hkeep
    · exact absurd hlen.symm hzero

/-- **The index of a line** after the allocation. -/
theorem splitsAt_line (h : Layout cfg s live free top) (hsplit : SplitsAt k s.keys idx)
    (hins : InsertsLine cfg s clock k) :
    SplitsAt k (allocatedStore cfg s top clock).keys idx := by
  have hfront : (∀ t ∈ s.liveTuples, ¬ t.key < k) → idx = 0 := by
    intro hnone
    refine hsplit.eq_zero_iff.mpr fun x hx => ?_
    obtain ⟨t, ht, rfl⟩ := List.mem_map.mp hx
    exact hnone t ht
  rw [TupleSpace.keys, liveTuples_allocatedStore _ h]
  split_ifs with hlt hdue
  · exact hsplit
  · refine splitsAt_filter hsplit ?_
    rcases hins with hlt' | hnone | ⟨-, hkeep⟩
    · exact absurd hlt' hlt
    · exact fun t ht hlt' => absurd hlt' (hnone t ht)
    · exact hkeep
  · rcases hins with hlt' | hnone | ⟨hdue', -⟩
    · exact absurd hlt' hlt
    · rw [hfront hnone]
      exact splitsAt_nil k
    · exact absurd hdue' hdue

end Index

/-! ### The tuple check -/

section Check

variable {cfg : Config} {s : TupleSpace} {live free : List ℕ} {top : ℕ}

theorem Layout.countRead (h : Layout cfg s live free top) :
    Layout cfg s.countRead live free top :=
  h.congr rfl rfl rfl fun _ _ => rfl

/-- A search finds a live tuple with the key or ends at an index of the live part. -/
theorem tupleSearch_cases (h : Layout cfg s live free top) (tuple : Tuple) :
    (∃ p idx, tupleSearch s tuple = (some p, idx, s.countRead) ∧ p ∈ s.live ∧
        (s.deref p).key = tuple.key) ∨
      ∃ idx, tupleSearch s tuple = (none, idx, s.countRead) ∧ idx ≤ s.poolnum := by
  obtain ⟨hread, hidx, hfound⟩ :=
    tupleSearch_bounds (h.live_eq ▸ h.length_live) tuple
  generalize hsearch : tupleSearch s tuple = found at hread hidx hfound
  obtain ⟨stored, idx, s'⟩ := found
  dsimp only at hread hidx hfound
  subst hread
  cases stored with
  | none => exact Or.inr ⟨idx, rfl, hidx⟩
  | some p => exact Or.inl ⟨p, idx, rfl, hfound p rfl⟩

/-- What the tuples answer: a known one by whether it passes, a new one by the kind of the
request. -/
def storeReply (cfg : Config) (s : TupleSpace) (tuple : Tuple) (cmd : Cmd) (now : ℤ) :
    ℤ × Reason :=
  match (tupleSearch s tuple).1 with
  | some p => if passes cfg cmd now (s.deref p) then passReply else waitReply
  | none => if cmd = .whitelist then passReply else waitReply

/-- The store can take in the tuple of a request: it is found, there is room for it, or the
sweep of the full pool has nothing to drop. Without assertions the sweep may also drop
everything, or leave at least as many tuples as the search went past. -/
def Fits (cfg : Config) (s : TupleSpace) (tuple : Tuple) (clock : ℤ) : Prop :=
  (tupleSearch s tuple).1 ≠ none ∨ s.poolnum < cfg.poolmax ∨
    (∀ t ∈ s.liveTuples, due cfg clock t = false) ∨
    (cfg.ndebug = true ∧ ((∀ t ∈ s.liveTuples, due cfg clock t = true) ∨
      (tupleSearch s tuple).2.1 ≤ s.liveTuples.countP fun t => !due cfg clock t))

/-- The index that a request uses lies in the store that the allocation left. -/
theorem insertIndex_le_iff (h : Layout cfg s live free top) {idx : ℕ} (hidx : idx ≤ s.poolnum)
    (clock : ℤ) :
    insertIndex (allocatedStore cfg s top clock) idx ≤
        (allocatedStore cfg s top clock).poolnum ↔
      (s.poolnum < cfg.poolmax ∨ (∀ t ∈ s.liveTuples, due cfg clock t = false) ∨
        (∀ t ∈ s.liveTuples, due cfg clock t = true) ∨
        idx ≤ s.liveTuples.countP fun t => !due cfg clock t) := by
  obtain ⟨live', free', top', hl⟩ := layout_allocatedStore clock h
  have hlen := hl.length_liveTuples
  rw [liveTuples_allocatedStore _ h] at hlen
  rw [insertIndex]
  by_cases hlt : s.poolnum < cfg.poolmax
  · refine iff_of_true ?_ (Or.inl hlt)
    rw [if_pos hlt, h.length_liveTuples] at hlen
    split_ifs <;> omega
  · rw [if_neg hlt] at hlen
    by_cases hdue : ∃ t ∈ s.liveTuples, due cfg clock t = true
    · rw [if_pos hdue] at hlen
      have hcount : s.liveTuples.countP (fun t => !due cfg clock t) =
          (allocatedStore cfg s top clock).poolnum := by
        rw [List.countP_eq_length_filter, hlen]
      have hall : (allocatedStore cfg s top clock).poolnum = 0 ↔
          ∀ t ∈ s.liveTuples, due cfg clock t = true := by
        rw [← hcount, List.countP_eq_zero]
        simp
      rw [hcount]
      split_ifs with hzero
      · exact iff_of_true (Nat.zero_le _) (Or.inr (Or.inr (Or.inl (hall.mp hzero))))
      · constructor
        · exact fun hle => Or.inr (Or.inr (Or.inr hle))
        · rintro (hlt' | hkeep | hdrop | hle)
          · exact absurd hlt' hlt
          · exact absurd hdue (not_exists_due_iff.mpr hkeep)
          · exact absurd (hall.mpr hdrop) hzero
          · exact hle
    · refine iff_of_true ?_ (Or.inr (Or.inl (not_exists_due_iff.mp hdue)))
      rw [if_neg hdue, List.length_nil] at hlen
      rw [if_pos hlen.symm]
      exact Nat.zero_le _

/-- **The tuple check of a request that fits.** -/
theorem typeGreylistCheckTuple_of_fits (h : Layout cfg s live free top) {tuple : Tuple}
    {clock : ℤ} (hpad : cfg.ndebug = true ∨ tuple.pad = decafbad)
    (hfits : Fits cfg s tuple clock) (cmd : Cmd) (now : ℤ) :
    ∃ s', typeGreylistCheckTuple cfg s tuple cmd now clock =
      .ok (storeReply cfg s tuple cmd now, s') := by
  rw [Fits] at hfits
  rw [storeReply]
  rcases tupleSearch_cases h tuple with ⟨p, idx, hsearch, hp, -⟩ | ⟨idx, hsearch, hidx⟩
  · rw [hsearch]
    exact ⟨_, typeGreylistCheckTuple_hit hsearch (h.lt_length_pool hp) cmd now clock⟩
  · have hr := h.countRead
    rw [hsearch] at hfits ⊢
    simp only [ne_eq, not_true_eq_false, false_or] at hfits
    have halloc : Allocates cfg s.countRead clock := by
      rcases hfits with hlt | hkeep | ⟨hcheck, -⟩
      · exact Or.inr (Or.inl hlt)
      · exact Or.inr (Or.inr hkeep)
      · exact Or.inl hcheck
    have hindex := (insertIndex_le_iff hr hidx clock).mpr (by
      rcases hfits with hlt | hkeep | ⟨-, hall | hle⟩
      · exact Or.inl hlt
      · exact Or.inr (Or.inl hkeep)
      · exact Or.inr (Or.inr (Or.inl hall))
      · exact Or.inr (Or.inr (Or.inr hle)))
    obtain ⟨hallocate, hlt⟩ := tupleAllocate_eq hr halloc
    obtain ⟨live', free', top', hl⟩ := layout_allocatedStore clock hr
    exact ⟨_, typeGreylistCheckTuple_miss hsearch hallocate hl hlt hpad hindex now⟩

/-- A request that does not fit fails, in the allocation or in the insertion. -/
theorem typeGreylistCheckTuple_of_not_fits (h : Layout cfg s live free top) {tuple : Tuple}
    {clock : ℤ} (hfits : ¬ Fits cfg s tuple clock) (cmd : Cmd) (now : ℤ) :
    ∃ e, typeGreylistCheckTuple cfg s tuple cmd now clock = .error e := by
  rw [Fits] at hfits
  rcases tupleSearch_cases h tuple with ⟨p, idx, hsearch, -, -⟩ | ⟨idx, hsearch, hidx⟩
  · rw [hsearch] at hfits
    exact absurd (Or.inl (Option.some_ne_none p)) hfits
  · have hr := h.countRead
    rw [hsearch] at hfits
    simp only [ne_eq, not_true_eq_false, false_or, not_or] at hfits
    obtain ⟨hlt, hkeep, hdebug⟩ := hfits
    cases hcheck : cfg.ndebug with
    | false =>
        have halloc : ¬ Allocates cfg s.countRead clock := by
          rintro (hnd | hlt' | hkeep')
          · rw [hcheck] at hnd
            cases hnd
          · exact hlt hlt'
          · exact hkeep hkeep'
        exact ⟨_, typeGreylistCheckTuple_error hsearch
          (tupleAllocate_of_not_allocates hr halloc) now⟩
    | true =>
        have hindex : ¬ insertIndex (allocatedStore cfg s.countRead top clock) idx ≤
            (allocatedStore cfg s.countRead top clock).poolnum := by
          rw [insertIndex_le_iff hr hidx]
          rintro (hlt' | hkeep' | hrest)
          · exact hlt hlt'
          · exact hkeep hkeep'
          · exact hdebug ⟨hcheck, hrest⟩
        obtain ⟨hallocate, -⟩ :=
          tupleAllocate_eq hr (Or.inl hcheck : Allocates cfg s.countRead clock)
        generalize allocatedStore cfg s.countRead top clock = s₁ at hindex hallocate
        have hadd : tupleAdd cfg (s₁.write (s₁.slot s₁.poolnum) tuple) (s₁.slot s₁.poolnum)
            (insertIndex s₁ idx) = .error .wrap := tupleAdd_error hcheck (not_le.mp hindex)
        refine ⟨.wrap, ?_⟩
        rw [typeGreylistCheckTuple, hsearch]
        dsimp only
        rw [hallocate, ok_bind]
        dsimp only
        rw [← insertIndex, hadd, error_bind]

end Check

/-! ### What keeps the store in order -/

namespace StoreOk

variable {cfg : Config} {s : TupleSpace} {top : ℕ} {clock : ℤ}

/-- The allocation keeps the store in order. -/
theorem allocatedStore (h : StoreOk cfg s top) (clock : ℤ) :
    ∃ top', StoreOk cfg (allocatedStore cfg s top clock) top' := by
  obtain ⟨live, free, hl⟩ := h.layout
  obtain ⟨live', free', top', hl'⟩ := layout_allocatedStore clock hl
  exact ⟨top', ⟨live', free', hl'⟩, pairwise_allocatedStore clock hl h.sorted⟩

/-- **The tuple check** keeps the store in order when, for a new key, the allocation
succeeds and the index is still right. -/
theorem check (h : StoreOk cfg s top) {tuple : Tuple}
    (hpad : cfg.ndebug = true ∨ tuple.pad = decafbad)
    (hnew : tuple.key ∉ s.keys →
      Allocates cfg s clock ∧ InsertsRequest cfg s clock tuple.key) (cmd : Cmd) (now : ℤ) :
    ∃ r s' top', typeGreylistCheckTuple cfg s tuple cmd now clock = .ok (r, s') ∧
      StoreOk cfg s' top' := by
  rcases tupleSearch_spec h.length_live h.sorted tuple with
    ⟨p, hp, idx, -, hsearch⟩ | ⟨idx, hsplit, hsearch⟩
  · exact ⟨_, _, top, typeGreylistCheckTuple_hit hsearch (h.lt_of_mem_live hp) cmd now clock,
      h.hitStore hp cmd now⟩
  · obtain ⟨halloc, hins⟩ := hnew hsplit.notMem
    have hr := h.countRead
    obtain ⟨live, free, hl⟩ := hr.layout
    obtain ⟨hallocate, hlt⟩ := tupleAllocate_eq hl halloc
    obtain ⟨top', hok⟩ := hr.allocatedStore clock
    obtain ⟨live', free', hl'⟩ := hok.layout
    have hsplit' := splitsAt_request hl hsplit hins
    have hindex := hok.length_keys ▸ hsplit'.le_length
    exact ⟨_, _, _, typeGreylistCheckTuple_miss hsearch hallocate hl' hlt hpad hindex now,
      hok.missStore hlt hsplit' cmd⟩

/-- **A line of the whitelist file** keeps the store in order under its own condition. -/
theorem line (h : StoreOk cfg s top) {tuple : Tuple}
    (hpad : cfg.ndebug = true ∨ tuple.pad = decafbad)
    (hnew : tuple.key ∉ s.keys → Allocates cfg s clock ∧ InsertsLine cfg s clock tuple.key)
    (now : ℤ) :
    ∃ s' top', whitelistLoadTuple cfg s tuple now clock = .ok s' ∧ StoreOk cfg s' top' := by
  rcases tupleSearch_spec h.length_live h.sorted tuple with
    ⟨p, hp, idx, -, hsearch⟩ | ⟨idx, hsplit, hsearch⟩
  · have hw := h.countRead.write hp (t := (s.deref p).touch now) rfl
    exact ⟨_, top, whitelistLoadTuple_hit hsearch now clock, hw.confirm hp⟩
  · obtain ⟨halloc, hins⟩ := hnew hsplit.notMem
    have hr := h.countRead
    obtain ⟨live, free, hl⟩ := hr.layout
    obtain ⟨hallocate, hlt⟩ := tupleAllocate_eq hl halloc
    obtain ⟨top', hok⟩ := hr.allocatedStore clock
    obtain ⟨live', free', hl'⟩ := hok.layout
    have hsplit' := splitsAt_line hl hsplit hins
    have hindex := hok.length_keys ▸ hsplit'.le_length
    exact ⟨_, _, whitelistLoadTuple_miss hsearch hallocate hl' hlt hpad hindex now,
      (hok.insertedStore hlt (t := tuple.setFlag fWhitelist) hsplit').congr rfl rfl rfl⟩

end StoreOk

/-- The sweep does not fail: assertions are not compiled in, some record has not been used
since the last start, or every record is live and none is to be dropped. -/
def Sweeps (cfg : Config) (s : TupleSpace) (tao : ℤ) : Prop :=
  cfg.ndebug = true ∨
    (∃ p < cfg.poolmax, p ∉ s.live ∧ (s.deref p).removed = false) ∨
    (s.poolnum = cfg.poolmax ∧ ∀ t ∈ s.liveTuples, due cfg tao t = false)

/-- A record that is neither live nor flagged lies above the used ones. -/
theorem Layout.top_lt {cfg : Config} {s : TupleSpace} {live free : List ℕ} {top : ℕ}
    (h : Layout cfg s live free top) {p : ℕ} (hp : p < cfg.poolmax) (hlive : p ∉ s.live)
    (hflag : (s.deref p).removed = false) : top < cfg.poolmax := by
  by_contra hle
  have hmem := (h.mem_iff p).mpr (by omega)
  rw [h.live_eq] at hlive
  have hfree := h.reclaimed p (hmem.resolve_left hlive)
  rw [hflag] at hfree
  cases hfree

/-- **The sweep** keeps the store in order when it does not fail. -/
theorem StoreOk.expire {cfg : Config} {s : TupleSpace} {top : ℕ} {tao : ℤ}
    (h : StoreOk cfg s top) (hok : Sweeps cfg s tao) :
    ∃ s', tupleExpire cfg s tao = .ok s' ∧ StoreOk cfg s' top := by
  obtain ⟨live, free, hl⟩ := h.layout
  refine ⟨_, tupleExpire_eq _ hl ?_, h.sweptStore tao⟩
  rcases hok with hcheck | ⟨p, hp, hlive, hflag⟩ | ⟨hfull, hkeep⟩
  · exact Or.inl hcheck
  · exact Or.inr (Or.inl (hl.top_lt hp hlive hflag))
  · exact Or.inr (Or.inr ⟨(hl.full hfull).2, hkeep⟩)

end XGrey
