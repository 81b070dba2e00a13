import XGrey.TupleSpace

/-!
# The Layout of the Tuple Space

Which records the pointer array holds where. At any time the pool has three parts: the
live records, the records reclaimed by an earlier sweep, and those above a mark `top`
that have not been used since the last start (`Layout`). The array points to the live
records first, then to the reclaimed ones, and is untouched above `top`. Reclaimed
records still carry `F_REMOVE` and unused ones do not, which is what makes the sweep,
which collects every flagged record of the pool, rebuild exactly the middle part.

## Main results

* `Layout.congr`, `Layout.write`: what keeps a layout.
* `layout_init`: the layout at startup.
-/

open CRuntime SortedSeq

namespace XGrey

namespace TupleSpace

/-! ### Reading and writing through pointers -/

@[simp] theorem tuplespace_write (s : TupleSpace) (p : ℕ) (t : Tuple) :
    (s.write p t).tuplespace = s.tuplespace := rfl

@[simp] theorem poolnum_write (s : TupleSpace) (p : ℕ) (t : Tuple) :
    (s.write p t).poolnum = s.poolnum := rfl

@[simp] theorem length_pool_write (s : TupleSpace) (p : ℕ) (t : Tuple) :
    (s.write p t).pool.length = s.pool.length := by
  simp [write]

@[simp] theorem slot_write (s : TupleSpace) (p : ℕ) (t : Tuple) (i : ℕ) :
    (s.write p t).slot i = s.slot i := rfl

@[simp] theorem live_write (s : TupleSpace) (p : ℕ) (t : Tuple) :
    (s.write p t).live = s.live := rfl

/-- A record of the pool that was just written. -/
theorem deref_write_self {s : TupleSpace} {p : ℕ} (t : Tuple) (h : p < s.pool.length) :
    (s.write p t).deref p = t := by
  simp [write, deref, h]

/-- Any other record is unchanged. -/
theorem deref_write_ne {s : TupleSpace} {p q : ℕ} (t : Tuple) (h : p ≠ q) :
    (s.write p t).deref q = s.deref q := by
  simp [write, deref, List.getElem?_set_ne h]

/-- Writing a record that agrees with the old one on `g` changes `g` nowhere. -/
theorem deref_write_congr {β : Type*} (g : Tuple → β) {s : TupleSpace} {p : ℕ} {t : Tuple}
    (h : g t = g (s.deref p)) (q : ℕ) : g ((s.write p t).deref q) = g (s.deref q) := by
  by_cases hpq : p = q
  · subst hpq
    by_cases hp : p < s.pool.length
    · rw [deref_write_self t hp, h]
    · have : (s.write p t).pool = s.pool := List.set_eq_of_length_le (not_lt.mp hp)
      simp [deref, this]
  · rw [deref_write_ne t hpq]

/-- Writing a record without changing the key changes no key. -/
theorem keys_write {s : TupleSpace} {p : ℕ} {t : Tuple} (h : t.key = (s.deref p).key) :
    (s.write p t).keys = s.keys := by
  simp only [keys, liveTuples, live_write, List.map_map]
  exact List.map_congr_left fun q _ => deref_write_congr Tuple.key h q

theorem deref_congr {s s' : TupleSpace} (hpool : s'.pool = s.pool) : s'.deref = s.deref :=
  funext fun p => by
    rw [deref, hpool]
    rfl

/-- The array, the number of live entries and the records are all that the list of the live
tuples depends on. -/
theorem liveTuples_congr {s s' : TupleSpace} (hspace : s'.tuplespace = s.tuplespace)
    (hnum : s'.poolnum = s.poolnum) (hpool : s'.pool = s.pool) :
    s'.liveTuples = s.liveTuples := by
  rw [liveTuples, live, hspace, hnum, deref_congr hpool]
  rfl

@[simp] theorem poolnum_countRead (s : TupleSpace) : s.countRead.poolnum = s.poolnum := rfl
@[simp] theorem live_countRead (s : TupleSpace) : s.countRead.live = s.live := rfl
@[simp] theorem keys_countRead (s : TupleSpace) : s.countRead.keys = s.keys := rfl
@[simp] theorem liveTuples_countRead (s : TupleSpace) :
    s.countRead.liveTuples = s.liveTuples := rfl
@[simp] theorem deref_countRead (s : TupleSpace) (p : ℕ) :
    s.countRead.deref p = s.deref p := rfl
@[simp] theorem live_countWrite (s : TupleSpace) : s.countWrite.live = s.live := rfl
@[simp] theorem liveTuples_countWrite (s : TupleSpace) :
    s.countWrite.liveTuples = s.liveTuples := rfl
@[simp] theorem deref_countWrite (s : TupleSpace) (p : ℕ) :
    s.countWrite.deref p = s.deref p := rfl

/-- The store with another pointer array. -/
def withSpace (s : TupleSpace) (a : List ℕ) : TupleSpace := { s with tuplespace := a }

@[simp] theorem withSpace_withSpace (s : TupleSpace) (a b : List ℕ) :
    (s.withSpace a).withSpace b = s.withSpace b := rfl

@[simp] theorem tuplespace_withSpace (s : TupleSpace) (a : List ℕ) :
    (s.withSpace a).tuplespace = a := rfl

@[simp] theorem deref_withSpace (s : TupleSpace) (a : List ℕ) (p : ℕ) :
    (s.withSpace a).deref p = s.deref p := rfl

/-- The part of the array behind the live entries plays no role in what is live. -/
theorem live_eq_of_append {s : TupleSpace} {live rest : List ℕ}
    (h : s.tuplespace = live ++ rest) (hlen : live.length = s.poolnum) : s.live = live := by
  rw [TupleSpace.live, h, ← hlen, List.take_left]

end TupleSpace

/-- The least that is asked of a store: its two arrays have room for `c_poolmax` entries, and
the live entries point to different records of the pool. -/
structure LiveSlots (cfg : Config) (s : TupleSpace) : Prop where
  length_pool : s.pool.length = cfg.poolmax
  length_tuplespace : s.tuplespace.length = cfg.poolmax
  poolnum_le : s.poolnum ≤ cfg.poolmax
  nodup : s.live.Nodup
  lt_poolmax : ∀ p ∈ s.live, p < cfg.poolmax

theorem LiveSlots.length_live {cfg : Config} {s : TupleSpace} (h : LiveSlots cfg s) :
    s.live.length = s.poolnum := by
  rw [TupleSpace.live, List.length_take, h.length_tuplespace]
  exact Nat.min_eq_left h.poolnum_le

/-- The layout of the store: `live` and `free` are the pointers to the live and to the
reclaimed records, and the records from `top` on are unused. -/
structure Layout (cfg : Config) (s : TupleSpace) (live free : List ℕ) (top : ℕ) : Prop where
  length_pool : s.pool.length = cfg.poolmax
  tuplespace_eq : s.tuplespace = live ++ free ++ List.range' top (cfg.poolmax - top)
  length_live : live.length = s.poolnum
  perm : (live ++ free).Perm (List.range top)
  top_le : top ≤ cfg.poolmax
  reclaimed : ∀ p ∈ free, (s.deref p).removed = true
  unused : ∀ p, top ≤ p → p < cfg.poolmax → (s.deref p).removed = false

namespace Layout

variable {cfg : Config} {s : TupleSpace} {live free : List ℕ} {top : ℕ}

theorem live_eq (h : Layout cfg s live free top) : s.live = live :=
  TupleSpace.live_eq_of_append (by rw [h.tuplespace_eq, List.append_assoc]) h.length_live

theorem length_live_add_free (h : Layout cfg s live free top) :
    live.length + free.length = top := by
  simpa using h.perm.length_eq

theorem poolnum_le_top (h : Layout cfg s live free top) : s.poolnum ≤ top := by
  have := h.length_live_add_free
  have := h.length_live
  omega

theorem poolnum_le (h : Layout cfg s live free top) : s.poolnum ≤ cfg.poolmax :=
  h.poolnum_le_top.trans h.top_le

theorem length_tuplespace (h : Layout cfg s live free top) :
    s.tuplespace.length = cfg.poolmax := by
  have h1 := h.length_live_add_free
  have h2 := h.top_le
  rw [h.tuplespace_eq]
  simp only [List.length_append, List.length_range']
  omega

theorem nodup (h : Layout cfg s live free top) : (live ++ free).Nodup :=
  h.perm.nodup_iff.mpr List.nodup_range

theorem nodup_live (h : Layout cfg s live free top) : live.Nodup :=
  (List.nodup_append.mp h.nodup).1

theorem mem_iff (h : Layout cfg s live free top) (p : ℕ) :
    p ∈ live ∨ p ∈ free ↔ p < top := by
  rw [← List.mem_append, h.perm.mem_iff, List.mem_range]

theorem lt_of_mem_live (h : Layout cfg s live free top) {p : ℕ} (hp : p ∈ live) :
    p < cfg.poolmax :=
  lt_of_lt_of_le ((h.mem_iff p).mp (Or.inl hp)) h.top_le

/-- The live records are records of the pool. -/
theorem lt_length_pool (h : Layout cfg s live free top) {p : ℕ} (hp : p ∈ s.live) :
    p < s.pool.length :=
  h.length_pool ▸ h.lt_of_mem_live (h.live_eq ▸ hp)

theorem liveSlots (h : Layout cfg s live free top) : LiveSlots cfg s where
  length_pool := h.length_pool
  length_tuplespace := h.length_tuplespace
  poolnum_le := h.poolnum_le
  nodup := h.live_eq ▸ h.nodup_live
  lt_poolmax _ hp := h.lt_of_mem_live (h.live_eq ▸ hp)

theorem disjoint (h : Layout cfg s live free top) {p : ℕ} (hp : p ∈ live) : p ∉ free :=
  fun hf => (List.nodup_append.mp h.nodup).2.2 p hp p hf rfl

/-- The layout depends on the records only through their `F_REMOVE` flags, and on those
of the records that are not live. -/
theorem congr (h : Layout cfg s live free top) {s' : TupleSpace}
    (hpool : s'.pool.length = s.pool.length) (hspace : s'.tuplespace = s.tuplespace)
    (hnum : s'.poolnum = s.poolnum)
    (hflag : ∀ p, p ∉ live → (s'.deref p).removed = (s.deref p).removed) :
    Layout cfg s' live free top where
  length_pool := hpool.trans h.length_pool
  tuplespace_eq := hspace.trans h.tuplespace_eq
  length_live := h.length_live.trans hnum.symm
  perm := h.perm
  top_le := h.top_le
  reclaimed p hp := by
    rw [hflag p (fun hl => h.disjoint hl hp)]
    exact h.reclaimed p hp
  unused p hp hlt := by
    rw [hflag p (fun hl => absurd ((h.mem_iff p).mp (Or.inl hl)) (not_lt.mpr hp))]
    exact h.unused p hp hlt

/-- Writing a live record keeps the layout. -/
theorem write (h : Layout cfg s live free top) {p : ℕ} (hp : p ∈ live) (t : Tuple) :
    Layout cfg (s.write p t) live free top :=
  h.congr (by simp) rfl rfl fun q hq => by
    have hpq : p ≠ q := by
      rintro rfl
      exact hq hp
    rw [TupleSpace.deref_write_ne t hpq]

end Layout

/-- The initial store has nothing live and nothing reclaimed. -/
theorem layout_init (cfg : Config) : Layout cfg (TupleSpace.init cfg) [] [] 0 where
  length_pool := by simp [TupleSpace.init]
  tuplespace_eq := by simp [TupleSpace.init, List.range_eq_range']
  length_live := rfl
  perm := List.Perm.refl _
  top_le := Nat.zero_le _
  reclaimed := by simp
  unused p _ hp := by
    have : (TupleSpace.init cfg).deref p = default := by
      simp [TupleSpace.init, TupleSpace.deref, hp]
    rw [this]
    rfl

end XGrey
