import Mathlib.Data.Set.Card
import XGrey.TupleCheck

/-!
# The Abstract Greylist

What the tuple store is for: a finite map from keys to what is known about them, with
three operations. A request creates or touches the entry of its key and says whether the
mail may pass, a removal marks an entry, and a sweep drops the entries that are marked or
have been idle for too long. Nothing here knows about pools, arrays or flags.

## Main results

* `Represents`: a store represents such a map, and each operation of the daemon carries
  the representation to the result of the abstract operation, with the same verdict
  (`Represents.typeGreylistCheckTuple`, `Represents.tupleRemove`,
  `Represents.tupleExpire`).
-/

open CRuntime SortedSeq ArrayShift

namespace XGrey

/-- What the greylist knows about a key. -/
@[ext] structure Entry where
  ctime : ℤ
  atime : ℤ
  whitelisted : Bool
  removed : Bool
  deriving DecidableEq

/-- A finite map from keys to entries. -/
structure Greylist (K : Type*) where
  lookup : K → Option Entry
  /-- Only finitely many keys have an entry. -/
  finite : {k | (lookup k).isSome = true}.Finite

namespace Greylist

variable {K : Type*}

/-- The greylist without entries. -/
def empty : Greylist K where
  lookup _ := none
  finite := by simp

/-- How many keys have an entry. -/
noncomputable def size (g : Greylist K) : ℕ := {k | (g.lookup k).isSome = true}.ncard

variable [DecidableEq K]

/-- The greylist in which a key has a given entry. -/
def set (g : Greylist K) (k : K) (e : Entry) : Greylist K where
  lookup := Function.update g.lookup k (some e)
  finite := by
    refine (g.finite.insert k).subset fun k' hk' => ?_
    by_cases h : k' = k
    · exact Or.inl h
    · exact Or.inr (by simpa [Function.update_of_ne h] using hk')

@[simp] theorem lookup_set_self (g : Greylist K) (k : K) (e : Entry) :
    (g.set k e).lookup k = some e := by
  simp [set]

theorem lookup_set_ne (g : Greylist K) {k k' : K} (e : Entry) (h : k' ≠ k) :
    (g.set k e).lookup k' = g.lookup k' := by
  simp [set, h]

/-- Whether a known key is let through. -/
def lets (cfg : Config) (whitelist : Bool) (now : ℤ) (e : Entry) : Bool :=
  e.whitelisted || whitelist || decide (difftime now e.ctime ≥ cfg.timeoutEmbargo)

/-- A request for a key, with the verdict. `whitelist` says whether it is to be
whitelisted on the spot. -/
def request (cfg : Config) (g : Greylist K) (whitelist : Bool) (k : K) (now : ℤ) :
    (ℤ × Reason) × Greylist K :=
  match g.lookup k with
  | none =>
      (if whitelist then passReply else waitReply,
        g.set k { ctime := now, atime := now, whitelisted := whitelist, removed := false })
  | some e =>
      (if lets cfg whitelist now e then passReply else waitReply,
        g.set k { e with atime := now, whitelisted := lets cfg whitelist now e })

/-- The removal of a key, which only marks it. -/
def remove (g : Greylist K) (k : K) : Greylist K :=
  match g.lookup k with
  | none => g
  | some e => g.set k { e with removed := true }

omit [DecidableEq K]

/-- Whether a sweep keeps an entry: it is not marked and has not been idle for longer
than its kind is kept. -/
def keeps (cfg : Config) (tao : ℤ) (e : Entry) : Bool :=
  !e.removed &&
    decide (difftime tao e.atime ≤ if e.whitelisted then cfg.timeoutWhite else cfg.timeoutGrey)

/-- The sweep. -/
def sweep (cfg : Config) (g : Greylist K) (tao : ℤ) : Greylist K where
  lookup k := (g.lookup k).filter (keeps cfg tao)
  finite := by
    refine g.finite.subset fun k hk => ?_
    obtain ⟨e, he⟩ := Option.isSome_iff_exists.mp hk
    exact Option.isSome_iff_exists.mpr ⟨e, (Option.filter_eq_some_iff.mp he).1⟩

end Greylist

/-- What the store knows about a tuple. -/
def Tuple.entry (t : Tuple) : Entry where
  ctime := t.ctime
  atime := t.atime
  whitelisted := t.whitelisted
  removed := t.removed

/-- An entry is kept exactly when its tuple is not due. -/
theorem keeps_entry (cfg : Config) (tao : ℤ) (t : Tuple) :
    Greylist.keeps cfg tao t.entry = !due cfg tao t := by
  rw [Bool.eq_iff_iff]
  rw [Greylist.keeps, due, expired]
  cases hw : t.whitelisted <;> simp [Tuple.entry, hw]

/-- The store represents a greylist: the live tuples are its entries. -/
def Represents (s : TupleSpace) (g : Greylist Key) : Prop :=
  ∀ k e, g.lookup k = some e ↔ ∃ t ∈ s.liveTuples, t.key = k ∧ t.entry = e

namespace Represents

variable {cfg : Config} {s : TupleSpace} {g : Greylist Key} {top : ℕ}

/-- The keys of the greylist are those of the live tuples. -/
theorem lookup_isSome_iff (h : Represents s g) (k : Key) :
    (g.lookup k).isSome = true ↔ k ∈ s.keys := by
  rw [Option.isSome_iff_exists, TupleSpace.keys, List.mem_map]
  constructor
  · rintro ⟨e, he⟩
    obtain ⟨t, ht, hk, -⟩ := (h k e).mp he
    exact ⟨t, ht, hk⟩
  · rintro ⟨t, ht, hk⟩
    exact ⟨t.entry, (h k t.entry).mpr ⟨t, ht, hk, rfl⟩⟩

theorem lookup_eq_none (h : Represents s g) {k : Key} (hk : k ∉ s.keys) :
    g.lookup k = none := by
  rw [← Option.not_isSome_iff_eq_none, h.lookup_isSome_iff]
  exact hk

/-- The greylist has as many entries as there are live tuples. -/
theorem size_eq (h : Represents s g) (hs : StoreOk cfg s top) : g.size = s.poolnum := by
  have hset : {k | (g.lookup k).isSome = true} = (s.keys.toFinset : Set Key) := by
    ext k
    simp [h.lookup_isSome_iff]
  rw [Greylist.size, hset, Set.ncard_coe_finset, List.toFinset_card_of_nodup hs.nodup,
    hs.length_keys]

/-- Representation only depends on which tuples are live. -/
theorem congr {s' : TupleSpace} (h : Represents s g)
    (hmem : ∀ t, t ∈ s'.liveTuples ↔ t ∈ s.liveTuples) : Represents s' g := by
  intro k e
  rw [h k e]
  exact exists_congr fun t => and_congr_left' (hmem t).symm

/-- The live tuples after one live record was changed. -/
theorem mem_liveTuples_write (hs : StoreOk cfg s top) {p : ℕ} (hp : p ∈ s.live)
    {t' : Tuple} (hkey : t'.key = (s.deref p).key) (t : Tuple) :
    t ∈ (s.write p t').liveTuples ↔
      t = t' ∨ (t ∈ s.liveTuples ∧ t.key ≠ (s.deref p).key) := by
  have hlt := hs.lt_of_mem_live hp
  simp only [TupleSpace.liveTuples, TupleSpace.live_write, List.mem_map]
  constructor
  · rintro ⟨q, hq, rfl⟩
    by_cases hpq : p = q
    · subst hpq
      exact Or.inl (TupleSpace.deref_write_self t' hlt)
    · refine Or.inr ⟨⟨q, hq, (TupleSpace.deref_write_ne t' hpq).symm⟩, fun heq => hpq ?_⟩
      rw [TupleSpace.deref_write_ne t' hpq] at heq
      have hnd : (s.live.map fun p => (s.deref p).key).Nodup := by
        have h := hs.nodup
        rwa [TupleSpace.keys, TupleSpace.liveTuples, List.map_map] at h
      exact (List.inj_on_of_nodup_map hnd hq hp heq).symm
  · rintro (rfl | ⟨⟨q, hq, rfl⟩, hne⟩)
    · exact ⟨p, hp, TupleSpace.deref_write_self t hlt⟩
    · have hpq : p ≠ q := by
        rintro rfl
        exact hne rfl
      exact ⟨q, hq, TupleSpace.deref_write_ne t' hpq⟩

/-- Changing a live record without changing its key sets the entry of that key. -/
theorem write (h : Represents s g) (hs : StoreOk cfg s top) {p : ℕ} (hp : p ∈ s.live)
    {t' : Tuple} (hkey : t'.key = (s.deref p).key) :
    Represents (s.write p t') (g.set (s.deref p).key t'.entry) := by
  intro k e
  simp only [mem_liveTuples_write hs hp hkey]
  by_cases hk : k = (s.deref p).key
  · subst hk
    rw [Greylist.lookup_set_self, Option.some_inj]
    constructor
    · rintro rfl
      exact ⟨t', Or.inl rfl, hkey, rfl⟩
    · rintro ⟨t, rfl | ⟨-, hne⟩, htk, rfl⟩
      · rfl
      · exact absurd htk hne
  · rw [Greylist.lookup_set_ne g _ hk, h k e]
    constructor
    · rintro ⟨t, ht, htk, rfl⟩
      exact ⟨t, Or.inr ⟨ht, htk ▸ hk⟩, htk, rfl⟩
    · rintro ⟨t, rfl | ⟨ht, -⟩, htk, rfl⟩
      · exact absurd (htk.symm.trans hkey) hk
      · exact ⟨t, ht, htk, rfl⟩

/-- The entry of a live record. -/
theorem lookup_live (h : Represents s g) {p : ℕ} (hp : p ∈ s.live) :
    g.lookup (s.deref p).key = some (s.deref p).entry :=
  (h _ _).mpr ⟨s.deref p, List.mem_map.mpr ⟨p, hp, rfl⟩, rfl, rfl⟩

/-- A new tuple is a new entry. -/
theorem insertedStore (h : Represents s g) {live free : List ℕ}
    (hl : Layout cfg s live free top) (hlt : s.poolnum < cfg.poolmax) {t : Tuple}
    (ht : t.key ∉ s.keys) (idx : ℕ) :
    Represents (insertedStore s t idx) (g.set t.key t.entry) := by
  intro k e
  rw [liveTuples_insertedStore hl hlt]
  simp only [mem_insertAt]
  by_cases hk : k = t.key
  · subst hk
    rw [Greylist.lookup_set_self, Option.some_inj]
    constructor
    · rintro rfl
      exact ⟨t, Or.inl rfl, rfl, rfl⟩
    · rintro ⟨t', rfl | ht', htk, rfl⟩
      · rfl
      · exact absurd (htk ▸ List.mem_map_of_mem ht') ht
  · rw [Greylist.lookup_set_ne g _ hk, h k e]
    constructor
    · rintro ⟨t', ht', htk, rfl⟩
      exact ⟨t', Or.inr ht', htk, rfl⟩
    · rintro ⟨t', rfl | ht', htk, rfl⟩
      · exact absurd htk.symm hk
      · exact ⟨t', ht', htk, rfl⟩

/-- The sweep of the store is the sweep of the greylist. -/
theorem sweptStore (h : Represents s g) {live free : List ℕ}
    (hl : Layout cfg s live free top) (tao : ℤ) :
    Represents (sweptStore cfg tao s top) (g.sweep cfg tao) := by
  intro k e
  rw [(swept_sweptStore _ hl.liveSlots).liveTuples_eq]
  change (g.lookup k).filter _ = some e ↔ _
  rw [Option.filter_eq_some_iff, h k e]
  constructor
  · rintro ⟨⟨t, ht, htk, rfl⟩, hkeep⟩
    rw [keeps_entry] at hkeep
    exact ⟨t, List.mem_filter.mpr ⟨ht, hkeep⟩, htk, rfl⟩
  · rintro ⟨t, ht, htk, rfl⟩
    obtain ⟨ht, hkeep⟩ := List.mem_filter.mp ht
    exact ⟨⟨t, ht, htk, rfl⟩, (keeps_entry cfg tao t).trans hkeep⟩

/-! ### The operations of the daemon -/

/-- What the greylist does with a known key is what the store does with its tuple. -/
theorem lets_entry (cfg : Config) (cmd : Cmd) (now : ℤ) (t : Tuple) :
    Greylist.lets cfg (decide (cmd = .whitelist)) now t.entry = passes cfg cmd now t := by
  rw [Bool.eq_iff_iff]
  simp [Greylist.lets, passes, Tuple.entry]

theorem entry_hitTuple (cfg : Config) (cmd : Cmd) (now : ℤ) (t : Tuple) :
    (hitTuple cfg cmd now t).entry =
      { t.entry with atime := now, whitelisted := passes cfg cmd now t } := by
  rw [hitTuple]
  cases hw : t.whitelisted with
  | true => simp [Tuple.entry, passes, hw]
  | false =>
      cases hpass : passes cfg cmd now t <;> simp [Tuple.entry, hw]

theorem entry_missTuple {tuple : Tuple} {now : ℤ} (hfresh : FreshTuple cfg now tuple)
    (cmd : Cmd) :
    (missTuple cmd tuple).entry =
      { ctime := now, atime := now, whitelisted := decide (cmd = .whitelist)
        removed := false } := by
  rw [missTuple]
  by_cases hcmd : cmd = .whitelist
  · simp [hcmd, Tuple.entry, hfresh.ctime, hfresh.atime, hfresh.removed]
  · simp [hcmd, Tuple.entry, hfresh.ctime, hfresh.atime, hfresh.whitelisted, hfresh.removed]

/-- A request for a known tuple. -/
theorem hitStore (h : Represents s g) (hs : StoreOk cfg s top) {p : ℕ} (hp : p ∈ s.live)
    (cmd : Cmd) (now : ℤ) :
    (if passes cfg cmd now (s.deref p) then passReply else waitReply) =
        (g.request cfg (decide (cmd = .whitelist)) (s.deref p).key now).1 ∧
      Represents (hitStore cfg s p cmd now)
        (g.request cfg (decide (cmd = .whitelist)) (s.deref p).key now).2 := by
  have hrep := h.write hs hp (key_hitTuple cfg cmd now (s.deref p))
  rw [entry_hitTuple] at hrep
  rw [Greylist.request, h.lookup_live hp, hitStore_eq (hs.lt_of_mem_live hp)]
  dsimp only
  rw [lets_entry]
  exact ⟨rfl, hrep.congr fun t => Iff.rfl⟩

/-- A request for a new tuple. -/
theorem missStore (h : Represents s g) {live free : List ℕ}
    (hl : Layout cfg s live free top) (hlt : s.poolnum < cfg.poolmax) {tuple : Tuple}
    {now : ℤ} (hfresh : FreshTuple cfg now tuple) (hkey : tuple.key ∉ s.keys) (idx : ℕ)
    (cmd : Cmd) :
    (if cmd = .whitelist then passReply else waitReply) =
        (g.request cfg (decide (cmd = .whitelist)) tuple.key now).1 ∧
      Represents (missStore s tuple idx cmd)
        (g.request cfg (decide (cmd = .whitelist)) tuple.key now).2 := by
  have hrep := h.insertedStore hl hlt (t := missTuple cmd tuple)
    ((key_missTuple cmd tuple).symm ▸ hkey) (insertIndex s idx)
  rw [key_missTuple, entry_missTuple hfresh] at hrep
  rw [Greylist.request, h.lookup_eq_none hkey, missStore_eq hl hlt]
  exact ⟨by simp, hrep.congr fun t => Iff.rfl⟩

/-- **The tuple check refines the request of the greylist**, as long as the pool has room
for one more tuple. -/
theorem typeGreylistCheckTuple (h : Represents s g) (hs : StoreOk cfg s top)
    (hroom : s.poolnum < cfg.poolmax) {tuple : Tuple} {now : ℤ}
    (hfresh : FreshTuple cfg now tuple) (cmd : Cmd) (clock : ℤ) :
    ∃ s' top',
      typeGreylistCheckTuple cfg s tuple cmd now clock =
        .ok ((g.request cfg (decide (cmd = .whitelist)) tuple.key now).1, s') ∧
      Represents s' (g.request cfg (decide (cmd = .whitelist)) tuple.key now).2 ∧
      StoreOk cfg s' top' ∧ top' ≤ max top s'.poolnum := by
  rcases tupleSearch_spec hs.length_live hs.sorted tuple with
    ⟨p, hp, idx, hkey, hsearch⟩ | ⟨idx, hsplit, hsearch⟩
  · obtain ⟨hreply, hrep⟩ := h.hitStore hs hp cmd now
    rw [hkey] at hreply hrep
    refine ⟨_, top, ?_, hrep, hs.hitStore hp cmd now, le_max_left _ _⟩
    rw [typeGreylistCheckTuple_hit hsearch (hs.lt_of_mem_live hp), hreply]
  · have hs' := hs.countRead
    obtain ⟨live, free, hl⟩ := hs'.layout
    have hroom' : s.countRead.poolnum < cfg.poolmax := hroom
    have hindex : insertIndex s.countRead idx = idx := by
      have hle := hsplit.le_length
      rw [hs.length_keys] at hle
      rw [insertIndex]
      split_ifs with hzero
      · have : s.poolnum = 0 := hzero
        omega
      · rfl
    have hle : insertIndex s.countRead idx ≤ s.countRead.poolnum := by
      rw [hindex]
      exact hs.length_keys ▸ hsplit.le_length
    obtain ⟨hreply, hrep⟩ := Represents.missStore (s := s.countRead)
      (h.congr fun t => Iff.rfl) hl hroom' hfresh hsplit.notMem idx cmd
    refine ⟨_, _, ?_, hrep, hs'.missStore hroom' (hindex.symm ▸ hsplit) cmd, ?_⟩
    · rw [typeGreylistCheckTuple_miss hsearch (tupleAllocate_of_lt hroom' clock) hl hroom'
        hfresh.pad hle, hreply]
    · rw [missStore_eq hl hroom']
      exact le_refl _

/-- **The removal of a tuple refines that of the greylist.** -/
theorem tupleRemove (h : Represents s g) (hs : StoreOk cfg s top) (tuple : Tuple) :
    Represents (tupleRemove s tuple) (g.remove tuple.key) ∧
      StoreOk cfg (tupleRemove s tuple) top ∧
      (tupleRemove s tuple).poolnum = s.poolnum := by
  rcases tupleSearch_spec hs.length_live hs.sorted tuple with
    ⟨p, hp, idx, hkey, hsearch⟩ | ⟨idx, hsplit, hsearch⟩
  · have hremove : XGrey.tupleRemove s tuple =
        s.countRead.write p ((s.deref p).setFlag fRemove) := by
      rw [XGrey.tupleRemove, hsearch]
      rfl
    have hrep := h.write hs hp (Tuple.key_setFlag (s.deref p) fRemove)
    have hentry : ((s.deref p).setFlag fRemove).entry =
        { (s.deref p).entry with removed := true } := by
      simp [Tuple.entry]
    rw [hremove, Greylist.remove, ← hkey, h.lookup_live hp]
    rw [hentry] at hrep
    exact ⟨hrep.congr fun t => Iff.rfl, hs.countRead.write hp rfl, rfl⟩
  · have hremove : XGrey.tupleRemove s tuple = s.countRead := by
      rw [XGrey.tupleRemove, hsearch]
    rw [hremove, Greylist.remove, h.lookup_eq_none hsplit.notMem]
    exact ⟨h.congr fun t => Iff.rfl, hs.countRead, rfl⟩

/-- **The sweep refines that of the greylist**, as long as not every record of the pool
has been used. -/
theorem tupleExpire (h : Represents s g) (hs : StoreOk cfg s top) (htop : top < cfg.poolmax)
    (tao : ℤ) :
    ∃ s', tupleExpire cfg s tao = .ok s' ∧ Represents s' (g.sweep cfg tao) ∧
      StoreOk cfg s' top := by
  obtain ⟨live, free, hl⟩ := hs.layout
  exact ⟨_, tupleExpire_eq _ hl (Or.inr (Or.inl htop)), h.sweptStore hl tao, hs.sweptStore tao⟩

end Represents

/-- The empty store represents the empty greylist. -/
theorem represents_init (cfg : Config) : Represents (TupleSpace.init cfg) Greylist.empty := by
  intro k e
  simp [Greylist.empty, TupleSpace.liveTuples, TupleSpace.live, TupleSpace.init]

/-! ### The greylist of a store -/

/-- What a store knows about a key. -/
def TupleSpace.entry (s : TupleSpace) (k : Key) : Option Entry :=
  (s.liveTuples.find? fun t => decide (t.key = k)).map Tuple.entry

/-- The greylist that a store stands for. -/
def TupleSpace.greylist (s : TupleSpace) : Greylist Key where
  lookup := s.entry
  finite := by
    refine (List.finite_toSet s.keys).subset fun k hk => ?_
    obtain ⟨e, he⟩ := Option.isSome_iff_exists.mp hk
    obtain ⟨t, ht, -⟩ := Option.map_eq_some_iff.mp he
    have hkey := List.find?_some ht
    exact List.mem_map.mpr ⟨t, List.mem_of_find?_eq_some ht, of_decide_eq_true hkey⟩

/-- A store in order represents it. -/
theorem StoreOk.represents {cfg : Config} {s : TupleSpace} {top : ℕ} (h : StoreOk cfg s top) :
    Represents s s.greylist := by
  have hinj : ∀ t ∈ s.liveTuples, ∀ t' ∈ s.liveTuples, t.key = t'.key → t = t' :=
    fun t ht t' ht' hkey => List.inj_on_of_nodup_map h.nodup ht ht' hkey
  intro k e
  change (s.liveTuples.find? _).map _ = _ ↔ _
  rw [Option.map_eq_some_iff]
  constructor
  · rintro ⟨t, ht, rfl⟩
    have hkey := List.find?_some ht
    exact ⟨t, List.mem_of_find?_eq_some ht, of_decide_eq_true hkey, rfl⟩
  · rintro ⟨t, ht, hk, rfl⟩
    have hsome : (s.liveTuples.find? fun t => decide (t.key = k)).isSome = true :=
      List.find?_isSome.mpr ⟨t, ht, decide_eq_true hk⟩
    obtain ⟨t', ht'⟩ := Option.isSome_iff_exists.mp hsome
    have hk' := List.find?_some ht'
    have heq := hinj t' (List.mem_of_find?_eq_some ht') t ht
      ((of_decide_eq_true hk').trans hk.symm)
    exact ⟨t', ht', heq ▸ rfl⟩

end XGrey
