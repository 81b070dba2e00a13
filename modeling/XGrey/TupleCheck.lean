import XGrey.TupleAdd

/-!
# The Tuple Check of a Request

What `type_greylist` does to the store once it has reached the tuple, by whether the
tuple is there. A known tuple is touched and, if it passes, whitelisted
(`typeGreylistCheckTuple_hit`); a new one is written to the record that `tuple_allocate`
hands out and inserted at the index found before (`typeGreylistCheckTuple_miss`).

`StoreOk` is the invariant of the store: the array has a layout and its live part is
sorted. The lemmas on what keeps it, one for each way of changing the store, are at the
end.
-/

open CRuntime SortedSeq ArrayShift

namespace XGrey

/-! ### A known tuple -/

/-- Whether a known tuple is let through: it is whitelisted, is to be whitelisted by the
request, or has waited for the embargo. -/
def passes (cfg : Config) (cmd : Cmd) (now : ℤ) (t : Tuple) : Bool :=
  t.whitelisted || decide (cmd = .whitelist) ||
    !decide (difftime now t.ctime < cfg.timeoutEmbargo)

/-- The verdict and the reason for a tuple that is let through. -/
def passReply : ℤ × Reason := (Ift.accept, .whitelist)

/-- The verdict and the reason for a tuple that has to wait. -/
def waitReply : ℤ × Reason := (Ift.greylist, .greylist)

/-- Whitelist a record that is not whitelisted yet. -/
def confirm (s : TupleSpace) (p : ℕ) : TupleSpace :=
  if (s.deref p).whitelisted then s else s.setWhitelist p

/-- The store after a request for the known tuple at `p`. -/
def hitStore (cfg : Config) (s : TupleSpace) (p : ℕ) (cmd : Cmd) (now : ℤ) : TupleSpace :=
  let s' := s.countRead.write p ((s.deref p).touch now)
  if passes cfg cmd now (s.deref p) then confirm s' p else s'

/-- The known tuple after the request. -/
def hitTuple (cfg : Config) (cmd : Cmd) (now : ℤ) (t : Tuple) : Tuple :=
  if passes cfg cmd now t && !t.whitelisted then (t.touch now).setFlag fWhitelist
  else t.touch now

@[simp] theorem key_hitTuple (cfg : Config) (cmd : Cmd) (now : ℤ) (t : Tuple) :
    (hitTuple cfg cmd now t).key = t.key := by
  rw [hitTuple]
  split_ifs <;> rfl

/-- The request changes the record of the tuple and at most the count of whitelisted
tuples. -/
theorem hitStore_eq {cfg : Config} {s : TupleSpace} {p : ℕ} (hp : p < s.pool.length)
    (cmd : Cmd) (now : ℤ) :
    hitStore cfg s p cmd now =
      { s.countRead.write p (hitTuple cfg cmd now (s.deref p)) with
        whitelisted := s.whitelisted +
          if passes cfg cmd now (s.deref p) && !(s.deref p).whitelisted then 1 else 0 } := by
  have htouch : (s.countRead.write p ((s.deref p).touch now)).deref p =
      (s.deref p).touch now := TupleSpace.deref_write_self _ hp
  rw [hitStore]
  dsimp only
  rw [confirm, hitTuple]
  rw [htouch, Tuple.whitelisted_touch]
  cases hw : (s.deref p).whitelisted <;> cases hpass : passes cfg cmd now (s.deref p) <;>
    simp [TupleSpace.setWhitelist, TupleSpace.write, TupleSpace.countRead,
      TupleSpace.deref, hp]

theorem whitelisted_confirm {s : TupleSpace} {p : ℕ} (hp : p < s.pool.length) :
    ((confirm s p).deref p).whitelisted = true := by
  rw [confirm]
  split_ifs with hw
  · exact hw
  · change ((s.write p _).deref p).whitelisted = true
    rw [TupleSpace.deref_write_self _ hp, Tuple.whitelisted_setFlag_whitelist]

/-- **A known tuple.** -/
theorem typeGreylistCheckTuple_hit {cfg : Config} {s : TupleSpace} {tuple : Tuple} {p idx : ℕ}
    (hsearch : tupleSearch s tuple = (some p, idx, s.countRead)) (hp : p < s.pool.length)
    (cmd : Cmd) (now clock : ℤ) :
    typeGreylistCheckTuple cfg s tuple cmd now clock =
      .ok (if passes cfg cmd now (s.deref p) then passReply else waitReply,
        hitStore cfg s p cmd now) := by
  have htouch : (s.countRead.write p ((s.deref p).touch now)).deref p =
      (s.deref p).touch now := TupleSpace.deref_write_self _ hp
  have hlen : p < (s.countRead.write p ((s.deref p).touch now)).pool.length := by
    rw [TupleSpace.length_pool_write]
    exact hp
  rw [typeGreylistCheckTuple, hsearch]
  dsimp only
  rw [TupleSpace.deref_countRead, hitStore]
  generalize hs₁ : s.countRead.write p ((s.deref p).touch now) = s₁ at htouch hlen ⊢
  cases hw : (s.deref p).whitelisted with
  | true =>
      have hw₁ : (s₁.deref p).whitelisted = true := by rw [htouch]; exact hw
      have hpass : passes cfg cmd now (s.deref p) = true := by simp [passes, hw]
      simp [hw₁, hpass, confirm, passReply]
  | false =>
      have hw₁ : (s₁.deref p).whitelisted = false := by rw [htouch]; exact hw
      by_cases hcmd : cmd = .whitelist
      · subst hcmd
        have hpass : passes cfg .whitelist now (s.deref p) = true := by simp [passes]
        have hw₂ : ((s₁.setWhitelist p).deref p).whitelisted = true := by
          have h := whitelisted_confirm hlen
          rwa [confirm, hw₁, if_neg Bool.false_ne_true] at h
        simp [hw₁, hw₂, hpass, confirm, passReply]
      · have hct : (s₁.deref p).ctime = (s.deref p).ctime := by rw [htouch]; rfl
        have hpass : passes cfg cmd now (s.deref p) =
            !decide (difftime now (s.deref p).ctime < cfg.timeoutEmbargo) := by
          simp [passes, hw, hcmd]
        rw [hpass]
        by_cases hemb : difftime now (s.deref p).ctime < cfg.timeoutEmbargo
        · simp [hcmd, hw₁, hct, hemb, waitReply]
        · simp [hcmd, hw₁, hct, hemb, confirm, passReply]

/-! ### A new tuple -/

/-- The index at which a request inserts a new tuple into the store that the allocation
left, `idx` being the one found before. -/
def insertIndex (s : TupleSpace) (idx : ℕ) : ℕ := if s.poolnum = 0 then 0 else idx

/-- The store after a request for a new tuple, from the store that the allocation left. -/
def missStore (s : TupleSpace) (tuple : Tuple) (idx : ℕ) (cmd : Cmd) : TupleSpace :=
  let s' := { insertedStore s tuple (insertIndex s idx) with greylisted := s.greylisted + 1 }
  if cmd = .whitelist then s'.setWhitelist (s.slot s.poolnum) else s'

/-- The new tuple as it is stored. -/
def missTuple (cmd : Cmd) (tuple : Tuple) : Tuple :=
  if cmd = .whitelist then tuple.setFlag fWhitelist else tuple

@[simp] theorem key_missTuple (cmd : Cmd) (tuple : Tuple) :
    (missTuple cmd tuple).key = tuple.key := by
  rw [missTuple]
  split_ifs <;> rfl

/-- The request inserts the tuple and counts it. -/
theorem missStore_eq {cfg : Config} {s : TupleSpace} {top : ℕ} {live free : List ℕ}
    (h : Layout cfg s live free top) (hlt : s.poolnum < cfg.poolmax) (tuple : Tuple)
    (idx : ℕ) (cmd : Cmd) :
    missStore s tuple idx cmd =
      { insertedStore s (missTuple cmd tuple) (insertIndex s idx) with
        greylisted := s.greylisted + 1
        whitelisted := s.whitelisted + if cmd = .whitelist then 1 else 0 } := by
  have hderef := deref_insertedStore_self h hlt tuple (insertIndex s idx)
  rw [missStore, missTuple]
  by_cases hcmd : cmd = .whitelist
  · simp only [hcmd, TupleSpace.setWhitelist, insertedStore, TupleSpace.write,
      TupleSpace.countWrite, if_true, List.set_set]
    congr 2
    exact congrArg (·.setFlag fWhitelist) hderef
  · simp [hcmd, insertedStore, TupleSpace.write, TupleSpace.countWrite]

/-- **A new tuple.** -/
theorem typeGreylistCheckTuple_miss {cfg : Config} {s s₁ : TupleSpace} {tuple : Tuple}
    {idx top : ℕ} {live free : List ℕ} {cmd : Cmd} {clock : ℤ}
    (hsearch : tupleSearch s tuple = (none, idx, s.countRead))
    (halloc : tupleAllocate cfg s.countRead clock = .ok (s₁.slot s₁.poolnum, s₁))
    (h : Layout cfg s₁ live free top) (hlt : s₁.poolnum < cfg.poolmax)
    (hpad : cfg.ndebug = true ∨ tuple.pad = decafbad)
    (hidx : insertIndex s₁ idx ≤ s₁.poolnum) (now : ℤ) :
    typeGreylistCheckTuple cfg s tuple cmd now clock =
      .ok (if cmd = .whitelist then passReply else waitReply, missStore s₁ tuple idx cmd) := by
  rw [typeGreylistCheckTuple, hsearch]
  dsimp only
  rw [halloc, ok_bind]
  dsimp only
  rw [← insertIndex, tupleAdd_eq h hlt hpad hidx, ok_bind, missStore]
  by_cases hcmd : cmd = .whitelist <;> simp [hcmd, passReply, waitReply, insertedStore,
    TupleSpace.write, TupleSpace.countWrite]

/-- An allocation that fails ends the request. -/
theorem typeGreylistCheckTuple_error {cfg : Config} {s : TupleSpace} {tuple : Tuple}
    {idx : ℕ} {cmd : Cmd} {clock : ℤ} {e : Fault}
    (hsearch : tupleSearch s tuple = (none, idx, s.countRead))
    (halloc : tupleAllocate cfg s.countRead clock = .error e) (now : ℤ) :
    typeGreylistCheckTuple cfg s tuple cmd now clock = .error e := by
  rw [typeGreylistCheckTuple, hsearch]
  dsimp only
  rw [halloc, error_bind]

/-! ### A line of the whitelist file -/

/-- A line whose tuple is there. -/
theorem whitelistLoadTuple_hit {cfg : Config} {s : TupleSpace} {tuple : Tuple} {p idx : ℕ}
    (hsearch : tupleSearch s tuple = (some p, idx, s.countRead)) (now clock : ℤ) :
    whitelistLoadTuple cfg s tuple now clock =
      .ok (confirm (s.countRead.write p ((s.deref p).touch now)) p) := by
  rw [whitelistLoadTuple, hsearch]
  rfl

/-- A line whose tuple is new. Its index is used as it was found. -/
theorem whitelistLoadTuple_miss {cfg : Config} {s s₁ : TupleSpace} {tuple : Tuple}
    {idx top : ℕ} {live free : List ℕ} {clock : ℤ}
    (hsearch : tupleSearch s tuple = (none, idx, s.countRead))
    (halloc : tupleAllocate cfg s.countRead clock = .ok (s₁.slot s₁.poolnum, s₁))
    (h : Layout cfg s₁ live free top) (hlt : s₁.poolnum < cfg.poolmax)
    (hpad : cfg.ndebug = true ∨ tuple.pad = decafbad) (hidx : idx ≤ s₁.poolnum) (now : ℤ) :
    whitelistLoadTuple cfg s tuple now clock =
      .ok { insertedStore s₁ (tuple.setFlag fWhitelist) idx with
        whitelisted := s₁.whitelisted + 1 } := by
  have hwrite : ((s₁.write (s₁.slot s₁.poolnum) tuple).write (s₁.slot s₁.poolnum)
      (((s₁.write (s₁.slot s₁.poolnum) tuple).deref (s₁.slot s₁.poolnum)).setFlag
        fWhitelist)) =
      s₁.write (s₁.slot s₁.poolnum) (tuple.setFlag fWhitelist) := by
    rw [TupleSpace.deref_write_self _ (h.length_pool ▸ h.next_lt hlt)]
    simp [TupleSpace.write]
  rw [whitelistLoadTuple, hsearch]
  dsimp only
  rw [halloc, ok_bind]
  dsimp only
  rw [hwrite, tupleAdd_eq h hlt (t := tuple.setFlag fWhitelist) hpad hidx, ok_bind]
  rfl

/-! ### Tuples as requests make them -/

/-- A tuple as it is made from a request at a time: both timestamps are that time, no flag
that the store uses is set, and a build with assertions has marked it. -/
structure FreshTuple (cfg : Config) (now : ℤ) (t : Tuple) : Prop where
  ctime : t.ctime = now
  atime : t.atime = now
  whitelisted : t.whitelisted = false
  removed : t.removed = false
  pad : cfg.ndebug = true ∨ t.pad = decafbad

/-! ### The invariant of the store -/

/-- The store is in order: its array has a layout whose used part ends at `top`, and its
live tuples are sorted. -/
structure StoreOk (cfg : Config) (s : TupleSpace) (top : ℕ) : Prop where
  layout : ∃ live free, Layout cfg s live free top
  sorted : s.keys.Pairwise (· < ·)

namespace StoreOk

variable {cfg : Config} {s : TupleSpace} {top : ℕ}

theorem length_live (h : StoreOk cfg s top) : s.live.length = s.poolnum := by
  obtain ⟨live, free, hl⟩ := h.layout
  rw [hl.live_eq, hl.length_live]

theorem length_keys (h : StoreOk cfg s top) : s.keys.length = s.poolnum := by
  rw [XGrey.length_keys, h.length_live]

theorem poolnum_le (h : StoreOk cfg s top) : s.poolnum ≤ cfg.poolmax := by
  obtain ⟨live, free, hl⟩ := h.layout
  exact hl.poolnum_le

theorem lt_of_mem_live (h : StoreOk cfg s top) {p : ℕ} (hp : p ∈ s.live) :
    p < s.pool.length := by
  obtain ⟨live, free, hl⟩ := h.layout
  exact hl.lt_length_pool hp

/-- The keys of the live tuples are distinct. -/
theorem nodup (h : StoreOk cfg s top) : s.keys.Nodup :=
  h.sorted.imp fun hlt => ne_of_lt hlt

/-- Only the array, the number of live entries and the records matter. -/
theorem congr {s' : TupleSpace} (h : StoreOk cfg s top) (hpool : s'.pool = s.pool)
    (hspace : s'.tuplespace = s.tuplespace) (hnum : s'.poolnum = s.poolnum) :
    StoreOk cfg s' top := by
  obtain ⟨live, free, hl⟩ := h.layout
  have hderef := TupleSpace.deref_congr hpool
  refine ⟨⟨live, free, hl.congr (by rw [hpool]) hspace hnum fun p _ => by rw [hderef]⟩, ?_⟩
  rw [TupleSpace.keys, TupleSpace.liveTuples_congr hspace hnum hpool]
  exact h.sorted

/-- Counting a read keeps the store in order. -/
theorem countRead (h : StoreOk cfg s top) : StoreOk cfg s.countRead top :=
  h.congr rfl rfl rfl

/-- So does changing a live record without changing its key. -/
theorem write (h : StoreOk cfg s top) {p : ℕ} (hp : p ∈ s.live) {t : Tuple}
    (ht : t.key = (s.deref p).key) : StoreOk cfg (s.write p t) top := by
  obtain ⟨live, free, hl⟩ := h.layout
  refine ⟨⟨live, free, hl.write (hl.live_eq ▸ hp) t⟩, ?_⟩
  rw [TupleSpace.keys_write ht]
  exact h.sorted

theorem setWhitelist (h : StoreOk cfg s top) {p : ℕ} (hp : p ∈ s.live) :
    StoreOk cfg (s.setWhitelist p) top :=
  (h.write hp (t := (s.deref p).setFlag fWhitelist) rfl).congr rfl rfl rfl

theorem confirm (h : StoreOk cfg s top) {p : ℕ} (hp : p ∈ s.live) :
    StoreOk cfg (confirm s p) top := by
  rw [XGrey.confirm]
  split_ifs
  · exact h
  · exact h.setWhitelist hp

/-- A request for a known tuple keeps the store in order. -/
theorem hitStore (h : StoreOk cfg s top) {p : ℕ} (hp : p ∈ s.live) (cmd : Cmd) (now : ℤ) :
    StoreOk cfg (hitStore cfg s p cmd now) top := by
  have hw := h.countRead.write hp (t := (s.deref p).touch now) rfl
  rw [XGrey.hitStore]
  split_ifs
  · exact hw.confirm hp
  · exact hw

/-- A sweep keeps the store in order. -/
theorem sweptStore (h : StoreOk cfg s top) (tao : ℤ) :
    StoreOk cfg (sweptStore cfg tao s top) top := by
  obtain ⟨live, free, hl⟩ := h.layout
  exact ⟨⟨_, _, layout_sweptStore _ hl⟩, (swept_sweptStore _ hl.liveSlots).pairwise_keys h.sorted⟩

/-- An insertion keeps it in order when the index is the insertion point of the key. -/
theorem insertedStore (h : StoreOk cfg s top) (hlt : s.poolnum < cfg.poolmax) {t : Tuple}
    {idx : ℕ} (hsplit : SplitsAt t.key s.keys idx) :
    StoreOk cfg (insertedStore s t idx) (max top (s.poolnum + 1)) := by
  obtain ⟨live, free, hl⟩ := h.layout
  obtain ⟨free', top', hl', rfl⟩ := layout_insertedStore hl hlt t idx
  refine ⟨⟨_, _, hl'⟩, ?_⟩
  rw [keys_insertedStore hl hlt]
  exact hsplit.pairwise_insert h.sorted

/-- A request for a new tuple keeps it in order under the same condition. -/
theorem missStore (h : StoreOk cfg s top) (hlt : s.poolnum < cfg.poolmax) {tuple : Tuple}
    {idx : ℕ} (hsplit : SplitsAt tuple.key s.keys (insertIndex s idx)) (cmd : Cmd) :
    StoreOk cfg (missStore s tuple idx cmd) (max top (s.poolnum + 1)) := by
  obtain ⟨live, free, hl⟩ := h.layout
  rw [missStore_eq hl hlt]
  exact (h.insertedStore hlt (t := missTuple cmd tuple)
    ((key_missTuple cmd tuple).symm ▸ hsplit)).congr rfl rfl rfl

end StoreOk

/-- The store is in order at startup. -/
theorem storeOk_init (cfg : Config) : StoreOk cfg (TupleSpace.init cfg) 0 :=
  ⟨⟨[], [], layout_init cfg⟩, List.Pairwise.nil⟩

end XGrey
