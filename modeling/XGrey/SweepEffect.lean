import XGrey.Server
import XGrey.TupleExpire

/-!
# What a Sweep Leaves

`tuple_expire` on any store whose live entries point to different records of the pool,
whatever is behind them in the array and whatever flags the other records carry. In the
daemon the layout of the store says more, but the sweep does not rest on it.

## Main results

* `tupleExpire_compacts`: the sweep keeps the tuples that are neither marked nor idle for too
  long, in their order, and counts the others.
-/

open CRuntime

namespace XGrey

variable {cfg : Config} {tao : ℤ} {s s' : TupleSpace}

/-- A tuple that is not marked for removal and has not been idle for longer than its kind is
kept. -/
def Stays (cfg : Config) (tao : ℤ) (t : Tuple) : Prop :=
  t.removed = false ∧
    difftime tao t.atime ≤ if t.whitelisted then cfg.timeoutWhite else cfg.timeoutGrey

instance (cfg : Config) (tao : ℤ) (t : Tuple) : Decidable (Stays cfg tao t) :=
  inferInstanceAs (Decidable (_ ∧ _))

theorem stays_iff {t : Tuple} : Stays cfg tao t ↔ due cfg tao t = false := by
  rw [Stays, due, Bool.or_eq_false_iff, expired]
  refine and_congr_right fun _ => ?_
  cases t.whitelisted <;> simp

theorem decide_stays (t : Tuple) : decide (Stays cfg tao t) = !due cfg tao t := by
  rw [Bool.eq_iff_iff, decide_eq_true_iff, stays_iff, Bool.not_eq_true']

/-- What a sweep at time `tao` is to make of a store. -/
structure Compacted (cfg : Config) (tao : ℤ) (s s' : TupleSpace) : Prop where
  /-- The live entries are those that stay, in their order. -/
  live_eq : s'.live = s.live.filter fun p => Stays cfg tao (s.deref p)
  poolnum_eq : s'.poolnum = s'.live.length
  /-- Their records are untouched. -/
  deref_eq : ∀ p ∈ s'.live, s'.deref p = s.deref p
  greylistExpired_eq : s'.greylistExpired = s.greylistExpired +
    s.liveTuples.countP fun t => ¬ Stays cfg tao t ∧ t.whitelisted = false
  whitelistExpired_eq : s'.whitelistExpired = s.whitelistExpired +
    s.liveTuples.countP fun t => ¬ Stays cfg tao t ∧ t.whitelisted = true
  whitelisted_eq : s'.whitelisted = s.whitelisted -
    s.liveTuples.countP fun t => ¬ Stays cfg tao t ∧ t.whitelisted = true
  /-- Behind them stand the records that are marked then, among them all that were dropped. -/
  placed : ∃ rest, s'.tuplespace = s'.live ++ (flagged s' (List.range cfg.poolmax) ++ rest) ∧
    ∀ p ∈ s.live, p ∉ s'.live → p ∈ flagged s' (List.range cfg.poolmax)

/-- How many tuples a sweep drops of the kind that a test tells. -/
theorem countP_due (q : Tuple → Bool) (ts : List Tuple) :
    ts.countP (fun t => due cfg tao t && q t) =
      ts.countP fun t => ¬ Stays cfg tao t ∧ q t = true := by
  refine congrArg (fun f => ts.countP f) (funext fun t => ?_)
  rw [Bool.eq_iff_iff, Bool.and_eq_true, decide_eq_true_iff, stays_iff, Bool.not_eq_false]

/-- A record that was dropped is collected. -/
theorem mem_reclaimed (h : LiveSlots cfg s) {p : ℕ} (hp : p ∈ s.live)
    (hdrop : p ∉ keepers cfg tao s) : p ∈ reclaimed cfg tao s := by
  have hdue : due cfg tao (s.deref p) = true := by
    by_contra hdue
    exact hdrop (mem_keepers.mpr ⟨hp, Bool.eq_false_iff.mpr hdue⟩)
  refine mem_flagged.mpr ⟨List.mem_range.mpr (h.lt_poolmax p hp), ?_⟩
  rw [deref_halfSwept tao h, if_pos hp, removed_expireMark, hdue]

/-- The store that the sweep computes. -/
theorem compacted_sweptStore (h : LiveSlots cfg s) :
    Compacted cfg tao s (sweptStore cfg tao s
      ((keepers cfg tao s).length + (reclaimed cfg tao s).length)) := by
  generalize (keepers cfg tao s).length + (reclaimed cfg tao s).length = top
  have hswept : Swept cfg tao s (sweptStore cfg tao s top) := swept_sweptStore tao h
  have hlive : (sweptStore cfg tao s top).live = keepers cfg tao s := live_sweptStore tao h
  have hwhite : dueWhite cfg tao s.liveTuples = _ := countP_due Tuple.whitelisted s.liveTuples
  have hgrey : dueGrey cfg tao s.liveTuples = s.liveTuples.countP
      fun t => ¬ Stays cfg tao t ∧ t.whitelisted = false := by
    rw [dueGrey, countP_due]
    simp only [Bool.not_eq_true']
  exact
    { live_eq := by
        rw [hlive, keepers]
        exact List.filter_congr fun p _ => (decide_stays (s.deref p)).symm
      poolnum_eq := by
        rw [hlive]
        exact poolnum_halfSwept tao h
      deref_eq := fun p hp => hswept.deref_kept hp
      greylistExpired_eq := by
        rw [← hgrey, hswept.rest]
      whitelistExpired_eq := by
        rw [← hwhite, hswept.rest]
      whitelisted_eq := by
        rw [← hwhite, hswept.rest]
      placed := by
        refine ⟨s.tuplespace.drop top, ?_, fun p hp hdrop => ?_⟩
        · rw [hlive, ← List.append_assoc]
          rfl
        · exact mem_reclaimed h hp (hlive ▸ hdrop) }

/-- **The sweep**, on any store whose live entries point to different records of the pool: it
fails nowhere but at its bound check, and otherwise keeps the tuples that are neither marked
nor idle for too long, in their order and as they are, counts those that it drops by their
kind, and puts them right behind the others. -/
theorem tupleExpire_compacts (h : LiveSlots cfg s) (tao : ℤ) :
    (∀ e, tupleExpire cfg s tao = .error e → cfg.ndebug = false ∧ e = .assertion) ∧
      ∀ s', tupleExpire cfg s tao = .ok s' → Compacted cfg tao s s' := by
  by_cases hroom : cfg.ndebug = true ∨ reclaimed cfg tao s = [] ∨
      (keepers cfg tao s).length + (reclaimed cfg tao s).length < cfg.poolmax
  · rw [tupleExpire_eq_sweptStore tao h hroom]
    refine ⟨fun e he => (nomatch he), fun s' hs' => ?_⟩
    cases hs'
    exact compacted_sweptStore h
  · rw [not_or, not_or, Bool.not_eq_true, not_lt] at hroom
    obtain ⟨hcheck, hsome, hfull⟩ := hroom
    rw [tupleExpire_eq_error tao h hcheck hsome hfull]
    refine ⟨fun e he => ?_, fun s' hs' => (nomatch hs')⟩
    cases he
    exact ⟨hcheck, rfl⟩

/-- Two tuples in a pool of three, the second of which has been idle for seven hours. -/
def idleStore : TupleSpace :=
  { TupleSpace.init (Config.default false) with
    pool := [default, { (default : Tuple) with atime := 20000 }, default]
    tuplespace := [1, 0, 2]
    poolnum := 2 }

/-- The other one stays. -/
theorem tupleExpire_compacts_idle :
    ∃ s', tupleExpire ((Config.default false).withPool 3 (by decide)) idleStore 25200 =
        .ok s' ∧
      s'.live = [1] ∧
      Compacted ((Config.default false).withPool 3 (by decide)) 25200 idleStore s' := by
  obtain ⟨s', hok, hlive⟩ := exists_of_okAnd
    (tupleExpire ((Config.default false).withPool 3 (by decide)) idleStore 25200)
    (fun s' => decide (s'.live = [1])) (by decide +kernel)
  refine ⟨s', hok, of_decide_eq_true hlive, (tupleExpire_compacts ?_ 25200).2 s' hok⟩
  exact ⟨rfl, rfl, by decide, by decide, by decide⟩

end XGrey
