import XGrey.IplistDump

/-!
# The Table of the Address Rules

What `ip_table` returns, in terms of the calls that have made the tree: a block for the
default and one for every rule, with the prefix, the command and the number of lookups that
the rule has decided. The numbers are kept in the nodes of the tree; adding a rule, whether
it overwrites one or was removed before, does not change them.

## Main results

* `ipMatch_decider`: `ip_match` counts the rule that decides.
* `ipTable_rules`: the table after any calls of `ip_add_sm` and `ip_match`.
-/

open CRuntime PrefixMap StepRun

namespace XGrey

/-! ### Which rule decides -/

/-- The prefix of an address whose rule decides. -/
def decider (rules : IpRuleMap) (addr : List Bool) : Option (List Bool) :=
  longest (fun q => (rules q).map fun _ => q) addr

/-- What a call does to the rules and to the numbers of the lookups that they decided. -/
def hitStep (s : IpRuleMap × (List Bool → ℕ)) : IpCall → IpRuleMap × (List Bool → ℕ)
  | .add ip mask cmd => (addRule s.1 ip mask cmd, s.2)
  | .lookup ip => (s.1, (decider s.1 (prefixBits ip 32)).elim s.2 fun q =>
      Function.update s.2 q (s.2 q + 1))

/-- How many lookups the rule for a prefix has decided in a sequence of calls. -/
def hitsAfter (calls : List IpCall) : List Bool → ℕ :=
  (calls.foldl hitStep (initRules, fun _ => 0)).2

theorem hitStep_fst (s : IpRuleMap × (List Bool → ℕ)) (c : IpCall) :
    (hitStep s c).1 = ruleStep s.1 c := by
  cases c <;> rfl

/-- The number in the node of a prefix. -/
def hitCount (t : BinTrie IpNode) (q : List Bool) : ℕ := ((t.get? q).map IpNode.count).getD 0

@[simp] theorem hitCount_nil (q : List Bool) : hitCount .nil q = 0 := by
  simp [hitCount]

theorem hitCount_childOrNew (t : BinTrie IpNode) : hitCount (childOrNew t) = hitCount t := by
  cases t with
  | node a zero one => rfl
  | nil =>
      funext q
      rcases q with _ | ⟨b, q⟩
      · rfl
      · cases b <;> simp [childOrNew, BinTrie.isNil, hitCount, BinTrie.get?]

/-- The number of a node and those below its children. -/
theorem hitCount_node_congr {a a' : IpNode} {zero zero' one one' : BinTrie IpNode}
    (ha : a'.count = a.count) (hzero : hitCount zero' = hitCount zero)
    (hone : hitCount one' = hitCount one) :
    hitCount (.node a' zero' one') = hitCount (.node a zero one) := by
  funext q
  rcases q with _ | ⟨b, q⟩
  · simpa [hitCount, BinTrie.get?] using ha
  · cases b with
    | false => exact congrFun hzero q
    | true => exact congrFun hone q

/-! ### Adding a rule -/

theorem count_ipInstall (cmd : ℤ) (n : IpNode) (ipcnt : ℤ) :
    (ipInstall cmd n ipcnt).1.count = n.count := by
  rw [ipInstall]
  split_ifs <;> rfl

/-- The walk of `ip_add_sm` does not change what was counted. -/
theorem hitCount_ipAddLoop {ip : List UInt8} {cmd : ℤ} {mask : ℕ} {t : BinTrie IpNode}
    {off : ℤ} {bit : ℕ} {ipcnt : ℤ} {r : BinTrie IpNode × ℤ}
    (h : ipAddLoop ip cmd mask t off bit ipcnt = .ok r) : hitCount r.1 = hitCount t := by
  induction mask generalizing t off bit ipcnt r with
  | zero =>
      obtain ⟨a, zero, one, rfl, ⟨-, hr⟩ | ⟨n, off', bit', child, hn, -⟩⟩ := ipAddLoop_inv h
      · rw [hr]
        exact hitCount_node_congr (count_ipInstall cmd a ipcnt) rfl rfl
      · cases hn
  | succ mask ih =>
      obtain ⟨a, zero, one, rfl, ⟨hn, -⟩ | ⟨n, off', bit', child, hn, hchild⟩⟩ := ipAddLoop_inv h
      · cases hn
      · cases hn
        rcases hchild with ⟨hloop, hr⟩ | ⟨hloop, hr⟩
        · rw [hr]
          exact hitCount_node_congr rfl ((ih hloop).trans (hitCount_childOrNew zero)) rfl
        · rw [hr]
          exact hitCount_node_congr rfl rfl ((ih hloop).trans (hitCount_childOrNew one))

/-- **`ip_add_sm`** does not change what was counted. -/
theorem hitCount_ipAddSm {ndebug : Bool} {l l' : IpList} {ip : List UInt8} {mask cmd : ℤ}
    (h : ipAddSm ndebug l ip mask cmd = .ok l') : hitCount l'.tree = hitCount l.tree := by
  rcases ipAddSm_inv h with ⟨n, zero, one, htree, hset | hleft⟩ | hloop
  · rw [htree, hset]
    exact hitCount_node_congr rfl rfl rfl
  · rw [htree, hleft]
  · exact hitCount_ipAddLoop hloop

/-! ### Looking up an address -/

/-- The rules of a tree with the paths of their nodes, below a path. -/
def rulePaths (t : BinTrie IpNode) (path : List Bool) : List Bool → Option (List Bool) :=
  fun q => (ipRules t q).map fun _ => path ++ q

/-- The search for the path of the longest rule descends by one bit. -/
theorem longest_rulePaths (a : IpNode) (zero one : BinTrie IpNode) (path : List Bool) (b : Bool)
    (w : List Bool) :
    longest (rulePaths (.node a zero one) path) (b :: w) =
      (longest (rulePaths (if b then one else zero) (path ++ [b])) w).or
        ((ruleOf a).map fun _ => path) := by
  have hbelow : (fun q => rulePaths (.node a zero one) path (b :: q)) =
      rulePaths (if b then one else zero) (path ++ [b]) := by
    funext q
    rw [rulePaths, rulePaths, List.append_assoc]
    cases b <;> rfl
  have hself : rulePaths (.node a zero one) path [] = (ruleOf a).map fun _ => path := by
    rw [rulePaths, List.append_nil]
    rfl
  rw [longest_cons, hbelow, hself]

theorem longest_rulePaths_of_isNil {t : BinTrie IpNode} (h : t.isNil = true)
    (path w : List Bool) : longest (rulePaths t path) w = none := by
  cases t with
  | nil => exact longest_of_forall_none (fun q => by simp [rulePaths, ipRules]) w
  | node a zero one => cases h

/-- Where the walk cannot go on, the node itself has the longest rule below it. -/
theorem longest_rulePaths_of_child {a : IpNode} {zero one : BinTrie IpNode} {ip : List UInt8}
    {d : ℕ} (h : (if bitAt ip d then one else zero).isNil = true) (path : List Bool) (n : ℕ) :
    longest (rulePaths (.node a zero one) path) (bitsFrom ip d n) =
      (ruleOf a).map fun _ => path := by
  cases n with
  | zero =>
      rw [bitsFrom_zero, longest_nil, rulePaths, List.append_nil]
      rfl
  | succ n => rw [bitsFrom_succ, longest_rulePaths, longest_rulePaths_of_isNil h, Option.none_or]

/-- The path that the walk keeps in mind after it has seen another node. -/
theorem path_seen (path : List Bool) (a : IpNode) (m : List Bool × IpNode) :
    (if a.cmd ≠ Ift.none then (path, a) else m).1 =
      ((ruleOf a).map fun _ => path).getD m.1 := by
  rw [ruleOf]
  by_cases h : a.cmd = Ift.none
  · rw [if_neg (not_not.mpr h), if_pos h]
    rfl
  · rw [if_pos h, if_neg h]
    rfl

/-- The walk of `ip_match` ends with the path of the longest rule. -/
theorem ipMatchLoop_path (ip : List UInt8) (n : ℕ) {d : ℕ} {t : BinTrie IpNode} {off : ℤ}
    {bit : ℕ} (hd : AtDepth d off bit) (hheight : t.height ≤ n + 1)
    (hlen : (d + n) / 8 < ip.length) (ht : t.isNil = false) (path : List Bool)
    (m : List Bool × IpNode) {r : List Bool × IpNode}
    (hloop : ipMatchLoop ip t path m off bit = .ok (some r)) :
    r.1 = (longest (rulePaths t path) (bitsFrom ip d n)).getD m.1 := by
  induction n generalizing t d off bit path m with
  | zero =>
      cases t with
      | nil => cases ht
      | node a zero one =>
          have hchild : (if bitAt ip d then one else zero).isNil = true := by
            rw [BinTrie.height] at hheight
            by_contra hne
            have := one_le_height (Bool.eq_false_iff.mpr hne)
            split_ifs at this <;> omega
          rw [ipMatchLoop_node hd (by omega), if_pos hchild] at hloop
          cases hloop
          rw [longest_rulePaths_of_child hchild, path_seen]
  | succ n ih =>
      cases t with
      | nil => cases ht
      | node a zero one =>
          rw [ipMatchLoop_node hd (by omega)] at hloop
          cases hchild : (if bitAt ip d then one else zero).isNil with
          | true =>
              rw [if_pos hchild] at hloop
              cases hloop
              rw [longest_rulePaths_of_child hchild, path_seen]
          | false =>
              have hheight' : (if bitAt ip d then one else zero).height ≤ n + 1 := by
                rw [BinTrie.height] at hheight
                split_ifs <;> omega
              rw [hchild, if_neg Bool.false_ne_true] at hloop
              rw [ih (AtDepth.next d) hheight' (by omega) hchild _ _ hloop, path_seen,
                bitsFrom_succ, longest_rulePaths]
              cases longest (rulePaths (if bitAt ip d then one else zero)
                (path ++ [bitAt ip d])) (bitsFrom ip (d + 1) n) <;> rfl

/-- **`ip_match` counts the rule that decides.** -/
theorem ipMatch_decider {ndebug : Bool} {t t' : BinTrie IpNode} (h : IpTreeOk t)
    {ip : List UInt8} (hlen : 5 ≤ ip.length) {v : ℤ} (hok : ipMatch ndebug t ip = .ok (v, t')) :
    ∃ q, decider (ipRules t) (prefixBits ip 32) = some q ∧ t' = t.modify countHit q := by
  obtain ⟨hnil, hheight, hroot⟩ := h
  cases t with
  | nil => cases hnil
  | node root zero one =>
      obtain ⟨path, n, hloop, -⟩ := ipMatchLoop_eq ip 32 atDepth_zero hheight (by omega) hnil []
        ([], root)
      have hpath := ipMatchLoop_path ip 32 atDepth_zero hheight (by omega) hnil [] _ hloop
      rw [ipMatch, hloop, ok_bind] at hok
      dsimp only at hok
      obtain ⟨_, -, hok⟩ := bind_eq_ok.mp hok
      cases hok
      refine ⟨path, ?_, rfl⟩
      have hsame : rulePaths (.node root zero one) [] =
          fun q => (ipRules (.node root zero one) q).map fun _ => q := rfl
      rw [hsame] at hpath
      cases hlong : decider (ipRules (.node root zero one)) (prefixBits ip 32) with
      | none =>
          -- the empty prefix has a rule
          have hnone := longest_eq_none_iff.mp hlong [] List.nil_prefix
          exact absurd (Option.map_eq_none_iff.mp hnone) hroot
      | some q =>
          rw [decider, prefixBits] at hlong
          rw [hlong] at hpath
          exact congrArg some hpath.symm

/-- The prefix that decides has a rule. -/
theorem decider_rule {rules : IpRuleMap} {addr q : List Bool} (h : decider rules addr = some q) :
    rules q ≠ none := by
  obtain ⟨q', -, hq', -⟩ := longest_eq_some_iff.mp h
  obtain ⟨v, hv, rfl⟩ := Option.map_eq_some_iff.mp hq'
  rw [hv]
  exact Option.some_ne_none v

/-- The numbers after a lookup. -/
theorem hitCount_modify {t : BinTrie IpNode} {q : List Bool} (h : ipRules t q ≠ none) :
    hitCount (t.modify countHit q) = Function.update (hitCount t) q (hitCount t q + 1) := by
  obtain ⟨n, hn⟩ : ∃ n, t.get? q = some n := by
    cases hget : t.get? q with
    | none => exact absurd (by rw [ipRules, BinTrie.rules, hget]; rfl) h
    | some n => exact ⟨n, rfl⟩
  funext r
  rw [hitCount, BinTrie.get?_modify]
  by_cases hr : r = q
  · rw [if_pos hr, hr, Function.update_self, hitCount, hn]
    rfl
  · rw [if_neg hr, Function.update_of_ne hr, hitCount]

/-! ### Runs -/

/-- A tree has the rules and the numbers that some calls have left. -/
structure Holds (l : IpList) (s : IpRuleMap × (List Bool → ℕ)) : Prop where
  kept : IpKept l
  rules : ipRules l.tree = s.1
  hits : hitCount l.tree = s.2

theorem holds_init : Holds IpList.init (initRules, fun _ => 0) := by
  refine ⟨ipKept_init, ipRules_init, ?_⟩
  funext q
  rcases q with _ | ⟨b, q⟩
  · rfl
  · cases b <;> simp [IpList.init, hitCount, BinTrie.get?]

/-- **One call.** -/
theorem Holds.call {l : IpList} {s : IpRuleMap × (List Bool → ℕ)} (h : Holds l s)
    (ndebug : Bool) {c : IpCall} (hc : c.Valid) :
    ∃ l' out, ipCallStep ndebug l c = .ok (l', out) ∧ Holds l' (hitStep s c) := by
  obtain ⟨l', out, hstep, hkept⟩ := h.kept.call ndebug hc
  obtain ⟨l₁, out₁, hstep₁, -, hrules⟩ := ipCallStep_eq ndebug h.kept.ok hc
  rw [hstep] at hstep₁
  cases hstep₁
  refine ⟨l', out, hstep, hkept, ?_, ?_⟩
  · rw [hrules, h.rules, hitStep_fst]
  · cases c with
    | add ip mask cmd =>
        obtain ⟨l₁, hadd, hstep⟩ := bind_eq_ok.mp hstep
        cases hstep
        exact (hitCount_ipAddSm hadd).trans h.hits
    | lookup ip =>
        obtain ⟨⟨v, tree⟩, hmatch, hstep⟩ := bind_eq_ok.mp hstep
        cases hstep
        obtain ⟨q, hq, rfl⟩ := ipMatch_decider h.kept.ok hc hmatch
        rw [hitStep, ← h.rules, hq, Option.elim_some, ← h.hits]
        exact hitCount_modify (decider_rule hq)

/-- **Runs.** -/
theorem Holds.run {l : IpList} {s : IpRuleMap × (List Bool → ℕ)} (h : Holds l s)
    (ndebug : Bool) {calls : List IpCall} (hcalls : ∀ c ∈ calls, c.Valid) :
    ∃ l' outs, StepRun.run (ipCallStep ndebug) l calls = .ok (l', outs) ∧
      Holds l' (calls.foldl hitStep s) := by
  induction calls generalizing l s with
  | nil => exact ⟨l, [], rfl, h⟩
  | cons c calls ih =>
      obtain ⟨hc, hrest⟩ := List.forall_mem_cons.mp hcalls
      obtain ⟨l₁, out, hstep, hl₁⟩ := h.call ndebug hc
      obtain ⟨l', outs, hrun, hl'⟩ := ih hl₁ hrest
      refine ⟨l', out :: outs, ?_, hl'⟩
      rw [run_cons_of_ok calls hstep, hrun]
      rfl

theorem foldl_hitStep_fst (calls : List IpCall) (s : IpRuleMap × (List Bool → ℕ)) :
    (calls.foldl hitStep s).1 = calls.foldl ruleStep s.1 := by
  induction calls generalizing s with
  | nil => rfl
  | cons c calls ih => rw [List.foldl_cons, List.foldl_cons, ih, hitStep_fst]

/-! ### The table -/

/-- The block for the rule of a prefix. -/
structure RuleBlock (rules : IpRuleMap) (hits : List Bool → ℕ) (q : List Bool) (b : IpBlock) :
    Prop where
  size : b.size = 4
  smask : b.smask = q.length
  /-- The prefix, and behind it zeros. -/
  addr : HoldsBits b.addr.toList q
  /-- As many ones as the prefix has bits, and behind them zeros. -/
  mask : HoldsBits b.mask.toList (List.replicate q.length true)
  cmd : rules q = some b.cmd
  count : b.count = hits q

theorem BlockOf.ruleBlock {t : BinTrie IpNode} {e : List Bool × IpNode} {b : IpBlock}
    (h : BlockOf e b) (hget : t.get? e.1 = some e.2) (hrule : (ruleOf e.2).isSome) :
    RuleBlock (ipRules t) (hitCount t) e.1 b := by
  refine ⟨h.size, h.smask, h.holdsAddr, h.holdsMask, ?_, ?_⟩
  · rw [isSome_ruleOf, decide_eq_true_eq] at hrule
    rw [ipRules, BinTrie.rules, hget, Option.bind_some, ruleOf, if_neg hrule, h.cmd]
  · rw [h.count, hitCount, hget]
    rfl

theorem forall₂_ruleBlock {t : BinTrie IpNode} {es : List (List Bool × IpNode)}
    {blocks : List IpBlock} (h : List.Forall₂ BlockOf es blocks)
    (hes : ∀ e ∈ es, t.get? e.1 = some e.2 ∧ (ruleOf e.2).isSome) :
    List.Forall₂ (RuleBlock (ipRules t) (hitCount t)) (es.map Prod.fst) blocks := by
  induction h with
  | nil => exact List.Forall₂.nil
  | cons hblock _ ih =>
      obtain ⟨⟨hget, hrule⟩, hrest⟩ := List.forall_mem_cons.mp hes
      exact List.Forall₂.cons (hblock.ruleBlock hget hrule) (ih hrest)

/-- The rules of the table but for the default: each of them once. -/
theorem nodup_ipEntries (t : BinTrie IpNode) : ((ipEntries t).map Prod.fst).Nodup := by
  cases t with
  | nil => exact List.nodup_nil
  | node root zero one =>
      have hbelow : ∀ (c : BinTrie IpNode) (b : Bool),
          [] ∉ (c.entries ruleOf [b]).map Prod.fst := by
        intro c b hmem
        have hle := (BinTrie.prefix_of_mem_entries hmem).length_le
        simp at hle
      rw [ipEntries, List.map_cons, List.map_append, List.nodup_cons, List.mem_append, not_or]
      refine ⟨⟨hbelow zero false, hbelow one true⟩, List.nodup_append.mpr
        ⟨BinTrie.nodup_entries zero _, BinTrie.nodup_entries one _, ?_⟩⟩
      intro r hzero r' hone heq
      rw [← heq] at hone
      exact BinTrie.not_prefix_both (p := []) (BinTrie.prefix_of_mem_entries hzero)
        (BinTrie.prefix_of_mem_entries hone)

/-- The first entry is the default, and there is one for every other node with a rule. -/
theorem ipEntries_eq_cons {t : BinTrie IpNode} (h : t.isNil = false) :
    ∃ root es, ipEntries t = ([], root) :: es ∧
      es.length = (t.child false).size ruleOf + (t.child true).size ruleOf := by
  cases t with
  | nil => cases h
  | node root zero one =>
      refine ⟨root, _, rfl, ?_⟩
      rw [List.length_append, BinTrie.length_entries, BinTrie.length_entries]
      rfl

/-- The paths of the table are the prefixes that have a rule. -/
theorem mem_map_ipEntries {t : BinTrie IpNode} (h : IpTreeOk t) {q : List Bool} :
    q ∈ (ipEntries t).map Prod.fst ↔ ipRules t q ≠ none := by
  rw [List.mem_map]
  constructor
  · rintro ⟨⟨q, n⟩, he, rfl⟩
    obtain ⟨hget, hrule⟩ := (mem_ipEntries h).mp he
    rw [ipRules, BinTrie.rules, hget]
    exact Option.isSome_iff_ne_none.mp hrule
  · intro hq
    obtain ⟨v, hv⟩ := Option.ne_none_iff_exists'.mp hq
    obtain ⟨n, hget, hrule⟩ := Option.bind_eq_some_iff.mp hv
    exact ⟨(q, n), (mem_ipEntries h).mpr ⟨hget, by rw [hrule]; rfl⟩, rfl⟩

/-- **The table.** Whatever calls of `ip_add_sm` and `ip_match` have made of the tree,
`g_ipcnt` counts the default and the nodes below the root that carry a rule, and `ip_table`
succeeds, with or without assertions, in an array with room for that many blocks. They are
the block of the default and then one for every other rule. -/
theorem ipTable_rules (ndebug : Bool) {calls : List IpCall} (hcalls : ∀ c ∈ calls, c.Valid) :
    ∃ l outs dflt blocks paths, run (ipCallStep ndebug) IpList.init calls = .ok (l, outs) ∧
      l.ipcnt = 1 + ((l.tree.child false).size ruleOf + (l.tree.child true).size ruleOf : ℕ) ∧
      ipTable ndebug l = .ok (dflt :: blocks) ∧
      ((dflt :: blocks).length : ℤ) = l.ipcnt ∧
      RuleBlock (rulesAfter calls) (hitsAfter calls) [] dflt ∧
      List.Forall₂ (RuleBlock (rulesAfter calls) (hitsAfter calls)) paths blocks ∧
      paths.Nodup ∧ ∀ q, q ∈ paths ↔ q ≠ [] ∧ rulesAfter calls q ≠ none := by
  obtain ⟨l, outs, hrun, hl⟩ := holds_init.run ndebug hcalls
  have hrules : ipRules l.tree = rulesAfter calls := by
    rw [hl.rules, foldl_hitStep_fst]
    rfl
  have hhits : hitCount l.tree = hitsAfter calls := hl.hits
  have hok := hl.kept.ok
  obtain ⟨root, es, hes, hlen⟩ := ipEntries_eq_cons hok.isNil
  obtain ⟨blocks, htable, hblocks⟩ := ipTable_eq ndebug hl.kept
  have hall := forall₂_ruleBlock hblocks fun e he => (mem_ipEntries hok).mp he
  have hnodup := nodup_ipEntries l.tree
  have hmem := fun q => @mem_map_ipEntries l.tree hok q
  have hroot : (l.tree.rules ruleOf []).isSome := Option.isSome_iff_ne_none.mpr hok.root
  have hcnt := hl.kept.ipcnt
  rw [hrules, hhits, hes, List.map_cons] at hall
  rw [hes, List.map_cons] at hnodup hmem
  rw [BinTrie.size_eq, hroot, Bool.toNat_true, Nat.add_assoc, Nat.cast_add, Nat.cast_one] at hcnt
  cases hall with
  | @cons _ dflt _ blocks hdflt hrest =>
      have hcount := hrest.length_eq
      rw [List.length_map, hlen] at hcount
      obtain ⟨hnot, hnodup⟩ := List.nodup_cons.mp hnodup
      refine ⟨l, outs, dflt, blocks, es.map Prod.fst, hrun, hcnt, htable, ?_, hdflt, hrest, hnodup,
        fun q => ?_⟩
      · rw [List.length_cons, ← hcount, hcnt, Nat.cast_add, Nat.cast_one, add_comm]
      · rw [← hrules, ← hmem q, List.mem_cons]
        constructor
        · intro hq
          refine ⟨?_, Or.inr hq⟩
          rintro rfl
          exact hnot hq
        · rintro ⟨hne, hq⟩
          exact hq.resolve_left hne

/-- The table of a network that is rejected, with a host in it that was set, looked up,
removed and set again. -/
theorem ipTable_rules_nested :
    ∃ l outs dflt blocks paths,
      run (ipCallStep false) IpList.init
        [.add [10, 0, 0, 0] 8 Ift.reject, .add [10, 1, 2, 3] 32 Ift.expire,
          .lookup [10, 1, 2, 3, 0], .add [10, 1, 2, 3] 32 Ift.remove,
          .add [10, 1, 2, 3] 32 Ift.accept] = .ok (l, outs) ∧
      ipTable false l = .ok (dflt :: blocks) ∧
      List.Forall₂ (RuleBlock
        (rulesAfter [.add [10, 0, 0, 0] 8 Ift.reject, .add [10, 1, 2, 3] 32 Ift.expire,
          .lookup [10, 1, 2, 3, 0], .add [10, 1, 2, 3] 32 Ift.remove,
          .add [10, 1, 2, 3] 32 Ift.accept])
        (hitsAfter [.add [10, 0, 0, 0] 8 Ift.reject, .add [10, 1, 2, 3] 32 Ift.expire,
          .lookup [10, 1, 2, 3, 0], .add [10, 1, 2, 3] 32 Ift.remove,
          .add [10, 1, 2, 3] 32 Ift.accept])) paths blocks := by
  obtain ⟨l, outs, dflt, blocks, paths, hrun, -, htable, -, -, hblocks, -⟩ :=
    @ipTable_rules false [.add [10, 0, 0, 0] 8 Ift.reject,
      .add [10, 1, 2, 3] 32 Ift.expire, .lookup [10, 1, 2, 3, 0],
      .add [10, 1, 2, 3] 32 Ift.remove, .add [10, 1, 2, 3] 32 Ift.accept]
      (by simp [IpCall.Valid, Ift.greylist, Ift.accept, Ift.reject, Ift.remove, Ift.expire])
  exact ⟨l, outs, dflt, blocks, paths, hrun, htable, hblocks⟩

end XGrey
